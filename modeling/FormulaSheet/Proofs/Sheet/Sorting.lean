import FormulaSheet.Sheet.Listing

/-!
# The order of listings is total

Names are compared in two stages: by the addresses that they spell, where all names that spell none
share a place behind the others, and then by their text. `orderByAddress` is the first stage. It is
an order with ties, and the second stage leaves a tie only between a name and itself.

So there is only one way to put given names in order, and it does not matter in which order they
came. It does not even matter that a sort leaves equal names as they were.
-/

namespace FormulaSheet

namespace Address

instance : Std.TransOrd Address :=
  inferInstanceAs (Std.TransCmp (compareLex (compareOn Address.row) (compareOn Address.col)))

theorem compare_eq_lt_iff {x y : Address} :
    compare x y = .lt ↔ x.row < y.row ∨ x.row = y.row ∧ x.col < y.col := by
  have hthen : compare x y = (compare x.row y.row).then (compare x.col y.col) := rfl
  rw [hthen, Ordering.then_eq_lt, Std.compare_eq_lt, Std.compare_eq_lt, Std.compare_eq_iff_eq]

end Address

namespace Listing

variable {a b c : String} {x y : Address} {e : AddressFault}

/-! ## By address -/

/-- The order of two names by their addresses. Names that are no addresses come last and are level
with each other. -/
def orderByAddress (a b : String) : Ordering :=
  match Address.parse a, Address.parse b with
  | .ok x, .ok y => compare x y
  | .ok _, .error _ => .lt
  | .error _, .ok _ => .gt
  | .error _, .error _ => .eq

theorem orderByAddress_of_addresses (ha : Address.parse a = .ok x) (hb : Address.parse b = .ok y) :
    orderByAddress a b = compare x y := by
  rw [orderByAddress, ha, hb]

theorem orderByAddress_of_address (ha : Address.parse a = .ok x) (hb : Address.parse b = .error e) :
    orderByAddress a b = .lt := by
  rw [orderByAddress, ha, hb]

/-- A name in front of an address is an address. -/
theorem isLE_orderByAddress_iff :
    (orderByAddress a b).isLE = true ↔
      ∀ y, Address.parse b = .ok y → ∃ x, Address.parse a = .ok x ∧ (compare x y).isLE = true := by
  rw [orderByAddress]
  constructor
  · intro h y hb
    rw [hb] at h
    cases ha : Address.parse a with
    | ok x =>
      rw [ha] at h
      exact ⟨x, rfl, h⟩
    | error e =>
      rw [ha] at h
      cases h
  · intro h
    cases hb : Address.parse b with
    | ok y =>
      obtain ⟨x, ha, hle⟩ := h y hb
      rw [ha]
      exact hle
    | error e =>
      cases Address.parse a with
      | ok x => rfl
      | error e' => rfl

instance : Std.TransCmp orderByAddress where
  eq_swap {a b} := by
    rw [orderByAddress, orderByAddress]
    cases Address.parse a with
    | ok x =>
      cases Address.parse b with
      | ok y => exact Std.OrientedOrd.eq_swap
      | error e => rfl
    | error e =>
      cases Address.parse b with
      | ok y => rfl
      | error e' => rfl
  isLE_trans {a b c} hab hbc := by
    rw [isLE_orderByAddress_iff] at hab hbc ⊢
    intro z hc
    obtain ⟨y, hb, hyz⟩ := hbc z hc
    obtain ⟨x, ha, hxy⟩ := hab y hb
    exact ⟨x, ha, Std.TransOrd.isLE_trans hxy hyz⟩

/-! ## By address and text -/

theorem order_eq (a b : String) : order a b = (orderByAddress a b).then (compare a b) := by
  rw [order, orderByAddress]
  cases Address.parse a with
  | ok x =>
    cases Address.parse b with
    | ok y => rfl
    | error e => rfl
  | error e =>
    cases Address.parse b with
    | ok y => rfl
    | error e' => rfl

theorem order_eq_lt_of_byAddress (h : orderByAddress a b = .lt) : order a b = .lt := by
  rw [order_eq, h]
  rfl

theorem order_eq_eq_iff : order a b = .eq ↔ a = b := by
  rw [order_eq, Ordering.then_eq_eq, Std.compare_eq_iff_eq]
  refine and_iff_right_of_imp fun h ↦ ?_
  rw [h]
  exact Std.ReflCmp.compare_self

instance : Std.TransCmp order := by
  have hlex : order = compareLex orderByAddress compare :=
    funext fun a ↦ funext fun b ↦ order_eq a b
  rw [hlex]
  infer_instance

theorem isLE_order_total (a b : String) : (order a b).isLE = true ∨ (order b a).isLE = true := by
  have hswap : order b a = (order a b).swap := Std.OrientedCmp.eq_swap
  rw [hswap]
  cases order a b with
  | lt => exact Or.inl rfl
  | eq => exact Or.inl rfl
  | gt => exact Or.inr rfl

theorem eq_of_isLE_order (hab : (order a b).isLE = true) (hba : (order b a).isLE = true) : a = b :=
  order_eq_eq_iff.mp (Std.OrientedCmp.isLE_antisymm hab hba)

/-! ## Sorting -/

theorem sort_perm (names : List String) : (sort names).Perm names := List.mergeSort_perm _ _

theorem pairwise_sort (names : List String) :
    (sort names).Pairwise fun a b ↦ (order a b).isLE = true := by
  refine List.pairwise_mergeSort (fun a b c ↦ Std.TransCmp.isLE_trans) (fun a b ↦ ?_) names
  rw [Bool.or_eq_true]
  exact isLE_order_total a b

theorem eq_sort_of_perm {names sorted : List String} (hperm : sorted.Perm names)
    (hsorted : sorted.Pairwise fun a b ↦ (order a b).isLE = true) : sorted = sort names :=
  List.Perm.eq_of_pairwise (fun _ _ _ _ ↦ eq_of_isLE_order) hsorted (pairwise_sort names)
    (hperm.trans (sort_perm names).symm)

/-- **The order of listings** is total, and only a name and itself are level in it. Addresses stand
in front of all other names, row by row and within a row by column. Sorting puts names in this
order, each as often as it was there, and comes to the same if they are rearranged. -/
theorem order_total_sort_unique :
    ((∀ a, order a a = .eq) ∧ (∀ a b, order a b = .eq → a = b) ∧
      (∀ a b, order b a = (order a b).swap) ∧
      (∀ a b c, (order a b).isLE = true → (order b c).isLE = true → (order a c).isLE = true) ∧
      ∀ a b, (order a b).isLE = true ∨ (order b a).isLE = true) ∧
    ((∀ a b x e, Address.parse a = .ok x → Address.parse b = .error e → order a b = .lt) ∧
      ∀ a b x y, Address.parse a = .ok x → Address.parse b = .ok y →
        x.row < y.row ∨ x.row = y.row ∧ x.col < y.col → order a b = .lt) ∧
    ∀ names, (sort names).Perm names ∧
      (sort names).Pairwise (fun a b ↦ (order a b).isLE = true) ∧
      ∀ names', names'.Perm names → sort names' = sort names := by
  refine ⟨⟨fun a ↦ order_eq_eq_iff.mpr rfl, fun a b ↦ order_eq_eq_iff.mp,
    fun a b ↦ Std.OrientedCmp.eq_swap, fun a b c ↦ Std.TransCmp.isLE_trans, isLE_order_total⟩,
    ⟨fun a b x e ha hb ↦ ?_, fun a b x y ha hb hxy ↦ ?_⟩,
    fun names ↦ ⟨sort_perm names, pairwise_sort names, fun names' hperm ↦ ?_⟩⟩
  · exact order_eq_lt_of_byAddress (orderByAddress_of_address ha hb)
  · apply order_eq_lt_of_byAddress
    rw [orderByAddress_of_addresses ha hb]
    exact Address.compare_eq_lt_iff.mpr hxy
  · exact eq_sort_of_perm ((sort_perm names').trans hperm) (pairwise_sort names')

/-- Two spellings of one address, a row that is too large, and names, with one name twice. -/
theorem order_total_sort_unique_spellings :
    let sorted := ["A01", "A1", "B1", "AA1", "A2", "A10", "A4294967296", "total", "total"]
    let names := ["total", "A10", "A1", "A4294967296", "AA1", "total", "A2", "B1", "A01"]
    (names.Perm sorted ∧ sort names = sorted) ∧
      (Address.parse "AA1" = .ok ⟨26, 1⟩ ∧ Address.parse "A2" = .ok ⟨0, 2⟩ ∧
        order "AA1" "A2" = .lt) := by
  intro sorted names
  have hperm : names.Perm sorted := by decide
  have hsorted : sorted.Pairwise fun a b ↦ (order a b).isLE = true := by decide
  have haa1 : Address.parse "AA1" = .ok ⟨26, 1⟩ := rfl
  have ha2 : Address.parse "A2" = .ok ⟨0, 2⟩ := rfl
  obtain ⟨-, ⟨-, hbefore⟩, hsort⟩ := order_total_sort_unique
  refine ⟨⟨hperm, ?_⟩, haa1, ha2, hbefore _ _ _ _ haa1 ha2 (Or.inl (by decide))⟩
  calc sort names = sort sorted := (hsort sorted).2.2 names hperm
    _ = sorted := List.mergeSort_of_pairwise hsorted

end Listing

end FormulaSheet
