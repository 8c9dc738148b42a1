import FormulaSheet.Proofs.Formula.Collected
import FormulaSheet.Proofs.Grid.LeadingZeros
import FormulaSheet.Proofs.Sheet.Failure

/-!
# How cells are filed

Keys come from two sides. Names of cells are brought to their keys when an operation begins, and
formulas mention addresses, whose keys are written out when the formula is stored. The two sides
meet because no formula mentions an address of the last column, the key of which could not be read.

So every key on file is the only spelling of itself that is used, and a formula reads the cell of a
name when and only when the name is a spelling of an address that the formula mentions.
-/

namespace FormulaSheet

namespace Sheet

open Address (canonicalKey)

variable {s : Sheet} {c b x : String} {e : Option Expr}

/-- Formulas are filed under canonical keys, and mention only addresses that can be read. -/
structure Filed (s : Sheet) : Prop where
  /-- The keys are canonical. -/
  canonical : ∀ c ∈ s.expressions, canonicalKey c = c
  /-- The addresses can be read. -/
  readable : ∀ (c : String) (e : Expr), s.expressions[c]? = some e →
    ∀ a, e.Mentions a → a.col.toNat < Column.limit

/-! ## Every run -/

theorem filed_fresh (functions : Registry) (options : SheetOptions) :
    (fresh functions options).Filed where
  canonical c hc := absurd hc Std.ExtTreeMap.not_mem_empty
  readable c e he := by
    rw [show (fresh functions options).expressions[c]? = none from
      Std.ExtTreeMap.getElem?_empty] at he
    cases he

theorem Filed.install (h : s.Filed) (cell : String)
    (he : ∀ e', e = some e' → ∀ a, e'.Mentions a → a.col.toNat < Column.limit) (wanted : Keys) :
    (s.install (canonicalKey cell) e wanted).Filed where
  canonical c hc := by
    rw [Std.ExtTreeMap.mem_iff_isSome_getElem?, getElem?_expressions_install] at hc
    split at hc
    next hkey => rw [hkey, Address.canonicalKey_canonicalKey]
    next => exact h.canonical c (Std.ExtTreeMap.mem_iff_isSome_getElem?.mpr hc)
  readable c e' hc := by
    rw [getElem?_expressions_install] at hc
    split at hc
    next => exact he e' hc
    next => exact h.readable c e' hc

theorem Filed.update (h : s.Filed) (cell text : String) : (s.update cell text).Filed := by
  cases htry : s.tryUpdate cell text with
  | ok after =>
    obtain ⟨keys, -, rfl⟩ := tryUpdate_eq_install htry
    rw [update_of_ok htry]
    exact h.install cell (fun _ ↦ Expr.col_lt_of_parse) _
  | error o =>
    rw [update_of_error htry]
    split
    next =>
      rw [recordFailure_eq_install]
      refine h.install cell (fun e' he' a ha ↦ ?_) ∅
      obtain rfl := Option.some.inj he'
      cases ha
    next => exact h

theorem Filed.recalculate (h : s.Filed) (cell : String) : (s.recalculate cell).Filed := by
  rw [Sheet.recalculate, recalculateKey_eq]
  exact ⟨h.canonical, h.readable⟩

/-- **Every run** leaves the sheet so. -/
theorem filed_run (functions : Registry) (options : SheetOptions) (ops : List Operation) :
    ((fresh functions options).run ops).Filed :=
  run_induction_names (Q := fun _ ↦ True) (fun _ cell text _ h ↦ h.update cell text)
    (fun _ cell _ h ↦ h.recalculate cell) (fun _ _ _ _ ↦ trivial) (filed_fresh functions options)

/-! ## What formulas read -/

theorem Wired.mem_asked_iff (h : s.Wired) :
    b ∈ s.asked c ↔ ∃ e, s.expressions[c]? = some e ∧ ∃ a, e.Mentions a ∧ a.key = b := by
  simp only [(h.admitted c).mem_iff, Expr.mem_addresses_iff]

theorem Filed.parse_of_mem_asked (h : s.Filed) (hw : s.Wired) (hb : b ∈ s.asked c) :
    ∃ a, a.key = b ∧ Address.parse b = .ok a := by
  obtain ⟨e, he, a, ha, rfl⟩ := hw.mem_asked_iff.mp hb
  exact ⟨a, rfl, Address.parse_key_of_lt (h.readable c e he a ha)⟩

/-- **Which names a formula reads:** the spellings of the addresses that it mentions. -/
theorem Filed.canonicalKey_mem_asked_iff (h : s.Filed) (hw : s.Wired) :
    canonicalKey x ∈ s.asked c ↔
      ∃ e a, s.expressions[c]? = some e ∧ Address.parse x = .ok a ∧ e.Mentions a := by
  rw [hw.mem_asked_iff]
  constructor
  · rintro ⟨e, he, a, ha, hkey⟩
    have hlt := h.readable c e he a ha
    exact ⟨e, a, he, (Address.key_eq_canonicalKey_iff hlt).mp hkey, ha⟩
  · rintro ⟨e, a, he, hx, ha⟩
    exact ⟨e, he, a, ha, (Address.canonicalKey_of_parse hx).symm⟩

/-! ## Keys on file -/

theorem mem_cells : c ∈ s.cells ↔ c ∈ s.expressions ∨ c ∈ s.values := by
  rw [cells, Std.ExtTreeSet.mem_toList, Std.ExtTreeSet.mem_insertMany_list]
  simp

/-- The key occurs in one of the lists that the sheet can be asked for. -/
def Lists (s : Sheet) (key : String) : Prop :=
  key ∈ s.cells ∨ key ∈ s.refusedCells ∨ ∃ x, key ∈ s.precedents x ∨ key ∈ s.dependents x

/-- **Keys on file** are canonical. -/
theorem Filed.canonicalKey_of_lists (h : s.Filed) (hi : s.Intact) (hc : s.Lists c) :
    canonicalKey c = c := by
  rcases hc with hc | hc | ⟨x, hc | hc⟩
  · exact h.canonical c ((mem_cells.mp hc).elim id hi.mem_expressions)
  · exact h.canonical c (hi.wired.mem_expressions_of_refused (mem_refusedCells.mp hc))
  · rw [precedents, Std.ExtTreeSet.mem_toList, hi.wired.mem_precedents_iff] at hc
    obtain ⟨a, hkey, hparse⟩ := h.parse_of_mem_asked hi.wired hc.2.2
    rw [Address.canonicalKey_of_parse hparse, hkey]
  · rw [dependents, Std.ExtTreeSet.mem_toList] at hc
    exact h.canonical c (mem_expressions_of_mem_asked (hi.wired.leads_iff.mp hc).2.2)

end Sheet

end FormulaSheet
