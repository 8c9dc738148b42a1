import FormulaSheet.Proofs.Formula.Limit
import FormulaSheet.Proofs.Grid.Spelling

/-!
# What is collected from a formula

Which addresses an expression mentions is said by `Expr.Mentions`, without walking over anything: a
reference mentions its cell, a range what it contains, and a call what its arguments mention.

## Exactness

Keys are collected by a walk over the expression and, in each range, by a cursor, until there is a
range above the limit. They are the keys of the mentioned addresses, and since no two addresses
share a key a range alone gives as many as it has cells. What makes this exact is that the counts of
a countable range are the true ones; of the range that spans all columns and all rows the check
would not see the size.

## Locality

Evaluation walks over an expression in its own way, by the rows of each range. It comes to no cell
that the collecting walk does not come to, and this holds of every expression, countable or not. So
whoever keeps track of the collected keys knows when a value may have changed.
-/

namespace FormulaSheet

namespace Expr

/-- The expression refers to the address, or one of its ranges contains it. -/
inductive Mentions : Expr → Address → Prop where
  /-- A reference mentions its cell. -/
  | cell (a : Address) : Mentions (.cell a) a
  /-- A range mentions what it contains. -/
  | range {r : Range} {a : Address} (h : r.contains a = true) : Mentions (.range r) a
  /-- A call mentions what its arguments mention. -/
  | arg {name : String} {args : List Expr} {arg : Expr} {a : Address} (harg : arg ∈ args)
      (h : Mentions arg a) : Mentions (.call name args) a

mutual

theorem mem_addresses_iff {a : Address} : (e : Expr) → (a ∈ e.addresses ↔ e.Mentions a)
  | .number _ => iff_of_false List.not_mem_nil nofun
  | .text _ => iff_of_false List.not_mem_nil nofun
  | .failure _ => iff_of_false List.not_mem_nil nofun
  | .cell b => by
    rw [addresses, List.mem_singleton]
    constructor
    · rintro rfl
      exact .cell a
    · rintro (_ | _)
      rfl
  | .range r => by
    rw [addresses, Range.mem_rows_iff]
    exact ⟨.range, fun | .range h => h⟩
  | .call _ args => by
    rw [addresses, mem_argAddresses_iff args]
    exact ⟨fun ⟨_, harg, h⟩ ↦ .arg harg h, fun | .arg harg h => ⟨_, harg, h⟩⟩

theorem mem_argAddresses_iff {a : Address} :
    (args : List Expr) → (a ∈ argAddresses args ↔ ∃ arg ∈ args, arg.Mentions a)
  | [] => by simp [argAddresses]
  | arg :: args => by
    rw [argAddresses, List.mem_append, mem_addresses_iff arg, mem_argAddresses_iff args]
    simp only [List.mem_cons, or_and_right, exists_or, exists_eq_left]

end

/-! ## Formulas from text -/

theorem col_lt_of_ofWord {word : String} {e : Expr} (h : ofWord word = .ok e) :
    ∀ a, e.Mentions a → a.col.toNat < Column.limit := by
  intro a ha
  rw [ofWord] at h
  split at h
  · obtain rfl := Except.ok.inj h
    cases ha
  split at h
  · obtain ⟨b, hb, rfl⟩ := map_eq_ok_iff.mp h
    cases ha
    exact Address.col_lt_of_parse (mapError_eq_ok_iff.mp hb)
  split at h
  · split at h
    · obtain ⟨r, hr, rfl⟩ := map_eq_ok_iff.mp h
      cases ha with
      | range hcontains =>
        have hle := UInt32.le_iff_toNat_le.mp (Range.contains_iff.mp hcontains).2.2
        exact Nat.lt_of_le_of_lt hle (Range.ordered_of_parse (mapError_eq_ok_iff.mp hr)).2
    · cases h
  · cases h

/-- **Formulas from text** mention only addresses that can be read. -/
theorem col_lt_of_parse {text : String} {e : Expr} (h : parse text = some e) :
    ∀ a, e.Mentions a → a.col.toNat < Column.limit := by
  refine parse_induction (P := fun e ↦ ∀ a, e.Mentions a → a.col.toNat < Column.limit)
    (fun _ _ ↦ col_lt_of_ofWord) (fun s a ha ↦ nomatch ha) (fun name args hargs a ha ↦ ?_)
    (fun message a ha ↦ nomatch ha) h
  cases ha with
  | arg harg hmentions => exact hargs _ harg a hmentions

/-! ## Exactness -/

variable {limit : UInt64} {e : Expr} {r : Range} {keys : Keys}

theorem mem_keys_iff_mentions (hordered : ∀ r ∈ e.ranges, r.Ordered)
    (hkeys : e.keys limit = .ok keys) {key : String} :
    key ∈ keys ↔ ∃ a, e.Mentions a ∧ a.key = key := by
  rw [mem_keys hordered hkeys]
  simp only [mem_addresses_iff]

theorem size_keys_range (h : r.Ordered) (hkeys : (Expr.range r).keys limit = .ok keys) :
    keys.size = r.height * r.width := by
  rw [Expr.keys, addKeys] at hkeys
  split at hkeys
  next => cases hkeys
  next =>
    have hdistinct : (r.cells.map Address.key).Pairwise fun a b ↦ ¬compare a b = .eq := by
      rw [List.pairwise_map, h.cells_eq]
      refine (Range.nodup_rows r).imp fun hab hkey ↦ hab ?_
      exact Address.key_inj.mp (Std.compare_eq_iff_eq.mp hkey)
    rw [← Except.ok.inj hkeys, Std.ExtTreeSet.size_insertMany_list hdistinct
        fun a ha ↦ absurd ha Std.ExtTreeSet.not_mem_empty,
      Std.ExtTreeSet.size_empty, Nat.zero_add, List.length_map, h.cells_eq, Range.length_rows]

/-- The range that is reported stands right of none that is above the limit. -/
theorem exists_append_of_firstAbove (hcountable : ∀ r ∈ e.ranges, r.Countable)
    (h : firstAbove limit e.ranges = some r) :
    ∃ before after, e.ranges = before ++ r :: after ∧
      ∀ q ∈ before, q.height * q.width ≤ limit.toNat := by
  obtain ⟨-, before, after, hranges, hbefore⟩ := List.find?_eq_some_iff_append.mp h
  refine ⟨before, after, hranges, fun q hq ↦ ?_⟩
  have hq' : q.Countable := hcountable q (hranges ▸ List.mem_append_left _ hq)
  have hnot : ¬limit < q.cellCount := by simpa using hbefore q hq
  exact Nat.not_lt.mp (mt hq'.lt_cellCount_iff.mpr hnot)

theorem exists_keys_eq_ok (hcountable : ∀ r ∈ e.ranges, r.Countable)
    (hlimit : ∀ r ∈ e.ranges, r.height * r.width ≤ limit.toNat) :
    ∃ keys, e.keys limit = .ok keys := by
  cases hkeys : e.keys limit with
  | ok keys => exact ⟨keys, rfl⟩
  | error o =>
    have hfirst := ((addKeys_eq_error_iff e ∅ o).mp hkeys).1
    obtain ⟨hmem, habove⟩ := firstAbove_eq_some hcountable hfirst
    exact absurd (hlimit _ hmem) (Nat.not_le.mpr habove)

/-! ## The example -/

/-- Three cells, one above the other. -/
def column : Range := ⟨⟨0, 1⟩, ⟨0, 3⟩⟩

/-- The upper two of them and the two right of these. -/
def block : Range := ⟨⟨0, 1⟩, ⟨1, 2⟩⟩

/-- A call with a cell and with a call of both ranges. -/
def nested : Expr := .call "F" [.cell ⟨2, 1⟩, .call "G" [.range column, .range block]]

private theorem ranges_nested : nested.ranges = [column, block] := rfl

private theorem countable_nested : ∀ r ∈ nested.ranges, r.Countable := by
  rw [ranges_nested, List.forall_mem_cons, List.forall_mem_singleton]
  exact ⟨⟨by decide, by decide⟩, ⟨by decide, by decide⟩⟩

private theorem addresses_nested :
    nested.addresses =
      [⟨2, 1⟩, ⟨0, 1⟩, ⟨0, 2⟩, ⟨0, 3⟩, ⟨0, 1⟩, ⟨1, 1⟩, ⟨0, 2⟩, ⟨1, 2⟩] := by decide

private theorem key_b2 : Address.key ⟨1, 2⟩ = "B2" := by
  have hletters : Column.letters 1 = "B" := by
    simp [Column.letters, Column.numeral, Column.letter]
  rw [Address.key, hletters]
  rfl

private theorem key_c2 : Address.key ⟨2, 2⟩ = "C2" := by
  have hletters : Column.letters 2 = "C" := by
    simp [Column.letters, Column.numeral, Column.letter]
  rw [Address.key, hletters]
  rfl

private theorem mem_keys_nested
    (h : ∀ key, key ∈ keys ↔ ∃ a, nested.Mentions a ∧ a.key = key) : "B2" ∈ keys ∧ "C2" ∉ keys := by
  rw [h, h, ← key_b2, ← key_c2]
  simp only [← mem_addresses_iff, addresses_nested]
  refine ⟨⟨_, by decide, rfl⟩, ?_⟩
  rintro ⟨a, ha, hkey⟩
  rw [Address.key_inj.mp hkey] at ha
  exact absurd ha (by decide)

/-! ## The results -/

/-- **Collecting keys is exact**, for expressions with countable ranges. If no range has more cells
than the limit, the keys are those of the mentioned addresses, and those of a range alone are as
many as it has cells. Otherwise the leftmost range above the limit is reported, with its text, the number
of its cells and the limit. -/
theorem keys_exact (limit : UInt64) (e : Expr) (hcountable : ∀ r ∈ e.ranges, r.Countable) :
    ((∀ r ∈ e.ranges, r.height * r.width ≤ limit.toNat) →
      ∃ keys, e.keys limit = .ok keys ∧
        (∀ key, key ∈ keys ↔ ∃ a, e.Mentions a ∧ a.key = key) ∧
        ∀ r, e = .range r →
          keys.size = r.cellCount.toNat ∧ r.cellCount.toNat = r.height * r.width) ∧
    ((∃ r ∈ e.ranges, limit.toNat < r.height * r.width) →
      ∃ before r after, e.ranges = before ++ r :: after ∧
        (∀ q ∈ before, q.height * q.width ≤ limit.toNat) ∧ limit.toNat < r.height * r.width ∧
        e.keys limit = .error ⟨r, limit⟩ ∧
        OversizedRange.message ⟨r, limit⟩ =
          "Range " ++ r.text ++ " covers " ++ Nat.repr (r.height * r.width)
            ++ " cells, more than the limit of " ++ Nat.repr limit.toNat) := by
  refine ⟨fun hlimit ↦ ?_, fun ⟨q, hq, hlimit⟩ ↦ ?_⟩
  · obtain ⟨keys, hkeys⟩ := exists_keys_eq_ok hcountable hlimit
    have hordered : ∀ r ∈ e.ranges, r.Ordered := fun r hr ↦ (hcountable r hr).ordered
    refine ⟨keys, hkeys, fun _ ↦ mem_keys_iff_mentions hordered hkeys, fun r he ↦ ?_⟩
    subst he
    have hr : r.Countable := hcountable r List.mem_cons_self
    rw [size_keys_range hr.ordered hkeys, hr.toNat_cellCount]
    exact ⟨rfl, rfl⟩
  · have hsome : (firstAbove limit e.ranges).isSome := by
      rw [firstAbove, List.find?_isSome]
      exact ⟨q, hq, decide_eq_true ((hcountable q hq).lt_cellCount_iff.mpr hlimit)⟩
    obtain ⟨r, hfirst⟩ := Option.isSome_iff_exists.mp hsome
    obtain ⟨before, after, hranges, hbefore⟩ := exists_append_of_firstAbove hcountable hfirst
    obtain ⟨hmem, habove⟩ := firstAbove_eq_some hcountable hfirst
    refine ⟨before, r, after, hranges, hbefore, habove,
      (addKeys_eq_error_iff e ∅ ⟨r, limit⟩).mpr ⟨hfirst, rfl⟩, ?_⟩
    rw [OversizedRange.message, (hcountable r hmem).toNat_cellCount]

/-- In the example the limit of four cells is kept, and the block alone gives four keys. The limit
of three is kept by the first range and not by the second. -/
theorem keys_nested :
    (∀ r ∈ nested.ranges, r.Countable) ∧
      (∃ keys, nested.keys 4 = .ok keys ∧ "B2" ∈ keys ∧ "C2" ∉ keys) ∧
      (∃ keys, (Expr.range block).keys 4 = .ok keys ∧ keys.size = 4) ∧
      nested.keys 3 = .error ⟨block, 3⟩ := by
  have hblock : ∀ r ∈ (Expr.range block).ranges, r.Countable := fun r hr ↦
    countable_nested r (List.mem_cons_of_mem _ hr)
  refine ⟨countable_nested, ?_, ?_, ?_⟩
  · obtain ⟨keys, hkeys, hmem, -⟩ := (keys_exact 4 nested countable_nested).1 (by decide)
    exact ⟨keys, hkeys, mem_keys_nested hmem⟩
  · obtain ⟨keys, hkeys, -, hsize⟩ := (keys_exact 4 (.range block) hblock).1 (by decide)
    obtain ⟨hcount, harea⟩ := hsize block rfl
    exact ⟨keys, hkeys, hcount.trans harea⟩
  · obtain ⟨before, r, after, hranges, -, habove, herror, -⟩ :=
      (keys_exact 3 nested countable_nested).2 ⟨block, by decide, by decide⟩
    have hmem : r ∈ nested.ranges := hranges ▸ List.mem_append_right _ List.mem_cons_self
    rw [ranges_nested, List.mem_cons, List.mem_singleton] at hmem
    rcases hmem with rfl | rfl
    · exact absurd habove (by decide)
    · exact herror

/-- **Evaluation reads the collected keys only.** Whatever the formula, the cell and the functions
are, values that agree on the collected keys give the same result. -/
theorem evalFormula_eq_of_formulaKeys (limit : UInt64) (f : Option Expr) (keys : Keys)
    (cell : String) (functions : Registry) (values values' : Values)
    (hkeys : formulaKeys limit f = .ok keys)
    (hvalues : ∀ key ∈ keys, values.get key = values'.get key) :
    evalFormula ⟨cell, values, functions⟩ f = evalFormula ⟨cell, values', functions⟩ f := by
  cases f with
  | none => rfl
  | some e => exact eval_eq_of_keys hkeys cell functions hvalues

/-- In the example a value right of the block makes no difference. -/
theorem eval_nested :
    let values : Values := (∅ : Values).insert "B2" (.text "x")
    let values' : Values := values.insert "C2" (.text "y")
    let functions : Registry := Registry.empty.register "F" fun args ↦ .array [args]
    (∃ keys, formulaKeys 4 (some nested) = .ok keys ∧ "B2" ∈ keys ∧
      ∀ key ∈ keys, values.get key = values'.get key) ∧
      evalFormula ⟨"D1", values, functions⟩ (some nested)
        = evalFormula ⟨"D1", values', functions⟩ (some nested) := by
  intro values values' functions
  have hordered : ∀ r ∈ nested.ranges, r.Ordered := fun r hr ↦ (countable_nested r hr).ordered
  obtain ⟨keys, hkeys⟩ : ∃ keys, nested.keys 4 = .ok keys :=
    exists_keys_eq_ok countable_nested (by decide)
  obtain ⟨hread, hnot⟩ := mem_keys_nested fun _ ↦ mem_keys_iff_mentions hordered hkeys
  have hvalues : ∀ key ∈ keys, values.get key = values'.get key := by
    intro key hkey
    have hne : key ≠ "C2" := fun heq ↦ hnot (heq ▸ hkey)
    refine (Std.ExtTreeMap.getD_insert.trans (if_neg fun heq ↦ ?_)).symm
    exact hne (Std.compare_eq_iff_eq.mp heq).symm
  exact ⟨⟨keys, hkeys, hread, hvalues⟩,
    evalFormula_eq_of_formulaKeys 4 (some nested) keys "D1" functions values values' hkeys hvalues⟩

end Expr

end FormulaSheet
