import FormulaSheet.Proofs.Formula.Parsed

/-!
# Ranges above the limit

Collecting the keys of a formula fails when and only when one of its ranges has more cells than the
limit allows, and of several such ranges the leftmost is the one reported. The check compares words;
for the ranges of a text, which are countable, it compares the true numbers of cells.
-/

namespace FormulaSheet

variable {limit : UInt64}

theorem Range.Countable.lt_cellCount_iff {r : Range} (h : r.Countable) :
    limit < r.cellCount ↔ limit.toNat < r.height * r.width := by
  rw [UInt64.lt_iff_toNat_lt, h.toNat_cellCount]

namespace Expr

/-! ## The range that is reported -/

/-- The first of some ranges that the check finds above the limit. -/
def firstAbove (limit : UInt64) (ranges : List Range) : Option Range :=
  ranges.find? (limit < ·.cellCount)

mutual

/-- Adding keys fails at the leftmost range above the limit, whatever has been added before. -/
theorem addKeys_eq_error_iff :
    (e : Expr) → (keys : Keys) → (o : OversizedRange) → (e.addKeys limit keys = .error o ↔
      firstAbove limit e.ranges = some o.range ∧ limit = o.limit)
  | .number _, _, _ => by simp [addKeys, ranges, firstAbove]
  | .text _, _, _ => by simp [addKeys, ranges, firstAbove]
  | .cell _, _, _ => by simp [addKeys, ranges, firstAbove]
  | .failure _, _, _ => by simp [addKeys, ranges, firstAbove]
  | .range r, _, ⟨_, _⟩ => by
    rw [addKeys, ranges, firstAbove]
    by_cases habove : limit < r.cellCount
    · simp [habove]
    · simp [habove]
  | .call _ args, keys, o => by
    rw [addKeys, ranges]
    exact addArgKeys_eq_error_iff args keys o

theorem addArgKeys_eq_error_iff :
    (args : List Expr) → (keys : Keys) → (o : OversizedRange) →
      (addArgKeys limit keys args = .error o ↔
        firstAbove limit (argRanges args) = some o.range ∧ limit = o.limit)
  | [], _, _ => by simp [addArgKeys, argRanges, firstAbove]
  | arg :: args, keys, o => by
    have harg := addKeys_eq_error_iff arg keys
    rw [addArgKeys, argRanges, firstAbove, List.find?_append, ← firstAbove, ← firstAbove]
    cases hadd : arg.addKeys limit keys with
    | error o' =>
      -- the range in the argument is left of all others, so it is the one reported
      obtain ⟨hfirst, rfl⟩ := (harg o').mp hadd
      obtain ⟨range', limit'⟩ := o'
      obtain ⟨range, limit''⟩ := o
      rw [hfirst, Option.some_or, Except.error.injEq, OversizedRange.mk.injEq, Option.some.injEq]
    | ok keys' =>
      have hnone : firstAbove limit arg.ranges = none := by
        refine Option.eq_none_iff_forall_ne_some.mpr fun r hr ↦ ?_
        rw [(harg ⟨r, limit⟩).mpr ⟨hr, rfl⟩] at hadd
        cases hadd
      rw [hnone, Option.none_or]
      exact addArgKeys_eq_error_iff args keys' o

end

/-- **Collecting keys fails** at the leftmost range above the limit. -/
theorem formulaKeys_eq_error_iff {f : Option Expr} {o : OversizedRange} :
    formulaKeys limit f = .error o ↔
      ∃ e, f = some e ∧ firstAbove limit e.ranges = some o.range ∧ limit = o.limit := by
  cases f with
  | none => simp [formulaKeys]
  | some e => simp [formulaKeys, keys, addKeys_eq_error_iff]

/-! ## Formulas from text -/

/-- A range of the formula has more cells than the limit allows. -/
def Oversized (limit : UInt64) (f : Option Expr) : Prop :=
  ∃ e, f = some e ∧ ∃ r ∈ e.ranges, limit.toNat < r.height * r.width

theorem firstAbove_eq_some {e : Expr} {r : Range} (hcountable : ∀ r ∈ e.ranges, r.Countable)
    (h : firstAbove limit e.ranges = some r) :
    r ∈ e.ranges ∧ limit.toNat < r.height * r.width := by
  have hmem : r ∈ e.ranges := List.mem_of_find?_eq_some h
  have habove : limit < r.cellCount := by simpa using List.find?_some h
  exact ⟨hmem, (hcountable r hmem).lt_cellCount_iff.mp habove⟩

theorem oversized_parse_iff {text : String} :
    Oversized limit (parse text) ↔ ∃ o, formulaKeys limit (parse text) = .error o := by
  simp only [formulaKeys_eq_error_iff]
  constructor
  · rintro ⟨e, he, r, hr, habove⟩
    have hsome : (firstAbove limit e.ranges).isSome := by
      rw [firstAbove, List.find?_isSome]
      refine ⟨r, hr, ?_⟩
      simpa using (countable_of_parse he r hr).lt_cellCount_iff.mpr habove
    obtain ⟨r', hfirst⟩ := Option.isSome_iff_exists.mp hsome
    exact ⟨⟨r', limit⟩, e, he, hfirst, rfl⟩
  · rintro ⟨o, e, he, hfirst, -⟩
    exact ⟨e, he, o.range, firstAbove_eq_some (countable_of_parse he) hfirst⟩

end Expr

end FormulaSheet
