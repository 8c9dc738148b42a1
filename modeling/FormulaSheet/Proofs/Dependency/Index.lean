import FormulaSheet.Dependency.Index
import FormulaSheet.Proofs.Dependency.Order

/-!
# The two halves of the index

An index is consistent when its two maps are each other's inverse and hold no empty entry. Both ways
of changing an index keep it so, whether or not the links run in circles, and then the precedents
determine it: `Consistent.ext`.
-/

namespace FormulaSheet

namespace Links

/-- No entry is empty. -/
def Tight (links : Links) : Prop := ∀ (a : String) (keys : Keys), links[a]? = some keys → keys ≠ ∅

theorem Tight.ext {links links' : Links} (h : links.Tight) (h' : links'.Tight)
    (hnext : ∀ a, links.next a = links'.next a) : links = links' := by
  refine Std.ExtTreeMap.ext_getElem? fun a ↦ ?_
  have ha := hnext a
  cases hl : links[a]? with
  | none =>
    cases hl' : links'[a]? with
    | none => rfl
    | some keys' =>
      rw [next_of_none hl, next_of_getElem? hl'] at ha
      exact absurd ha.symm (h' a keys' hl')
  | some keys =>
    cases hl' : links'[a]? with
    | none =>
      rw [next_of_getElem? hl, next_of_none hl'] at ha
      exact absurd ha (h a keys hl)
    | some keys' => rw [← next_of_getElem? hl, ← next_of_getElem? hl', ha]

/-! ## Changing the entries of a set of cells -/

private theorem getElem?_foldl_alter (f : Option Keys → Option Keys) (a : String) :
    ∀ {cells : List String} {links : Links}, cells.Nodup →
      (cells.foldl (fun links key ↦ links.alter key f) links)[a]?
        = if a ∈ cells then f links[a]? else links[a]? := by
  intro cells
  induction cells with
  | nil => intro links _; rw [List.foldl_nil, if_neg List.not_mem_nil]
  | cons cell cells ih =>
    intro links h
    rw [List.nodup_cons] at h
    rw [List.foldl_cons, ih h.2, Std.ExtTreeMap.getElem?_alter]
    by_cases ha : cell = a
    · subst ha
      simp [h.1]
    · simp [ha, Ne.symm ha]

private theorem nodup_toList (keys : Keys) : keys.toList.Nodup :=
  Std.ExtTreeSet.distinct_toList.imp fun h hab ↦ h (Std.compare_eq_iff_eq.mpr hab)

theorem getElem?_foldl_alter_keys (f : Option Keys → Option Keys) (keys : Keys) (links : Links)
    (a : String) :
    (keys.foldl (fun links key ↦ links.alter key f) links)[a]?
      = if a ∈ keys then f links[a]? else links[a]? := by
  rw [Std.ExtTreeSet.foldl_eq_foldl_toList, getElem?_foldl_alter f a (nodup_toList keys)]
  simp only [Std.ExtTreeSet.mem_toList]

end Links

namespace DependencyIndex

variable {index index' : DependencyIndex} {cell a b : String} {keys : Keys}

/-! ## The precedents after a change -/

theorem precedents_clear (index : DependencyIndex) (cell a : String) :
    (index.clear cell).precedents a = if a = cell then ∅ else index.precedents a := by
  rw [clear]
  split
  next hnone =>
    by_cases ha : a = cell
    · rw [if_pos ha, ha, precedents, Links.next_of_none hnone]
    · rw [if_neg ha]
  next hsome =>
    rw [precedents, Links.next_eq_getD, getElem?_erase_key]
    by_cases ha : a = cell
    · rw [if_pos ha, if_pos ha, Option.getD_none]
    · rw [if_neg ha, if_neg ha, ← Links.next_eq_getD, precedents]

theorem precedents_replace (index : DependencyIndex) (cell a : String) (keys : Keys) :
    (index.replace cell keys).precedents a = if a = cell then keys else index.precedents a := by
  have hclear := precedents_clear index cell a
  by_cases hkeys : keys = ∅
  · rw [hkeys, ← hclear]
    rfl
  · have hempty : keys.isEmpty = false := Std.ExtTreeSet.isEmpty_eq_false_iff.mpr hkeys
    rw [precedents, replace, hempty, if_neg Bool.false_ne_true, Links.next_eq_getD,
      getElem?_insert_key]
    by_cases ha : a = cell
    · rw [if_pos ha, if_pos ha, Option.getD_some]
    · rw [if_neg ha] at hclear ⊢
      rw [if_neg ha, ← Links.next_eq_getD, ← hclear, precedents]

theorem replace_empty (index : DependencyIndex) (cell : String) :
    index.replace cell ∅ = index.clear cell := rfl

/-! ## Consistency -/

/-- The two maps are each other's inverse, and none holds an empty entry. -/
structure Consistent (index : DependencyIndex) : Prop where
  /-- A cell depends on another when that one is among its precedents. -/
  mem_dependents_iff : ∀ a b, b ∈ index.dependents a ↔ a ∈ index.precedents b
  /-- No cell has an empty set of precedents on file. -/
  tight_precedents : index.precedentLinks.Tight
  /-- No cell has an empty set of dependents on file. -/
  tight_dependents : index.dependentLinks.Tight

theorem Consistent.empty : empty.Consistent where
  mem_dependents_iff a b := by simp [DependencyIndex.empty, dependents, precedents, Links.next]
  tight_precedents a keys h := by simp [DependencyIndex.empty] at h
  tight_dependents a keys h := by simp [DependencyIndex.empty] at h

private theorem mem_unlink (entry : Option Keys) :
    b ∈ (unlink cell entry).getD ∅ ↔ b ≠ cell ∧ b ∈ entry.getD ∅ := by
  cases entry with
  | none => simp [unlink]
  | some keys =>
    rw [Option.getD_some, ← Keys.mem_erase, unlink]
    by_cases hempty : (keys.erase cell).isEmpty = true
    · rw [if_pos hempty, Std.ExtTreeSet.isEmpty_iff.mp hempty, Option.getD_none]
    · rw [if_neg hempty, Option.getD_some]

private theorem ne_empty_of_unlink {entry : Option Keys} (h : unlink cell entry = some keys) :
    keys ≠ ∅ := by
  cases entry with
  | none => cases h
  | some old =>
    rw [unlink] at h
    by_cases hempty : (old.erase cell).isEmpty = true
    · rw [if_pos hempty] at h
      cases h
    · rw [if_neg hempty] at h
      exact Option.some.inj h ▸ mt Std.ExtTreeSet.isEmpty_iff.mpr hempty

private theorem mem_link (entry : Option Keys) :
    b ∈ (link cell entry).getD ∅ ↔ b = cell ∨ b ∈ entry.getD ∅ := by
  rw [link, Option.getD_some, Keys.mem_insert]

theorem Consistent.clear (h : index.Consistent) (cell : String) :
    (index.clear cell).Consistent := by
  have hprec := precedents_clear index cell
  rw [DependencyIndex.clear] at hprec ⊢
  split
  next => exact h
  next keys hsome =>
    rw [hsome] at hprec
    have hkeys : index.precedents cell = keys := Links.next_of_getElem? hsome
    constructor
    · intro a b
      rw [hprec, dependents, Links.next_eq_getD, Links.getElem?_foldl_alter_keys]
      have hold := h.mem_dependents_iff a b
      rw [dependents, Links.next_eq_getD] at hold
      -- only cells that `cell` read lose a dependent, and the one they lose is `cell`
      by_cases ha : a ∈ keys
      · rw [if_pos ha, mem_unlink, hold]
        by_cases hb : b = cell
        · simp [hb]
        · simp [hb]
      · rw [if_neg ha, hold]
        by_cases hb : b = cell
        · rw [if_pos hb, hb, hkeys]
          exact ⟨fun hmem ↦ absurd hmem ha, fun hmem ↦ absurd hmem Std.ExtTreeSet.not_mem_empty⟩
        · rw [if_neg hb]
    · intro a others ha
      rw [Std.ExtTreeMap.getElem?_erase] at ha
      split at ha
      · cases ha
      · exact h.tight_precedents a others ha
    · intro a others ha
      rw [Links.getElem?_foldl_alter_keys] at ha
      split at ha
      · exact ne_empty_of_unlink ha
      · exact h.tight_dependents a others ha

theorem Consistent.replace (h : index.Consistent) (cell : String) (keys : Keys) :
    (index.replace cell keys).Consistent := by
  have hclear := h.clear cell
  have hprec := precedents_replace index cell
  constructor
  · intro a b
    rw [hprec, dependents, DependencyIndex.replace, Links.next_eq_getD,
      Links.getElem?_foldl_alter_keys]
    have hold := hclear.mem_dependents_iff a b
    rw [dependents, Links.next_eq_getD, precedents_clear] at hold
    -- after the clearing `cell` reads nothing, and the new precedents are all that it is given
    by_cases ha : a ∈ keys
    · rw [if_pos ha, mem_link, hold]
      by_cases hb : b = cell
      · simp [hb, ha]
      · simp [hb]
    · rw [if_neg ha, hold]
      by_cases hb : b = cell
      · simp [hb, ha]
      · simp [hb]
  · intro a others ha
    rw [DependencyIndex.replace] at ha
    split at ha
    · exact hclear.tight_precedents a others ha
    · next hempty =>
      rw [Std.ExtTreeMap.getElem?_insert] at ha
      split at ha
      · exact Option.some.inj ha ▸ mt Std.ExtTreeSet.isEmpty_iff.mpr hempty
      · exact hclear.tight_precedents a others ha
  · intro a others ha
    rw [DependencyIndex.replace, Links.getElem?_foldl_alter_keys] at ha
    split at ha
    · rw [← Option.some.inj ha]
      exact Std.ExtTreeSet.ne_empty_of_mem (Keys.mem_insert.mpr (Or.inl rfl))
    · exact hclear.tight_dependents a others ha

/-- **The precedents determine a consistent index.** -/
theorem Consistent.ext (h : index.Consistent) (h' : index'.Consistent)
    (hprec : ∀ a, index.precedents a = index'.precedents a) : index = index' := by
  have hdep : ∀ a, index.dependents a = index'.dependents a := by
    intro a
    refine Std.ExtTreeSet.ext_mem fun b ↦ ?_
    rw [h.mem_dependents_iff, h'.mem_dependents_iff, hprec]
  obtain ⟨precedentLinks, dependentLinks⟩ := index
  obtain ⟨precedentLinks', dependentLinks'⟩ := index'
  rw [mk.injEq]
  exact ⟨h.tight_precedents.ext h'.tight_precedents hprec,
    h.tight_dependents.ext h'.tight_dependents hdep⟩

theorem Consistent.replace_precedents (h : index.Consistent) (cell : String) :
    index.replace cell (index.precedents cell) = index := by
  refine (h.replace cell _).ext h fun a ↦ ?_
  rw [precedents_replace]
  split
  next ha => rw [ha]
  next => rfl

end DependencyIndex

end FormulaSheet
