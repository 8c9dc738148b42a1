import FormulaSheet.Proofs.Dependency.Probe
import Mathlib.Data.List.Induction

/-!
# Indices after any changes

An index is built by changes, and each of them is about one cell: new precedents take the place of
those that it had, or they are forgotten. The index stands for a plain map from cells to sets of
cells, that in which the last change of each cell is filed. `precedents` reads the map and
`dependents` reads it backwards, and nothing else is kept.

Nothing is assumed of the changes. A cell may be among its own precedents, and the links may run in
circles; only the prediction of circles needs an index without them to begin with.
-/

namespace FormulaSheet

open Relation

namespace DependencyIndex

/-! ## Changes -/

/-- A change of an index. -/
inductive Change where
  /-- Puts a set of cells in place of those that a cell reads. -/
  | replace (cell : String) (keys : Keys)
  /-- Forgets what a cell reads. -/
  | clear (cell : String)

namespace Change

/-- The cell that is given other precedents. -/
def cell : Change → String
  | replace cell _ => cell
  | clear cell => cell

/-- The precedents that it is given. -/
def keys : Change → Keys
  | replace _ keys => keys
  | clear _ => ∅

end Change

/-- The index after a change. -/
def change (index : DependencyIndex) : Change → DependencyIndex
  | .replace cell keys => index.replace cell keys
  | .clear cell => index.clear cell

/-- The index after a list of changes, the first of the list made first. -/
def ofChanges (changes : List Change) : DependencyIndex := changes.foldl change empty

/-- What the last change of a cell has given it; a cell that was never changed has nothing. -/
def lastKeys (changes : List Change) (cell : String) : Keys :=
  match (changes.filter (·.cell == cell)).getLast? with
  | some change => change.keys
  | none => ∅

variable {index : DependencyIndex} {changes : List Change} {a b : String}

theorem ofChanges_concat (changes : List Change) (c : Change) :
    ofChanges (changes ++ [c]) = (ofChanges changes).change c :=
  List.foldl_concat _ _ _ _

theorem lastKeys_concat (changes : List Change) (c : Change) (cell : String) :
    lastKeys (changes ++ [c]) cell = if cell = c.cell then c.keys else lastKeys changes cell := by
  rw [lastKeys, List.filter_append]
  by_cases hcell : cell = c.cell
  · subst hcell
    simp
  · simp [lastKeys, hcell, Ne.symm hcell]

/-! ## The plain map -/

theorem precedents_change (index : DependencyIndex) (c : Change) (a : String) :
    (index.change c).precedents a = if a = c.cell then c.keys else index.precedents a := by
  cases c with
  | replace cell keys => exact precedents_replace index cell a keys
  | clear cell => exact precedents_clear index cell a

theorem Consistent.change (h : index.Consistent) (c : Change) : (index.change c).Consistent := by
  cases c with
  | replace cell keys => exact h.replace cell keys
  | clear cell => exact h.clear cell

theorem consistent_ofChanges (changes : List Change) : (ofChanges changes).Consistent := by
  induction changes using List.reverseRecOn with
  | nil => exact .empty
  | append_singleton changes c ih =>
    rw [ofChanges_concat]
    exact ih.change c

theorem precedents_ofChanges (changes : List Change) (a : String) :
    (ofChanges changes).precedents a = lastKeys changes a := by
  induction changes using List.reverseRecOn with
  | nil => exact Links.next_of_none Std.ExtTreeMap.getElem?_empty
  | append_singleton changes c ih => rw [ofChanges_concat, precedents_change, lastKeys_concat, ih]

/-- **The index stands for a plain map.** After any changes the precedents of a cell are those that
its last change has given it, its dependents are the cells that have it among their precedents, and
neither half of the index has an empty entry. -/
theorem ofChanges_eq_lastKeys (changes : List Change) :
    let index := ofChanges changes
    (∀ a, index.precedents a = lastKeys changes a) ∧
    (∀ a b, b ∈ index.dependents a ↔ a ∈ index.precedents b) ∧
    (∀ (a : String) (keys : Keys), index.precedentLinks[a]? = some keys → keys ≠ ∅) ∧
    (∀ (a : String) (keys : Keys), index.dependentLinks[a]? = some keys → keys ≠ ∅) := by
  intro index
  have h : index.Consistent := consistent_ofChanges changes
  exact ⟨precedents_ofChanges changes, h.mem_dependents_iff, h.tight_precedents,
    h.tight_dependents⟩

theorem leads_ofChanges :
    (ofChanges changes).dependentLinks.Leads a b ↔ a ∈ lastKeys changes b := by
  rw [← precedents_ofChanges]
  exact (consistent_ofChanges changes).mem_dependents_iff a b

/-! ## The prediction of circles -/

theorem Acyclic.wouldCycle_iff_circle (hacyclic : index.Acyclic) (h : index.Consistent)
    (cell : String) (candidates : Keys) :
    index.wouldCycle cell candidates = true ↔
      ∃ a, (index.replace cell candidates).dependentLinks.Reaches a a := by
  constructor
  · intro hcheck
    exact ⟨cell, hacyclic.circle_of_wouldCycle h hcheck⟩
  · rintro ⟨a, ha⟩
    by_contra hcheck
    rw [Bool.not_eq_true] at hcheck
    exact hacyclic.replace h hcheck a ha

/-- **The check is exact.** After any changes, and in whatever order the loop goes through the
dependents of the cells, it ends with the answer of `wouldCycle`. This is yes when and only when a
candidate is the cell or depends on it, directly or through others. On an index without circles it
is the prediction that the replacement will close one, although the precedents that it takes away
are still there. -/
theorem wouldCycle_ofChanges_iff (changes : List Change)
    (iterate : String → List String → List String)
    (hiterate : ∀ a keys, (iterate a keys).Perm keys) (cell : String) (candidates : Keys) :
    let index := ofChanges changes
    let replaced := index.replace cell candidates
    (Links.Probe.start candidates cell).Runs iterate candidates index.dependentLinks
      (.answered (index.wouldCycle cell candidates)) ∧
    (index.wouldCycle cell candidates = true ↔
      cell ∈ candidates ∨ ∃ a ∈ candidates, TransGen (fun b c ↦ c ∈ index.dependents b) cell a) ∧
    ((∀ a, ¬TransGen (fun b c ↦ c ∈ index.dependents b) a a) →
      (index.wouldCycle cell candidates = true ↔
        ∃ a, TransGen (fun b c ↦ c ∈ replaced.dependents b) a a)) := by
  intro index replaced
  have h : index.Consistent := consistent_ofChanges changes
  exact ⟨runs_start index iterate hiterate cell candidates, wouldCycle_iff,
    fun hacyclic ↦ Acyclic.wouldCycle_iff_circle hacyclic h cell candidates⟩

/-! ## An example -/

/-- `B1` and `C1` read `A1`, and `D1` reads both. -/
def diamond : List Change :=
  [.replace "B1" {"A1"}, .replace "C1" {"A1"}, .replace "D1" {"B1", "C1"}]

theorem mem_lastKeys_diamond :
    a ∈ lastKeys diamond b ↔
      (b = "B1" ∨ b = "C1") ∧ a = "A1" ∨ b = "D1" ∧ (a = "B1" ∨ a = "C1") := by
  change a ∈ lastKeys ([] ++ [.replace "B1" {"A1"}] ++ [.replace "C1" {"A1"}] ++
    [.replace "D1" {"B1", "C1"}]) b ↔ _
  simp only [lastKeys_concat, Change.cell, Change.keys]
  split_ifs with hd hc hb
  · simp [hd, @eq_comm _ a]
  · simp [hc, @eq_comm _ a]
  · simp [hb, @eq_comm _ a]
  · simp [hb, hc, hd, lastKeys]

theorem acyclic_diamond (a : String) : ¬(ofChanges diamond).dependentLinks.Reaches a a := by
  have hstep : ∀ b c, (ofChanges diamond).dependentLinks.Leads b c → b < c := by
    intro b c h
    rw [leads_ofChanges, mem_lastKeys_diamond] at h
    rcases h with ⟨rfl | rfl, rfl⟩ | ⟨rfl, rfl | rfl⟩ <;> decide
  have hchain : ∀ b, (ofChanges diamond).dependentLinks.Reaches a b → a < b := by
    intro b h
    induction h with
    | single hab => exact hstep _ _ hab
    | tail _ hbc ih => exact String.lt_trans ih (hstep _ _ hbc)
  exact fun h ↦ String.lt_irrefl a (hchain a h)

/-- If `B1` read `D1` instead of `A1`, there would be a circle, and the check says so, also when it
goes through the dependents of each cell by decreasing key. -/
theorem wouldCycle_diamond :
    (∀ keys : List String, keys.reverse.Perm keys) ∧
      (∀ a, ¬TransGen (fun b c ↦ c ∈ (ofChanges diamond).dependents b) a a) ∧
      (Links.Probe.start {"D1"} "B1").Runs (fun _ keys ↦ keys.reverse) {"D1"}
        (ofChanges diamond).dependentLinks (.answered true) ∧
      ∃ a, TransGen (fun b c ↦ c ∈ ((ofChanges diamond).replace "B1" {"D1"}).dependents b) a a := by
  obtain ⟨hruns, hanswer, hpredicts⟩ := wouldCycle_ofChanges_iff diamond
    (fun _ keys ↦ keys.reverse) (fun _ keys ↦ keys.reverse_perm) "B1" {"D1"}
  have hcheck : (ofChanges diamond).wouldCycle "B1" {"D1"} = true := by
    refine hanswer.mpr (Or.inr ⟨"D1", Keys.mem_singleton.mpr rfl, .single ?_⟩)
    exact leads_ofChanges.mpr (mem_lastKeys_diamond.mpr (Or.inr ⟨rfl, Or.inl rfl⟩))
  rw [hcheck] at hruns
  exact ⟨List.reverse_perm, acyclic_diamond, hruns, (hpredicts acyclic_diamond).mp hcheck⟩

end DependencyIndex

end FormulaSheet
