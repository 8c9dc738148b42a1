import FormulaSheet.Proofs.Dependency.Index

/-!
# Circles

An index is acyclic when no cell depends on itself, in one step or more. Putting new precedents in
place of those of one cell changes no link but those into that cell. On an acyclic index a chain
that starts at the cell never comes back to it, so it is made of links that the change leaves alone,
and `wouldCycle` may be asked while the old precedents of the cell are still there: its answer is
whether there will be a circle, and the circle goes through the cell.
-/

namespace FormulaSheet

open Relation

/-! ## Relations that differ in the steps into one point -/

section

variable {α : Type*} {r r' : α → α → Prop} {c : α}

theorem transGen_of_avoids (hkept : ∀ x y, y ≠ c → r x y → r' x y) {a b : α}
    (havoids : ∀ y, TransGen r a y → y ≠ c) (hab : TransGen r a b) : TransGen r' a b := by
  induction hab with
  | single hab => exact .single (hkept _ _ (havoids _ (.single hab)) hab)
  | tail hax hxb ih => exact ih.tail (hkept _ _ (havoids _ (hax.tail hxb)) hxb)

/-- A chain from `c` is one of kept steps, up to where it comes back to `c`. -/
theorem transGen_or_return (hkept : ∀ x y, y ≠ c → r' x y → r x y) {b : α} (hcb : TransGen r' c b) :
    TransGen r c b ∨ ∃ y, r' y c ∧ (y = c ∨ TransGen r c y) := by
  induction hcb with
  | @single b hcb =>
    by_cases hb : b = c
    · exact Or.inr ⟨c, hb ▸ hcb, Or.inl rfl⟩
    · exact Or.inl (.single (hkept _ _ hb hcb))
  | @tail x b _ hxb ih =>
    rcases ih with hcx | hreturn
    · by_cases hb : b = c
      · exact Or.inr ⟨x, hb ▸ hxb, Or.inr hcx⟩
      · exact Or.inl (hcx.tail (hkept _ _ hb hxb))
    · exact Or.inr hreturn

theorem transGen_or_through (hkept : ∀ x y, y ≠ c → r' x y → r x y) {a b : α}
    (hab : TransGen r' a b) : TransGen r a b ∨ TransGen r' a c ∧ ReflTransGen r' c b := by
  induction hab with
  | @single b hab =>
    by_cases hb : b = c
    · exact Or.inr ⟨hb ▸ .single hab, hb ▸ .refl⟩
    · exact Or.inl (.single (hkept _ _ hb hab))
  | @tail x b hax hxb ih =>
    rcases ih with hax' | ⟨hac, hcx⟩
    · by_cases hb : b = c
      · exact Or.inr ⟨hb ▸ hax.tail hxb, hb ▸ .refl⟩
      · exact Or.inl (hax'.tail (hkept _ _ hb hxb))
    · exact Or.inr ⟨hac, hcx.tail hxb⟩

/-- No circle arises when no step into `c` comes from `c` or from what `c` reaches. -/
theorem acyclic_of_kept (hkept : ∀ x y, y ≠ c → r' x y → r x y) (hr : ∀ a, ¬TransGen r a a)
    (hinto : ∀ y, r' y c → y ≠ c ∧ ¬TransGen r c y) (a : α) : ¬TransGen r' a a := by
  intro haa
  have hcc : TransGen r' c c := by
    rcases transGen_or_through hkept haa with haa' | ⟨hac, hca⟩
    · exact absurd haa' (hr a)
    · exact TransGen.trans_right hca hac
  -- and a circle through `c` has a first way back to `c`, which no step allows
  rcases transGen_or_return hkept hcc with hcc' | ⟨y, hyc, rfl | hcy⟩
  · exact hr c hcc'
  · exact (hinto y hyc).1 rfl
  · exact (hinto y hyc).2 hcy

end

namespace DependencyIndex

variable {index : DependencyIndex} {cell a b : String} {keys : Keys}

/-! ## Acyclic indices -/

/-- No cell depends on itself, directly or through others. -/
def Acyclic (index : DependencyIndex) : Prop := ∀ a, ¬index.dependentLinks.Reaches a a

theorem Acyclic.empty : empty.Acyclic := fun _ ↦ Links.not_reaches_of_none (by
  simp [DependencyIndex.empty])

/-- **What the check answers.** -/
theorem wouldCycle_iff :
    index.wouldCycle cell keys = true ↔
      cell ∈ keys ∨ ∃ a ∈ keys, index.dependentLinks.Reaches cell a := by
  rw [wouldCycle, Bool.or_eq_true, Links.reaches_iff, Std.ExtTreeSet.contains_iff_mem]
  simp only [List.mem_singleton, exists_eq_left]

theorem wouldCycle_empty (index : DependencyIndex) (cell : String) :
    index.wouldCycle cell ∅ = false := by
  rw [Bool.eq_false_iff, ne_eq, wouldCycle_iff]
  rintro (hmem | ⟨a, ha, -⟩)
  · exact Std.ExtTreeSet.not_mem_empty hmem
  · exact Std.ExtTreeSet.not_mem_empty ha

theorem Acyclic.not_wouldCycle_precedents (hacyclic : index.Acyclic) (h : index.Consistent)
    (cell : String) : index.wouldCycle cell (index.precedents cell) = false := by
  have hleads : ∀ a ∈ index.precedents cell, index.dependentLinks.Leads a cell := fun a ha ↦
    (h.mem_dependents_iff a cell).mpr ha
  rw [Bool.eq_false_iff, ne_eq, wouldCycle_iff]
  rintro (hself | ⟨a, ha, hreach⟩)
  · exact hacyclic cell (.single (hleads cell hself))
  · exact hacyclic cell (hreach.tail (hleads a ha))

/-! ## Circles after a change -/

theorem leads_replace (h : index.Consistent) :
    (index.replace cell keys).dependentLinks.Leads a b ↔
      if b = cell then a ∈ keys else index.dependentLinks.Leads a b := by
  rw [show (index.replace cell keys).dependentLinks.Leads a b ↔ _ from
    (h.replace cell keys).mem_dependents_iff a b, precedents_replace]
  split
  · rfl
  · exact (h.mem_dependents_iff a b).symm

theorem Acyclic.replace (hacyclic : index.Acyclic) (h : index.Consistent)
    (hcheck : index.wouldCycle cell keys = false) : (index.replace cell keys).Acyclic := by
  rw [Bool.eq_false_iff, ne_eq, wouldCycle_iff, not_or] at hcheck
  refine acyclic_of_kept (c := cell) (fun x y hy hxy ↦ ?_) hacyclic fun y hy ↦ ?_
  · rwa [leads_replace h, if_neg hy] at hxy
  · rw [leads_replace h, if_pos rfl] at hy
    refine ⟨?_, fun hreach ↦ hcheck.2 ⟨y, hy, hreach⟩⟩
    rintro rfl
    exact hcheck.1 hy

theorem Acyclic.circle_of_wouldCycle (hacyclic : index.Acyclic) (h : index.Consistent)
    (hcheck : index.wouldCycle cell keys = true) :
    (index.replace cell keys).dependentLinks.Reaches cell cell := by
  have hlast : ∀ a ∈ keys, (index.replace cell keys).dependentLinks.Leads a cell := by
    intro a ha
    rwa [leads_replace h, if_pos rfl]
  rcases wouldCycle_iff.mp hcheck with hself | ⟨a, ha, hreach⟩
  · exact .single (hlast cell hself)
  · refine TransGen.tail ?_ (hlast a ha)
    -- the old chain does not come back to the cell, so none of its links is taken away
    refine transGen_of_avoids (c := cell) (fun x y hy hxy ↦ ?_) ?_ hreach
    · rwa [leads_replace h, if_neg hy]
    · rintro y hy rfl
      exact hacyclic y hy

end DependencyIndex

end FormulaSheet
