import FormulaSheet.Proofs.Dependency.Changes
import FormulaSheet.Proofs.Dependency.Stack

/-!
# The order of recalculation

What is recalculated after a cell, and in which order, for any index that changes can build and any
order in which the dependents of the cells are gone through. The list is complete and repeats
nothing, even where the links run in circles. Among cells that form no circle each stands behind
its precedents.

Only circles among the cells that take part matter: whatever a cell of the list leads to is in the
list or is the start, so a circle through such a cell never leaves them.
-/

namespace FormulaSheet

open Relation

namespace Links

variable {full : Links} {l : List String} {a b start : String}
  {arrange : String → List String → List String}

theorem nodup_order (full : Links) (start : String)
    (harrange : ∀ a keys, (arrange a keys).Perm keys) : (full.order arrange start).Nodup := by
  obtain ⟨done, opened, horder, hnodup, -, -⟩ := exists_finished full start harrange
  rw [horder]
  exact hnodup.filter _

/-! ## Places in a cascade -/

theorem Cascade.mem (h : Cascade full l) (ha : a ∈ l) (hab : full.Leads a b) : b ∈ l := by
  induction l with
  | nil => exact absurd ha List.not_mem_nil
  | cons c l ih =>
    rcases List.mem_cons.mp ha with rfl | ha
    · exact List.mem_cons_of_mem _ (h.1 b hab)
    · exact List.mem_cons_of_mem _ (ih h.2 ha)

theorem Cascade.idxOf_lt (h : Cascade full l) (hnodup : l.Nodup) (ha : a ∈ l)
    (hab : full.Leads a b) : l.idxOf a < l.idxOf b := by
  induction l with
  | nil => exact absurd ha List.not_mem_nil
  | cons c l ih =>
    obtain ⟨hc, hl⟩ := List.nodup_cons.mp hnodup
    rcases List.mem_cons.mp ha with rfl | ha
    · have hne : a ≠ b := fun heq ↦ hc (heq ▸ h.1 b hab)
      rw [List.idxOf_cons_self, List.idxOf_cons_ne _ hne]
      exact Nat.succ_pos _
    · have hca : c ≠ a := fun heq ↦ hc (heq ▸ ha)
      have hcb : c ≠ b := fun heq ↦ hc (heq ▸ h.2.mem ha hab)
      rw [List.idxOf_cons_ne _ hca, List.idxOf_cons_ne _ hcb]
      exact Nat.succ_lt_succ (ih h.2 hl ha)

/-! ## Circles that matter -/

theorem reaches_among {among : String → Prop} (hclosed : ∀ a b, among a → full.Leads a b → among b)
    (ha : among a) (hab : full.Reaches a b) :
    TransGen (fun c d ↦ among c ∧ among d ∧ full.Leads c d) a b ∧ among b := by
  induction hab with
  | single hab =>
    have hb := hclosed _ _ ha hab
    exact ⟨.single ⟨ha, hb, hab⟩, hb⟩
  | tail _ hbc ih =>
    obtain ⟨hab, hb⟩ := ih
    have hc := hclosed _ _ hb hbc
    exact ⟨hab.tail ⟨hb, hc, hbc⟩, hc⟩

end Links

namespace DependencyIndex

/-- **The order of recalculation.** After any changes, and in whatever order the loop goes through
the dependents of the cells, it comes to an end, and what it lists is what `recalcOrderBy` lists.
These are the cells that depend on the given one, directly or through others, without itself, and
each of them once. If no circle runs among the given cell and the listed ones, every listed cell
stands behind all of its precedents that are listed. -/
theorem recalcOrderBy_ofChanges (changes : List Change)
    (iterate : String → List String → List String)
    (hiterate : ∀ a keys, (iterate a keys).Perm keys) (cell : String) :
    let index := ofChanges changes
    let order := index.recalcOrderBy (fun a keys ↦ (iterate a keys).reverse) cell
    (∃ last, (Links.Moment.start cell).Runs iterate index.dependentLinks last ∧ last.stack = [] ∧
      last.result.reverse.filter (· != cell) = order) ∧
    order.Nodup ∧
    (∀ a, a ∈ order ↔ a ≠ cell ∧ TransGen (fun b c ↦ c ∈ index.dependents b) cell a) ∧
    ((∀ a, ¬TransGen (fun b c ↦ (b = cell ∨ b ∈ order) ∧ (c = cell ∨ c ∈ order) ∧
        c ∈ index.dependents b) a a) →
      ∀ a ∈ order, ∀ b ∈ order, a ∈ index.precedents b → order.idxOf a < order.idxOf b) := by
  intro index order
  have harrange : ∀ a keys, ((iterate a keys).reverse).Perm keys := fun a keys ↦
    (List.reverse_perm _).trans (hiterate a keys)
  have hmem : ∀ a, a ∈ order ↔ a ≠ cell ∧ index.dependentLinks.Reaches cell a :=
    Links.mem_order_iff index.dependentLinks cell harrange
  have hnodup : order.Nodup := Links.nodup_order index.dependentLinks cell harrange
  refine ⟨Links.exists_last_start index.dependentLinks cell hiterate, hnodup, hmem,
    fun hfree a ha b hb hab ↦ ?_⟩
  -- the cells that take part are closed under the links
  have hamong : ∀ c, c = cell ∨ c ∈ order ↔ c = cell ∨ index.dependentLinks.Reaches cell c := by
    intro c
    rw [hmem]
    by_cases hc : c = cell <;> simp [hc]
  have hclosed : ∀ c d, c = cell ∨ c ∈ order → index.dependentLinks.Leads c d →
      d = cell ∨ d ∈ order := by
    intro c d hc hcd
    rw [hamong] at hc ⊢
    rcases hc with rfl | hc
    · exact Or.inr (.single hcd)
    · exact Or.inr (hc.tail hcd)
  have hcascade : Links.Cascade index.dependentLinks (cell :: order) :=
    Links.cascade_order index.dependentLinks cell harrange fun c hc hcc ↦
      hfree c (Links.reaches_among hclosed ((hamong c).mpr hc) hcc).1
  have hlead : index.dependentLinks.Leads a b :=
    ((consistent_ofChanges changes).mem_dependents_iff a b).mpr hab
  exact hcascade.2.idxOf_lt hnodup ha hlead

/-- In the diamond the cell at the end stands behind both cells that it reads, when the loop goes
through the dependents of each cell by decreasing key. -/
theorem recalcOrderBy_diamond :
    let order := (ofChanges diamond).recalcOrderBy (fun _ keys ↦ keys.reverse.reverse) "A1"
    (∀ keys : List String, keys.reverse.Perm keys) ∧
      (∀ a, ¬TransGen (fun b c ↦ (b = "A1" ∨ b ∈ order) ∧ (c = "A1" ∨ c ∈ order) ∧
        c ∈ (ofChanges diamond).dependents b) a a) ∧
      order.idxOf "B1" < order.idxOf "D1" ∧ order.idxOf "C1" < order.idxOf "D1" := by
  intro order
  obtain ⟨-, -, hmem, hbehind⟩ := recalcOrderBy_ofChanges diamond
    (fun _ keys ↦ keys.reverse) (fun _ keys ↦ keys.reverse_perm) "A1"
  have hfree : ∀ a, ¬TransGen (fun b c ↦ (b = "A1" ∨ b ∈ order) ∧ (c = "A1" ∨ c ∈ order) ∧
      c ∈ (ofChanges diamond).dependents b) a a := fun a haa ↦
    acyclic_diamond a (TransGen.mono (fun _ _ h ↦ h.2.2) _ _ haa)
  have hreads : ∀ a b, (b = "B1" ∨ b = "C1") ∧ a = "A1" ∨ b = "D1" ∧ (a = "B1" ∨ a = "C1") →
      b ∈ (ofChanges diamond).dependents a := fun a b h ↦
    leads_ofChanges.mpr (mem_lastKeys_diamond.mpr h)
  have hb : "B1" ∈ order := (hmem "B1").mpr ⟨by decide, .single (hreads _ _ (by decide))⟩
  have hc : "C1" ∈ order := (hmem "C1").mpr ⟨by decide, .single (hreads _ _ (by decide))⟩
  have hd : "D1" ∈ order := (hmem "D1").mpr
    ⟨by decide, .head (hreads _ "B1" (by decide)) (.single (hreads _ _ (by decide)))⟩
  have hprecedent : ∀ a, a = "B1" ∨ a = "C1" → a ∈ (ofChanges diamond).precedents "D1" := by
    intro a h
    rw [precedents_ofChanges]
    exact mem_lastKeys_diamond.mpr (Or.inr ⟨rfl, h⟩)
  exact ⟨List.reverse_perm, hfree,
    hbehind hfree "B1" hb "D1" hd (hprecedent "B1" (Or.inl rfl)),
    hbehind hfree "C1" hc "D1" hd (hprecedent "C1" (Or.inr rfl))⟩

end DependencyIndex

end FormulaSheet
