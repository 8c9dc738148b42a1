import FormulaSheet.Proofs.Dependency.Circle
import Mathlib.Data.Finset.Card

/-!
# The check with a stack

`reaches` uses up the entry of each cell that it opens. The usual way to write the same search is a
loop that leaves the links alone: it keeps the set of the cells that it has met and a stack of those
that are still to be opened, and it stops at the first target. Here the loop is a step on `Probe`s,
and it is shown to come to the answer of `wouldCycle`, in whatever order it looks at the cells that
a cell leads to.

## Why the loop ends

A cell is put on the stack when it is met for the first time, and never again. So no cell is opened
twice but the one that the search starts from: it is on the stack without having been met, and if a
circle leads back to it, it is met there and opened once more. The cells on the stack and those that
are still to be met, taken together, stay as many when a cell is met and get fewer when one is
opened; in between, the loop looks at one cell after the other.
-/

namespace FormulaSheet

open Relation

namespace Links

/-! ## The loop -/

/-- Where the loop is. -/
inductive Probe where
  /-- It looks at `others`, which are what is left of the cells that the cell opened last leads to.
  The cells on the `stack` are to be opened, from the top down, and those in `visited` have been
  met. -/
  | searching (others stack : List String) (visited : Keys)
  /-- It has ended. -/
  | answered (answer : Bool)

namespace Probe

/-- Before the first step. If the cell is a target itself, there is nothing to be searched. -/
def start (targets : Keys) (cell : String) : Probe :=
  if targets.contains cell then answered true else searching [] [cell] ∅

/-- Looks at a cell, or opens one if there is none to look at. The cells that a cell leads to are
gone through in the order that `iterate` gives them. -/
def step (iterate : String → List String → List String) (targets : Keys) (links : Links) :
    Probe → Option Probe
  | answered _ => none
  | searching [] [] _ => some (answered false)
  | searching [] (cell :: stack) visited =>
    some (searching (iterate cell (links.next cell).toList) stack visited)
  | searching (other :: others) stack visited =>
    if targets.contains other then some (answered true)
    else if visited.contains other then some (searching others stack visited)
    else some (searching others (other :: stack) (visited.insert other))

/-- The loop comes from the first place to the second. -/
def Runs (iterate : String → List String → List String) (targets : Keys) (links : Links) :
    Probe → Probe → Prop :=
  ReflTransGen fun p p' ↦ p.step iterate targets links = some p'

end Probe

variable {iterate : String → List String → List String} {links : Links} {targets visited : Keys}
  {source cell other : String} {others stack : List String} {answer : Bool}

/-! ## The invariant -/

/-- What holds while the loop searches. -/
structure Sound (links : Links) (targets : Keys) (source : String) (others stack : List String)
    (visited : Keys) : Prop where
  /-- What it looks at can be reached. -/
  looked : ∀ a ∈ others, links.Reaches source a
  /-- What it is to open is the start or can be reached. -/
  stacked : ∀ a ∈ stack, a = source ∨ links.Reaches source a
  /-- No cell that it has met is a target. -/
  missed : ∀ a ∈ visited, a ∉ targets
  /-- The start and the cells that it has met are to be opened, or all that they lead to has been
  met or is still to be looked at. -/
  opened : ∀ a, a = source ∨ a ∈ visited →
    a ∈ stack ∨ ∀ b, links.Leads a b → b ∈ others ∨ b ∈ visited

theorem Sound.start (links : Links) (targets : Keys) (source : String) :
    Sound links targets source [] [source] ∅ where
  looked := fun _ ha ↦ absurd ha List.not_mem_nil
  stacked := fun _ ha ↦ Or.inl (List.mem_singleton.mp ha)
  missed := fun _ ha ↦ absurd ha Std.ExtTreeSet.not_mem_empty
  opened := fun _ ha ↦ Or.inl <| List.mem_singleton.mpr <|
    ha.resolve_right Std.ExtTreeSet.not_mem_empty

theorem Sound.open (h : Sound links targets source [] (cell :: stack) visited)
    (hiterate : ∀ a keys, (iterate a keys).Perm keys) :
    Sound links targets source (iterate cell (links.next cell).toList) stack visited := by
  have hmem : ∀ a, a ∈ iterate cell (links.next cell).toList ↔ links.Leads cell a := by
    intro a
    rw [(hiterate cell _).mem_iff, Std.ExtTreeSet.mem_toList, Leads]
  refine ⟨fun a ha ↦ ?_, fun a ha ↦ h.stacked a (List.mem_cons_of_mem _ ha), h.missed,
    fun a ha ↦ ?_⟩
  · rw [hmem] at ha
    rcases h.stacked cell List.mem_cons_self with rfl | hcell
    · exact .single ha
    · exact hcell.tail ha
  · rcases h.opened a ha with hstack | hleads
    · rcases List.mem_cons.mp hstack with rfl | hstack
      · exact Or.inr fun b hb ↦ Or.inl ((hmem b).mpr hb)
      · exact Or.inl hstack
    · exact Or.inr fun b hb ↦ Or.inr ((hleads b hb).resolve_left List.not_mem_nil)

theorem Sound.pass (h : Sound links targets source (other :: others) stack visited)
    (hother : other ∈ visited) : Sound links targets source others stack visited := by
  refine ⟨fun a ha ↦ h.looked a (List.mem_cons_of_mem _ ha), h.stacked, h.missed, fun a ha ↦ ?_⟩
  refine (h.opened a ha).imp_right fun hleads b hb ↦ ?_
  rcases hleads b hb with hb | hb
  · rcases List.mem_cons.mp hb with rfl | hb
    · exact Or.inr hother
    · exact Or.inl hb
  · exact Or.inr hb

theorem Sound.meet (h : Sound links targets source (other :: others) stack visited)
    (hother : other ∉ targets) :
    Sound links targets source others (other :: stack) (visited.insert other) := by
  refine ⟨fun a ha ↦ h.looked a (List.mem_cons_of_mem _ ha), fun a ha ↦ ?_, fun a ha ↦ ?_,
    fun a ha ↦ ?_⟩
  · rcases List.mem_cons.mp ha with rfl | ha
    · exact Or.inr (h.looked a List.mem_cons_self)
    · exact h.stacked a ha
  · rcases Keys.mem_insert.mp ha with rfl | ha
    · exact hother
    · exact h.missed a ha
  · rw [Keys.mem_insert, or_left_comm] at ha
    rcases ha with rfl | ha
    · exact Or.inl List.mem_cons_self
    · refine (h.opened a ha).imp (List.mem_cons_of_mem _) fun hleads b hb ↦ ?_
      rw [Keys.mem_insert, ← or_assoc, or_comm (a := b ∈ others), ← List.mem_cons]
      exact hleads b hb

/-- Nothing is left to look at or to open. -/
theorem Sound.not_reaches (h : Sound links targets source [] [] visited) :
    ¬∃ b ∈ targets, links.Reaches source b := by
  have hleads : ∀ a b, a = source ∨ a ∈ visited → links.Leads a b → b ∈ visited := by
    intro a b ha hab
    have hopened := (h.opened a ha).resolve_left List.not_mem_nil
    exact (hopened b hab).resolve_left List.not_mem_nil
  have hvisited : ∀ b, links.Reaches source b → b ∈ visited := by
    intro b hreach
    induction hreach with
    | single hab => exact hleads _ _ (Or.inl rfl) hab
    | tail _ hbc ih => exact hleads _ _ (Or.inr ih) hbc
  rintro ⟨b, hb, hreach⟩
  exact h.missed b (hvisited b hreach) hb

/-! ## The end of the loop -/

/-- The cells that some cell leads to. -/
def led (links : Links) : Finset String := (links.toList.flatMap (·.2.toList)).toFinset

theorem mem_led_of_leads {a b : String} (h : links.Leads a b) : b ∈ links.led := by
  rw [led, List.mem_toFinset, List.mem_flatMap]
  cases hentry : links[a]? with
  | none => exact absurd h (not_leads_of_none hentry)
  | some keys =>
    rw [Leads, next_of_getElem? hentry] at h
    exact ⟨(a, keys), Std.ExtTreeMap.mem_toList_iff_getElem?_eq_some.mpr hentry,
      Std.ExtTreeSet.mem_toList.mpr h⟩

theorem mem_led_of_reaches {a b : String} (h : links.Reaches a b) : b ∈ links.led := by
  obtain ⟨c, -, hcb⟩ := TransGen.tail'_iff.mp h
  exact mem_led_of_leads hcb

/-- How many cells are still to be met. -/
def unmet (links : Links) (visited : Keys) : Nat :=
  (links.led.filter fun a ↦ !visited.contains a).card

theorem unmet_insert_lt (hled : other ∈ links.led) (hother : other ∉ visited) :
    links.unmet (visited.insert other) < links.unmet visited := by
  refine Finset.card_lt_card ((Finset.ssubset_iff_of_subset fun a ha ↦ ?_).mpr ⟨other, ?_, ?_⟩)
  · simp only [Finset.mem_filter, Std.ExtTreeSet.contains_insert, Bool.not_or,
      Bool.and_eq_true] at ha ⊢
    exact ⟨ha.1, ha.2.2⟩
  · simpa [← Bool.not_eq_true] using ⟨hled, hother⟩
  · simp

/-- **The loop ends** with the answer whether a target can be reached. -/
theorem Sound.runs (hiterate : ∀ a keys, (iterate a keys).Perm keys)
    (hanswer : answer = true ↔ ∃ b ∈ targets, links.Reaches source b) :
    (others stack : List String) → (visited : Keys) →
      Sound links targets source others stack visited →
      (Probe.searching others stack visited).Runs iterate targets links (.answered answer)
  | [], [], _, h => by
    obtain rfl : answer = false := Bool.eq_false_iff.mpr fun htrue ↦
      h.not_reaches (hanswer.mp htrue)
    exact .single rfl
  | [], cell :: stack, visited, h =>
    (Sound.runs hiterate hanswer _ stack visited (h.open hiterate)).head rfl
  | other :: others, stack, visited, h => by
    have hreach : links.Reaches source other := h.looked other List.mem_cons_self
    by_cases htarget : targets.contains other = true
    · obtain rfl : answer = true :=
        hanswer.mpr ⟨other, Std.ExtTreeSet.contains_iff_mem.mp htarget, hreach⟩
      exact .single (if_pos htarget)
    · by_cases hvisited : visited.contains other = true
      · have h' := h.pass (Std.ExtTreeSet.contains_iff_mem.mp hvisited)
        refine (Sound.runs hiterate hanswer others stack visited h').head ?_
        rw [Probe.step, if_neg htarget, if_pos hvisited]
      · have h' := h.meet (mt Std.ExtTreeSet.contains_iff_mem.mpr htarget)
        refine (Sound.runs hiterate hanswer others (other :: stack) _ h').head ?_
        rw [Probe.step, if_neg htarget, if_neg hvisited]
termination_by others stack visited => (links.unmet visited + stack.length, others.length)
decreasing_by
  · exact .left _ _ (by simp)
  · exact .right _ (by simp)
  -- the cell goes over from the unmet ones to the stack
  · have hlt : links.unmet (visited.insert other) < links.unmet visited :=
      unmet_insert_lt (mem_led_of_reaches hreach) (mt Std.ExtTreeSet.contains_iff_mem.mpr hvisited)
    have hle : links.unmet (visited.insert other) + (other :: stack).length ≤
        links.unmet visited + stack.length := by
      rw [List.length_cons]
      omega
    exact .right' _ hle (Nat.lt_succ_self _)

end Links

namespace DependencyIndex

/-- **The check with a stack.** The loop ends with the answer of `wouldCycle`. -/
theorem runs_start (index : DependencyIndex) (iterate : String → List String → List String)
    (hiterate : ∀ a keys, (iterate a keys).Perm keys) (cell : String) (candidates : Keys) :
    (Links.Probe.start candidates cell).Runs iterate candidates index.dependentLinks
      (.answered (index.wouldCycle cell candidates)) := by
  rw [Links.Probe.start]
  by_cases hself : candidates.contains cell = true
  · rw [if_pos hself, wouldCycle, hself, Bool.true_or]
    exact .refl
  · rw [if_neg hself]
    refine Links.Sound.runs hiterate ?_ _ _ _ (.start _ _ cell)
    rw [wouldCycle_iff, or_iff_right (mt Std.ExtTreeSet.contains_iff_mem.mpr hself)]

end DependencyIndex

end FormulaSheet
