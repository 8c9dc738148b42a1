import FormulaSheet.Proofs.Dependency.Circle
import Mathlib.Order.WellFoundedSet

/-!
# Going along an acyclic index

Finitely many cells have an entry in an index, so on an acyclic one every way along the links comes
to an end, whether it leads down to what cells read or up to what reads them. Induction along the
links is what proofs about values use in the place of an induction on the number of cells.
-/

namespace FormulaSheet

open Relation

/-- A relation without circles is well-founded if all points that have a smaller one are among
finitely many. -/
theorem wellFounded_of_finite {α : Type*} {r : α → α → Prop} {points : Set α}
    (hfinite : points.Finite) (hpoints : ∀ a b, r a b → b ∈ points)
    (hacyclic : ∀ a, ¬TransGen r a a) : WellFounded r := by
  have : IsStrictOrder α (TransGen r) :=
    { irrefl := hacyclic, trans := fun _ _ _ ↦ TransGen.trans }
  have hout : ∀ b, b ∉ points → Acc r b := fun b hb ↦
    ⟨b, fun a hab ↦ absurd (hpoints a b hab) hb⟩
  -- only the finitely many points need the order, for the others have nothing below them
  refine ⟨fun b ↦ ?_⟩
  by_cases hb : b ∈ points
  · refine (hfinite.wellFoundedOn (r := TransGen r)).induction hb fun c _ ih ↦ ⟨c, fun a hac ↦ ?_⟩
    by_cases ha : a ∈ points
    · exact ih a ha (.single hac)
    · exact hout a ha
  · exact hout b hb

namespace Links

theorem finite_entries (links : Links) : {a | a ∈ links}.Finite :=
  links.keys.finite_toSet.subset fun _ ha ↦ Std.ExtTreeMap.mem_keys.mpr ha

theorem mem_of_leads {links : Links} {a b : String} (h : links.Leads a b) : a ∈ links := by
  by_contra ha
  exact not_leads_of_none (Std.ExtTreeMap.getElem?_eq_none ha) h

end Links

namespace DependencyIndex

variable {index : DependencyIndex}

/-- The way down, from a cell to those that it reads. -/
theorem Acyclic.wellFounded_down (h : index.Acyclic) (hc : index.Consistent) :
    WellFounded index.dependentLinks.Leads := by
  refine wellFounded_of_finite index.precedentLinks.finite_entries (fun a b hab ↦ ?_) h
  exact Links.mem_of_leads ((hc.mem_dependents_iff a b).mp hab)

/-- The way up, from a cell to those that read it. -/
theorem Acyclic.wellFounded_up (h : index.Acyclic) :
    WellFounded fun b a ↦ index.dependentLinks.Leads a b := by
  refine wellFounded_of_finite index.dependentLinks.finite_entries (fun b a hab ↦ ?_) ?_
  · exact Links.mem_of_leads hab
  · exact fun a haa ↦ h a (transGen_swap.mp haa)

end DependencyIndex

end FormulaSheet
