import FormulaSheet.Proofs.Sheet.Refusal
import FormulaSheet.Proofs.Sheet.Texts

/-!
# Sheets without circles

When the cells that formulas read form no circle, the formulas leave nothing open. No cell is
refused, the index holds what is asked for and nothing else, and since all cells are tracked the
values are the one solution of the formulas. Two intact sheets with these formulas and the same
settings are therefore equal, however they came about.
-/

namespace FormulaSheet

namespace Sheet

open Relation

variable {s t : Sheet}

/-- The cells that formulas read form no circle, and no formula reads its own cell. -/
def CircleFree (s : Sheet) : Prop := ∀ c, ¬TransGen (fun a b ↦ b ∈ s.asked a) c c

theorem Spelled.circleFree {texts : String → String} (h : Spelled texts s)
    (hacyclic : ∀ c, ¬TransGen (Reads s.options.maxRangeCells texts) c c) : s.CircleFree := by
  refine fun c hcc ↦ hacyclic c ?_
  exact TransGen.mono (p := Reads s.options.maxRangeCells texts)
    (fun _ _ hab ↦ h.mem_asked_iff.mp hab) _ _ hcc

theorem CircleFree.not_mem_asked_self (h : s.CircleFree) (c : String) : c ∉ s.asked c :=
  fun hc ↦ h c (.single hc)

theorem CircleFree.refused_eq (h : s.CircleFree) (hw : s.Wired) (he : s.Exact) :
    s.refused = ∅ := by
  refine (he.refused_eq_empty_iff hw).mpr fun c hcc ↦ h c ?_
  exact TransGen.mono (p := fun a b ↦ b ∈ s.asked a) (fun _ _ hab ↦ hab.2) _ _ hcc

/-- **A sheet without circles is determined by its formulas** and its settings. -/
theorem CircleFree.eq (h : s.CircleFree) (hs : s.Intact) (hse : s.Exact) (ht : t.Intact)
    (hte : t.Exact) (hfunctions : t.functions = s.functions) (hoptions : t.options = s.options)
    (hexpressions : t.expressions = s.expressions) : t = s := by
  have hasked : t.asked = s.asked := funext fun c ↦ asked_congr hoptions (by rw [hexpressions])
  have ht' : t.CircleFree := by
    rw [CircleFree, hasked]
    exact h
  -- with nothing refused, all edges are those of the formulas and all cells are tracked
  have hnone : s.refused = ∅ := h.refused_eq hs.wired hse
  have hnone' : t.refused = ∅ := ht'.refused_eq ht.wired hte
  have hindex : t.index = s.index := by
    refine ht.wired.consistent.ext hs.wired.consistent fun c ↦ ?_
    rw [ht.wired.precedents_eq, hs.wired.precedents_eq, hnone, hnone', wanted, wanted, hasked]
  have hvalues : t.values = s.values := by
    have htracked : ∀ c, s.Tracked c := fun c ↦
      ⟨hnone ▸ Std.ExtTreeMap.not_mem_empty, h.not_mem_asked_self c⟩
    have htracked' : ∀ c, t.Tracked c := fun c ↦
      ⟨hnone' ▸ Std.ExtTreeMap.not_mem_empty, ht'.not_mem_asked_self c⟩
    exact ht.filled.ext hs.filled (hs.current.get_eq hs.wired ht.current hfunctions hexpressions
      (fun c _ ↦ htracked' c) fun c hc ↦ absurd (htracked c) hc)
  cases s
  cases t
  rw [mk.injEq]
  exact ⟨hoptions, hfunctions, hexpressions, hvalues, hindex, hnone'.trans hnone.symm⟩

end Sheet

end FormulaSheet
