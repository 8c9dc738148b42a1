import FormulaSheet.Proofs.Sheet.Intact

/-!
# Refused cells and circles

Refusals are exact when no refused cell could be given its edges. The loop at the end of every
installation goes on until this is so, whatever sheet it starts from, and evaluation has no part in
it.

What a refused cell waits for is a circle, and the circle is there: the check found a chain along
the index from the cell to one of those it asks for, and each link of the chain is something that a
formula asks for, as the edges of a wired sheet are. If no cell is refused then conversely
everything asked for is in the index, which has no circle.
-/

namespace FormulaSheet

namespace Sheet

open Relation

variable {s : Sheet} {key a b c : String} {e : Option Expr} {keys : Keys}

/-! ## Exact refusals -/

/-- No refused cell could be given its edges. -/
def Exact (s : Sheet) : Prop :=
  ∀ c keys, s.refused[c]? = some keys → s.index.wouldCycle c keys = true

theorem exact_fresh (functions : Registry) (options : SheetOptions) :
    (fresh functions options).Exact := by
  intro c keys hc
  rw [show (fresh functions options).refused[c]? = none from Std.ExtTreeMap.getElem?_empty] at hc
  cases hc

theorem exact_restoreRefused (s : Sheet) : s.restoreRefused.Exact := by
  fun_induction restoreRefused s with
  | case1 s hnone =>
    intro c keys hc
    have hlast := List.find?_eq_none.mp hnone (c, keys)
      (Std.ExtTreeMap.mem_toList_iff_getElem?_eq_some.mpr hc)
    simpa using hlast
  | case2 s key keys _ ih => exact ih

theorem exact_install (s : Sheet) (key : String) (e : Option Expr) (keys : Keys) :
    (s.install key e keys).Exact := by
  cases hcheck : s.index.wouldCycle key keys with
  | false =>
    rw [install_of_not_wouldCycle hcheck]
    exact exact_restoreRefused _
  | true =>
    rw [install_of_wouldCycle hcheck]
    exact exact_restoreRefused _

theorem Exact.recalculateKey (h : s.Exact) (key : String) : (s.recalculateKey key).Exact := by
  rw [recalculateKey_eq]
  exact h

theorem exact_run (functions : Registry) (options : SheetOptions) (ops : List Operation) :
    ((fresh functions options).run ops).Exact :=
  run_induction (fun s key e _ _ _ ↦ exact_install s key e _) (fun _ _ _ h ↦ h.recalculateKey _)
    (exact_fresh functions options)

/-! ## Circles of what formulas ask for -/

/-- The formula of the first cell reads the second, and does not read its own cell. -/
def Wants (s : Sheet) (c d : String) : Prop := c ∉ s.asked c ∧ d ∈ s.asked c

theorem Wired.wants_of_leads (h : s.Wired) (hab : s.index.dependentLinks.Leads a b) :
    s.Wants b a := (h.leads_iff.mp hab).2

theorem Wired.leads_of_wants (h : s.Wired) (hnone : s.refused = ∅) (hab : s.Wants a b) :
    s.index.dependentLinks.Leads b a :=
  h.leads_iff.mpr ⟨hnone ▸ Std.ExtTreeMap.not_mem_empty, hab⟩

/-- A chain of edges is a chain of wants, the other way round. -/
theorem Wired.wants_of_reaches (h : s.Wired) (hab : s.index.dependentLinks.Reaches a b) :
    TransGen s.Wants b a := by
  induction hab with
  | single hab => exact .single (h.wants_of_leads hab)
  | tail _ hbc ih => exact .head (h.wants_of_leads hbc) ih

theorem Wired.reaches_of_wants (h : s.Wired) (hnone : s.refused = ∅) (hab : TransGen s.Wants a b) :
    s.index.dependentLinks.Reaches b a := by
  induction hab with
  | single hab => exact .single (h.leads_of_wants hnone hab)
  | tail _ hbc ih => exact .head (h.leads_of_wants hnone hbc) ih

theorem Exact.reaches (he : s.Exact) (hw : s.Wired) (hc : s.refused[c]? = some keys) :
    ∃ d ∈ keys, s.index.dependentLinks.Reaches c d := by
  rcases DependencyIndex.wouldCycle_iff.mp (he c keys hc) with hself | hreach
  · exact absurd hself (hw.asked_of_refused hc).2.2
  · exact hreach

theorem Exact.reaches_asked (he : s.Exact) (hw : s.Wired) (hc : c ∈ s.refused) :
    ∃ d ∈ s.asked c, s.index.dependentLinks.Reaches c d := by
  have hsome := Std.ExtTreeMap.getElem?_eq_some_getElem hc
  rw [(hw.asked_of_refused hsome).1]
  exact he.reaches hw hsome

theorem Exact.wants_self (he : s.Exact) (hw : s.Wired) (hc : s.refused[c]? = some keys) :
    TransGen s.Wants c c := by
  obtain ⟨d, hd, hreach⟩ := he.reaches hw hc
  obtain ⟨hasked, -, hself⟩ := hw.asked_of_refused hc
  rw [← hasked] at hd hself
  exact .head ⟨hself, hd⟩ (hw.wants_of_reaches hreach)

theorem Exact.refused_eq_empty_iff (he : s.Exact) (hw : s.Wired) :
    s.refused = ∅ ↔ ∀ c, ¬TransGen s.Wants c c := by
  constructor
  · intro hnone c hcc
    exact hw.acyclic c (hw.reaches_of_wants hnone hcc)
  · intro hacyclic
    refine Std.ExtTreeMap.ext_getElem? fun c ↦ ?_
    cases hc : s.refused[c]? with
    | none => exact Std.ExtTreeMap.getElem?_empty.symm
    | some keys => exact absurd (he.wants_self hw hc) (hacyclic c)

theorem refusedCells_eq_nil_iff : s.refusedCells = [] ↔ s.refused = ∅ := by
  rw [refusedCells, ← List.isEmpty_iff, Std.ExtTreeMap.isEmpty_keys, Std.ExtTreeMap.isEmpty_iff]

end Sheet

end FormulaSheet
