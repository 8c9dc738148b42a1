import FormulaSheet.Proofs.Sheet.Current

/-!
# What every run keeps

A sheet is intact when its edges are wired to its formulas, its tracked cells are up to date and no
cell is filed as empty. A sheet of empty cells is, and every operation keeps a sheet so: each change
to the edges of a cell is followed by an evaluation that starts there, the loop that restores
refused cells included, and between the two nothing but the cell and its dependents can be out of
date.
-/

namespace FormulaSheet

namespace Sheet

/-- Edges and values are what the formulas call for. -/
structure Intact (s : Sheet) : Prop where
  /-- The edges are those of the formulas. -/
  wired : s.Wired
  /-- The values are those of the formulas. -/
  current : s.Current
  /-- No cell is filed as empty. -/
  filled : s.values.Filled

variable {s t : Sheet} {key c : String} {e : Option Expr} {keys edges : Keys}

theorem intact_fresh (functions : Registry) (options : SheetOptions) :
    (fresh functions options).Intact where
  wired := wired_fresh functions options
  current c _ := by
    have hvalue : (fresh functions options).values.get c = .empty := Std.ExtTreeMap.getD_empty
    have hformula : (fresh functions options).expressions[c]? = none :=
      Std.ExtTreeMap.getElem?_empty
    rw [UpToDate, hvalue, formulaValue_of_none hformula]
  filled c v h := by
    rw [show (fresh functions options).values[c]? = none from Std.ExtTreeMap.getElem?_empty] at h
    cases h

/-! ## Each change and its evaluation -/

theorem intact_recalculateKey (hw : s.Wired) (hf : s.values.Filled) (h : s.CurrentBut [key]) :
    (s.recalculateKey key).Intact where
  wired := hw.settleAll (key :: s.index.recalcOrder key)
  current := h.recalculateKey hw
  filled := filled_settleAll hf (key :: s.index.recalcOrder key)

theorem Intact.recalculateKey (h : s.Intact) (key : String) : (s.recalculateKey key).Intact :=
  intact_recalculateKey h.wired h.filled (h.current.currentBut [key])

/-- Edges change for one cell, and the evaluation starts there. -/
theorem Intact.rewire (h : s.Intact) (hr : Rewired s t key edges) (hw : t.Wired)
    (hvalues : t.values = s.values) : (t.recalculateKey key).Intact :=
  intact_recalculateKey hw (hvalues ▸ h.filled) (h.current.rewire hr h.wired.admitted hvalues)

theorem Intact.accept (h : s.Intact) (he : Expr.Admitted s.options.maxRangeCells e keys)
    (hcheck : s.index.wouldCycle key (wantedBy key keys) = false) :
    ((s.accept key e (wantedBy key keys)).recalculateKey key).Intact :=
  h.rewire (accept_rewired s key e _) (h.wired.accept he hcheck) rfl

theorem Intact.refuse (h : s.Intact) (he : Expr.Admitted s.options.maxRangeCells e keys)
    (hcheck : s.index.wouldCycle key (wantedBy key keys) = true) :
    ((s.refuse key e (wantedBy key keys)).settleDependents key).Intact := by
  have hw := h.wired.refuse he hcheck
  have hf : (s.refuse key e (wantedBy key keys)).values.Filled :=
    filled_store h.filled key (.fault (.circularReference key))
  exact ⟨hw.settleAll _, h.current.refuse h.wired hw, filled_settleAll hf _⟩

theorem Intact.restore (h : s.Intact) (hrestorable : s.restorable? = some (key, keys)) :
    (s.restore key keys).Intact := by
  have hw := h.wired.connect (getElem?_refused_of_restorable hrestorable)
    (wouldCycle_of_restorable hrestorable)
  rw [restore_eq]
  exact h.rewire (connect_rewired s key keys) hw rfl

theorem Intact.restoreRefused (h : s.Intact) : s.restoreRefused.Intact := by
  fun_induction Sheet.restoreRefused s with
  | case1 s => exact h
  | case2 s key keys hrestorable ih => exact ih (h.restore hrestorable)

theorem Intact.install (h : s.Intact) (key : String)
    (he : Expr.Admitted s.options.maxRangeCells e keys) :
    (s.install key e (wantedBy key keys)).Intact := by
  cases hcheck : s.index.wouldCycle key (wantedBy key keys) with
  | false =>
    rw [install_of_not_wouldCycle hcheck]
    exact (h.accept he hcheck).restoreRefused
  | true =>
    rw [install_of_wouldCycle hcheck]
    exact (h.refuse he hcheck).restoreRefused

theorem Intact.run (h : s.Intact) (ops : List Operation) : (s.run ops).Intact :=
  run_induction (fun _ key _ _ h he ↦ h.install key he) (fun _ _ _ h ↦ h.recalculateKey _) h

/-- **Every run** leaves the sheet intact. -/
theorem intact_run (functions : Registry) (options : SheetOptions) (ops : List Operation) :
    ((fresh functions options).run ops).Intact :=
  (intact_fresh functions options).run ops

/-! ## No cell holds an array -/

/-- No value of a cell is an array. -/
def Flat (s : Sheet) : Prop := ∀ c, (s.values.get c).isArray = false

theorem isArray_formulaValue (s : Sheet) (c : String) : (s.formulaValue c).isArray = false := by
  rw [formulaValue]
  split
  next => rfl
  next h => exact Bool.eq_false_iff.mpr h

theorem Flat.store {v : Value} (h : s.Flat) (hv : v.isArray = false) :
    Flat { s with values := store s.values key v } := by
  intro c
  rw [get_store]
  split
  · exact hv
  · exact h c

theorem Flat.settleAll (h : s.Flat) (cells : List String) : (s.settleAll cells).Flat := by
  induction cells generalizing s with
  | nil => exact h
  | cons cell cells ih => exact ih (h.store (isArray_formulaValue s cell))

theorem Flat.restoreRefused (h : s.Flat) : s.restoreRefused.Flat := by
  fun_induction Sheet.restoreRefused s with
  | case1 s => exact h
  | case2 s key keys _ ih =>
    exact ih (Flat.settleAll (s := s.connect key keys) h (key :: _))

theorem Flat.install (h : s.Flat) (key : String) (e : Option Expr) (wanted : Keys) :
    (s.install key e wanted).Flat := by
  cases hcheck : s.index.wouldCycle key wanted with
  | false =>
    rw [install_of_not_wouldCycle hcheck]
    exact (Flat.settleAll (s := s.accept key e wanted) h (key :: _)).restoreRefused
  | true =>
    rw [install_of_wouldCycle hcheck]
    have hrefuse : (s.refuse key e wanted).Flat :=
      h.store (v := .fault (.circularReference key)) rfl
    exact (hrefuse.settleAll _).restoreRefused

theorem flat_run (functions : Registry) (options : SheetOptions) (ops : List Operation) :
    ((fresh functions options).run ops).Flat := by
  refine run_induction (fun s key e keys h _ ↦ h.install key e _)
    (fun s cell _ h ↦ h.settleAll (Address.canonicalKey cell :: _)) fun c ↦ ?_
  rw [show (fresh functions options).values.get c = .empty from Std.ExtTreeMap.getD_empty]
  rfl

/-! ## Consequences -/

theorem mem_refusedCells : c ∈ s.refusedCells ↔ c ∈ s.refused := Std.ExtTreeMap.mem_keys

theorem Intact.mem_expressions (h : s.Intact) (hc : c ∈ s.values) : c ∈ s.expressions := by
  by_contra hnot
  have hnone : s.expressions[c]? = none := Std.ExtTreeMap.getElem?_eq_none hnot
  have hself : c ∉ s.asked c := mt mem_expressions_of_mem_asked hnot
  have hrefused : c ∉ s.refused := mt h.wired.mem_expressions_of_refused hnot
  -- a cell without a formula is tracked, so its value is that of no formula
  have hvalue : s.values.get c = .empty := by
    rw [h.current c ⟨hrefused, hself⟩, formulaValue_of_none hnone]
  rw [Std.ExtTreeMap.mem_iff_isSome_getElem?, h.filled.getElem?_eq, hvalue] at hc
  cases hc

end Sheet

end FormulaSheet
