import FormulaSheet.Proofs.Sheet.Failure

/-!
# The same update twice

An update that is made a second time finds everything as it would leave it. The formula is stored,
and its edges are in the index, where they are no circle, or remembered with the refusal, which the
check confirms. What is evaluated is up to date, and no refused cell can be released, for the first
update has just released all that could be.

Two kinds of cells need not be up to date. A formula that reads its own cell is evaluated against
the value that the cell had, so the second time it may come to something else; it is left out. A
refused cell that has been asked for shows something else than its error, but an update files the
error anew, so after the first update the updated cell shows it.

## What is stored already

Each of the ways in which an update changes a sheet changes nothing if it stores what is there. So
this is a statement on one sheet, `Intact.install_eq_self`, and the first update only has to lead to
such a sheet.
-/

namespace FormulaSheet

namespace Sheet

variable {s : Sheet} {key cell text message : String} {o : OversizedRange} {e : Option Expr}
variable {keys : Keys} {cells : List String}

/-! ## Evaluating what is up to date -/

theorem settle_eq_self (hf : s.values.Filled) (h : s.UpToDate key) : s.settle key = s := by
  have hvalues : store s.values key (s.formulaValue key) = s.values := by
    refine (filled_store hf key _).ext hf fun c ↦ ?_
    rw [get_store]
    split
    next hc => rw [hc, h]
    next => rfl
  rw [settle, hvalues]

theorem settleAll_eq_self (hf : s.values.Filled) (h : ∀ c ∈ cells, s.UpToDate c) :
    s.settleAll cells = s := by
  induction cells with
  | nil => rfl
  | cons cell cells ih =>
    rw [List.forall_mem_cons] at h
    calc s.settleAll (cell :: cells) = (s.settle cell).settleAll cells := rfl
      _ = s.settleAll cells := by rw [settle_eq_self hf h.1]
      _ = s := ih h.2

theorem Intact.settleDependents_eq_self (h : s.Intact) (key : String) :
    s.settleDependents key = s :=
  settleAll_eq_self h.filled fun c hc ↦
    h.current c (h.wired.tracked_of_reaches (mem_recalcOrder_iff.mp hc).2)

theorem Intact.recalculateKey_eq_self (h : s.Intact) (hkey : s.Tracked key) :
    s.recalculateKey key = s := by
  rw [Sheet.recalculateKey, settle_eq_self h.filled (h.current key hkey)]
  exact h.settleDependents_eq_self key

theorem Exact.restoreRefused_eq_self (h : s.Exact) : s.restoreRefused = s := by
  cases hrestorable : s.restorable? with
  | none => exact restoreRefused_of_none hrestorable
  | some found =>
    have hcheck := wouldCycle_of_restorable hrestorable
    rw [h _ _ (getElem?_refused_of_restorable hrestorable)] at hcheck
    cases hcheck

/-! ## Storing what is stored -/

theorem withExpression_eq_self (expressions : Std.ExtTreeMap String Expr) (key : String) :
    withExpression expressions key expressions[key]? = expressions := by
  cases h : expressions[key]? with
  | none =>
    refine erase_key_eq_self fun hmem ↦ ?_
    rw [Std.ExtTreeMap.mem_iff_isSome_getElem?, h] at hmem
    exact Bool.false_ne_true hmem
  | some e => exact insert_key_eq_self h

theorem Wired.replace_eq_self (h : s.Wired) (key : String) :
    s.index.replace key (if key ∈ s.refused then ∅ else s.wanted key) = s.index := by
  rw [← h.precedents_eq]
  exact h.consistent.replace_precedents key

theorem Wired.accept_eq_self (h : s.Wired) (hkey : key ∉ s.refused) :
    s.accept key s.expressions[key]? (s.wanted key) = s := by
  have hindex := h.replace_eq_self key
  rw [if_neg hkey] at hindex
  rw [Sheet.accept, withExpression_eq_self, hindex, erase_key_eq_self hkey]

theorem Intact.refuse_eq_self (h : s.Intact) (hkey : s.refused[key]? = some keys)
    (hshown : s.values.get key = .fault (.circularReference key)) :
    s.refuse key s.expressions[key]? keys = s := by
  have hindex := h.wired.replace_eq_self key
  rw [if_pos (Std.ExtTreeMap.mem_iff_isSome_getElem?.mpr (by rw [hkey]; rfl))] at hindex
  have hvalues : s.values.insert key (.fault (.circularReference key)) = s.values := by
    refine insert_key_eq_self ?_
    rw [h.filled.getElem?_eq, hshown]
    rfl
  rw [Sheet.refuse, withExpression_eq_self, hindex, insert_key_erase_key, insert_key_eq_self hkey,
    hvalues]

/-- **Installing what is installed.** In an intact sheet with exact refusals, installing the formula
that a cell has changes nothing, unless it reads the cell, or the cell is refused and does not show
it. -/
theorem Intact.install_eq_self (h : s.Intact) (he : s.Exact) (hself : key ∉ s.asked key)
    (hshown : key ∈ s.refused → s.values.get key = .fault (.circularReference key)) :
    s.install key s.expressions[key]? (s.wanted key) = s := by
  by_cases hkey : key ∈ s.refused
  · have hsome := Std.ExtTreeMap.getElem?_eq_some_getElem hkey
    rw [(h.wired.refused_eq key _ hsome).1] at hsome
    rw [install_of_wouldCycle (he key _ hsome), h.refuse_eq_self hsome (hshown hkey),
      h.settleDependents_eq_self, he.restoreRefused_eq_self]
  · have hcheck := h.wired.acyclic.not_wouldCycle_precedents h.wired.consistent key
    rw [h.wired.precedents_eq, if_neg hkey] at hcheck
    rw [install_of_not_wouldCycle hcheck, h.wired.accept_eq_self hkey,
      h.recalculateKey_eq_self ⟨hkey, hself⟩, he.restoreRefused_eq_self]

/-! ## The second time -/

/-- After an installation the cell shows its error if it is refused, even if it was refused before
and had been asked for. -/
theorem Intact.get_install_self (h : s.Intact) (he : Expr.Admitted s.options.maxRangeCells e keys)
    (hkey : key ∈ (s.install key e (wantedBy key keys)).refused) :
    (s.install key e (wantedBy key keys)).values.get key = .fault (.circularReference key) := by
  have hcheck := (h.mem_refused_install_iff he).mp hkey
  exact (h.get_install_of_wouldCycle he hcheck hkey).2.trans (if_pos rfl)

theorem Intact.install_install (h : s.Intact) (he : Expr.Admitted s.options.maxRangeCells e keys)
    (hself : key ∉ keys) :
    (s.install key e (wantedBy key keys)).install key e (wantedBy key keys)
      = s.install key e (wantedBy key keys) := by
  have hasked : (s.install key e (wantedBy key keys)).asked key = keys := asked_install_self _ he
  have hformula : (s.install key e (wantedBy key keys)).expressions[key]? = e := by
    rw [getElem?_expressions_install, if_pos rfl]
  have hsame := (h.install key he).install_eq_self (exact_install s key e (wantedBy key keys))
    (hasked.symm ▸ hself) (h.get_install_self he)
  rwa [wanted, hasked, hformula] at hsame

theorem Intact.recordFailure_recordFailure (h : s.Intact) (key : String)
    (hmessage : ∀ c, message ≠ (EvalFault.circularReference c).message) :
    (s.recordFailure key message).recordFailure key message = s.recordFailure key message := by
  have hagain : (s.install key (some (.failure message)) (wantedBy key ∅)).install key
      (some (.failure message)) (wantedBy key ∅)
      = s.install key (some (.failure message)) (wantedBy key ∅) :=
    h.install_install (.failure hmessage) Std.ExtTreeSet.not_mem_empty
  rwa [wantedBy_of_not_mem Std.ExtTreeSet.not_mem_empty, ← recordFailure_eq_install,
    ← recordFailure_eq_install] at hagain

theorem tryUpdate_recordFailure (h : s.tryUpdate cell text = .error o) (key message : String) :
    (s.recordFailure key message).tryUpdate cell text = .error o := by
  rw [recordFailure_eq_install, tryUpdate_eq_error_iff, options_install]
  exact tryUpdate_eq_error_iff.mp h

theorem Intact.update_update (h : s.Intact) (cell text : String)
    (hself : ∀ keys, Expr.formulaKeys s.options.maxRangeCells (Expr.parse text) = .ok keys →
      Address.canonicalKey cell ∉ keys) :
    (s.update cell text).update cell text = s.update cell text := by
  cases htry : s.tryUpdate cell text with
  | ok after =>
    obtain ⟨keys, he, rfl⟩ := tryUpdate_eq_install htry
    rw [update_of_ok htry, update_eq_install (by rw [options_install]; exact he.keys_eq)]
    exact h.install_install he (hself keys he.keys_eq)
  | error o =>
    rw [update_of_error htry]
    split
    next hsurface =>
      have hoptions : (s.recordFailure (Address.canonicalKey cell) o.message).options = s.options :=
        by rw [recordFailure_eq_install, options_install]
      rw [update_of_error (tryUpdate_recordFailure htry _ _), hoptions, if_pos hsurface]
      exact h.recordFailure_recordFailure _ o.message_ne_circular
    next hquiet => rw [update_of_error htry, if_neg hquiet]

/-- **The same update twice.** In a reachable sheet, making an update a second time changes nothing:
no formula, no value, no edge and no refusal. The formula must not read its own cell; it may be
accepted, refused, turned down for its size, erroneous or absent. -/
theorem run_update_twice (functions : Registry) (options : SheetOptions) (ops : List Operation)
    (cell text : String)
    (hself : ∀ keys, Expr.formulaKeys options.maxRangeCells (Expr.parse text) = .ok keys →
      Address.canonicalKey cell ∉ keys) :
    let s := (fresh functions options).run ops
    (s.update cell text).update cell text = s.update cell text := by
  intro s
  refine (intact_run functions options ops).update_update cell text fun keys hkeys ↦ ?_
  rw [options_run] at hkeys
  exact hself keys hkeys

/-- A formula that is refused both times. -/
theorem run_update_twice_circle :
    let s := (fresh .empty {}).run circle
    let t := s.update "B1" "A1"
    (∀ keys, Expr.formulaKeys ({} : SheetOptions).maxRangeCells (Expr.parse "A1") = .ok keys →
      Address.canonicalKey "B1" ∉ keys) ∧
      "B1" ∈ t.refusedCells ∧ t.update "B1" "A1" = t := by
  intro s t
  have hself : ∀ keys, Expr.formulaKeys ({} : SheetOptions).maxRangeCells (Expr.parse "A1")
      = .ok keys → Address.canonicalKey "B1" ∉ keys := by
    intro keys hkeys
    rw [formulaKeys_a1, Except.ok.injEq] at hkeys
    rw [← hkeys, canonicalKey_b1, Keys.mem_singleton]
    decide
  refine ⟨hself, ?_, run_update_twice .empty {} circle "B1" "A1" hself⟩
  have h : s.Intact := intact_run .empty {} circle
  have hkeys := formulaKeys_a1 s.options.maxRangeCells
  have hupdate : t = s.install "B1" (Expr.parse "A1") (wantedBy "B1" {"A1"}) := by
    rw [← canonicalKey_b1]
    exact update_eq_install hkeys
  rw [mem_refusedCells, hupdate, h.mem_refused_install_iff (.of_parse hkeys),
    wouldCycle_wantedBy_iff]
  exact ⟨by rw [Keys.mem_singleton]; decide, "A1", Keys.mem_singleton.mpr rfl,
    .single (leads_circle .empty {})⟩

end Sheet

end FormulaSheet
