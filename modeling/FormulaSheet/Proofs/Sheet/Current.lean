import FormulaSheet.Proofs.Dependency.Descent
import FormulaSheet.Proofs.Sheet.Wiring

/-!
# Values in the course of an evaluation

A cell is up to date when its value is what its formula comes to against the present values. This is
asked of tracked cells only: a refused cell has a value that its formula does not account for, and a
cell that reads itself would have to be evaluated for ever.

## What is still to be evaluated

While an evaluation is under way the cells that are still to come may be out of date, and
`CurrentBut` says that these are all. One step, which files a value for the first of them, keeps
this up as long as the cells that read it are still to come, as they are in a cascade; all others
read values that have not changed.

## One solution

The values of a sheet whose tracked cells are up to date are fixed by its formulas and by the values
of the cells that are not tracked, by induction along the index.
-/

namespace FormulaSheet

/-! ## Filing values -/

namespace Values

/-- No cell is filed as empty. -/
def Filled (values : Values) : Prop :=
  ∀ (c : String) (v : Value), values[c]? = some v → v.isEmpty = false

theorem get_eq_getD (values : Values) (c : String) : values.get c = values[c]?.getD .empty :=
  Std.ExtTreeMap.getD_eq_getD_getElem?

private theorem eq_empty_of_isEmpty {v : Value} (h : v.isEmpty = true) : v = .empty := by
  cases v with
  | empty => rfl
  | number => cases h
  | text => cases h
  | error => cases h
  | array => cases h

theorem Filled.getElem?_eq {values : Values} (h : Filled values) (c : String) :
    values[c]? = if (values.get c).isEmpty then none else some (values.get c) := by
  rw [get_eq_getD]
  cases hv : values[c]? with
  | none => rfl
  | some v => rw [Option.getD_some, h c v hv, if_neg Bool.false_ne_true]

theorem Filled.ext {values values' : Values} (h : Filled values) (h' : Filled values')
    (hget : ∀ c, values.get c = values'.get c) : values = values' := by
  refine Std.ExtTreeMap.ext_getElem? fun c ↦ ?_
  rw [h.getElem?_eq, h'.getElem?_eq, hget]

end Values

namespace Sheet

open Links (Cascade)

variable {s t : Sheet} {key c : String} {later : List String} {keys edges : Keys}

theorem get_store (values : Values) (key c : String) (v : Value) :
    (store values key v).get c = if c = key then v else values.get c := by
  rw [store, Values.get_eq_getD, Values.get_eq_getD]
  by_cases hv : v.isEmpty = true
  · rw [if_pos hv, getElem?_erase_key, apply_ite (Option.getD · Value.empty), Option.getD_none,
      Values.eq_empty_of_isEmpty hv]
  · rw [if_neg hv, getElem?_insert_key, apply_ite (Option.getD · Value.empty), Option.getD_some]

theorem filled_store {values : Values} (h : values.Filled) (key : String) (v : Value) :
    (store values key v).Filled := by
  intro c w hw
  rw [store] at hw
  by_cases hv : v.isEmpty = true
  · rw [if_pos hv, getElem?_erase_key] at hw
    split at hw
    · cases hw
    · exact h c w hw
  · rw [if_neg hv, getElem?_insert_key] at hw
    split at hw
    · exact Option.some.inj hw ▸ Bool.eq_false_iff.mpr hv
    · exact h c w hw

theorem filled_settleAll (h : s.values.Filled) (cells : List String) :
    (s.settleAll cells).values.Filled := by
  induction cells generalizing s with
  | nil => exact h
  | cons cell cells ih => exact ih (s := s.settle cell) (filled_store h cell _)

/-! ## Cells that are up to date -/

/-- The cell is neither refused nor does it read itself. -/
def Tracked (s : Sheet) (c : String) : Prop := c ∉ s.refused ∧ c ∉ s.asked c

/-- The value of the cell is what its formula comes to. -/
def UpToDate (s : Sheet) (c : String) : Prop := s.values.get c = s.formulaValue c

/-- The tracked cells are up to date, but for those that are still to be evaluated. -/
def CurrentBut (s : Sheet) (later : List String) : Prop :=
  ∀ c, s.Tracked c → c ∉ later → s.UpToDate c

/-- The tracked cells are up to date. -/
def Current (s : Sheet) : Prop := ∀ c, s.Tracked c → s.UpToDate c

theorem Current.currentBut (h : s.Current) (later : List String) : s.CurrentBut later :=
  fun c hc _ ↦ h c hc

theorem CurrentBut.mono {later' : List String} (h : s.CurrentBut later)
    (hsub : ∀ c ∈ later, c ∈ later') : s.CurrentBut later' :=
  fun c hc hlater ↦ h c hc fun hmem ↦ hlater (hsub c hmem)

theorem formulaValue_of_none (h : s.expressions[c]? = none) : s.formulaValue c = .empty := by
  rw [formulaValue, h]
  rfl

theorem formulaValue_of_some {e : Expr} (h : s.expressions[c]? = some e) :
    s.formulaValue c =
      match e.eval ⟨c, s.values, s.functions⟩ with
      | .array _ => .error "Cannot return cell range as value"
      | v => v := by
  have hcases : ∀ v : Value, (if v.isArray then .fault .rangeAsValue else v) =
      match v with
      | .array _ => .error "Cannot return cell range as value"
      | v => v := by
    intro v
    cases v <;> rfl
  rw [formulaValue, h]
  exact hcases _

theorem formulaValue_of_isArray {e : Expr} (h : s.expressions[c]? = some e)
    (harray : (e.eval ⟨c, s.values, s.functions⟩).isArray = true) :
    s.formulaValue c = .fault .rangeAsValue := by
  rw [formulaValue, h]
  exact if_pos harray

theorem formulaValue_of_not_isArray {e : Expr} (h : s.expressions[c]? = some e)
    (harray : (e.eval ⟨c, s.values, s.functions⟩).isArray = false) :
    s.formulaValue c = e.eval ⟨c, s.values, s.functions⟩ := by
  rw [formulaValue, h]
  exact if_neg (Bool.eq_false_iff.mp harray)

theorem formulaValue_congr (hfunctions : t.functions = s.functions)
    (hexpressions : t.expressions[c]? = s.expressions[c]?)
    (hadmitted : Expr.Admitted s.options.maxRangeCells s.expressions[c]? keys)
    (hvalues : ∀ a ∈ keys, t.values.get a = s.values.get a) :
    t.formulaValue c = s.formulaValue c := by
  rw [formulaValue, formulaValue, hfunctions, hexpressions,
    hadmitted.evalFormula_congr c s.functions hvalues]

/-! ## One step and all steps -/

/-- **The step.** Filing the value of the first of the cells to come leaves the others to come, if
those that read it are among them. -/
theorem CurrentBut.store (h : s.CurrentBut (key :: later)) (hw : s.Wired)
    (hleads : ∀ c, s.index.dependentLinks.Leads key c → c ∈ later) {v : Value}
    (hv : s.Tracked key → v = s.formulaValue key) :
    CurrentBut { s with values := store s.values key v } later := by
  intro c hc hlater
  -- a tracked cell that reads `key` has an edge from it, so it is still to come
  have hread : key ∉ s.asked c := fun hmem ↦
    hlater (hleads c (hw.leads_iff.mpr ⟨hc.1, hc.2, hmem⟩))
  have hsame : formulaValue { s with values := Sheet.store s.values key v } c
      = s.formulaValue c := by
    refine formulaValue_congr rfl rfl (hw.admitted c) fun a ha ↦ ?_
    rw [get_store, if_neg fun hkey : a = key ↦ hread (hkey ▸ ha)]
  rw [UpToDate, hsame, get_store]
  by_cases hkey : c = key
  · rw [if_pos hkey, hkey]
    exact hv (hkey ▸ hc)
  · rw [if_neg hkey]
    exact h c hc (List.not_mem_cons_of_ne_of_not_mem hkey hlater)

/-- **The evaluation.** Evaluating all that may be out of date, in a cascade, leaves nothing so. -/
theorem CurrentBut.settleAll (hw : s.Wired) :
    ∀ {later : List String}, Cascade s.index.dependentLinks later → s.CurrentBut later →
      (s.settleAll later).Current := by
  intro later
  induction later generalizing s with
  | nil => exact fun _ h c hc ↦ h c hc List.not_mem_nil
  | cons key later ih =>
    intro hcascade h
    exact ih (s := s.settle key) (hw.withValues _) hcascade.2 (h.store hw hcascade.1 fun _ ↦ rfl)

theorem Wired.cascadeBy (hw : s.Wired) {arrange : String → List String → List String}
    (harrange : ∀ cell cells, (arrange cell cells).Perm cells) (key : String) :
    Cascade s.index.dependentLinks (key :: s.index.recalcOrderBy arrange key) :=
  Links.cascade_order _ key harrange fun a _ ↦ hw.acyclic a

theorem Wired.cascade (hw : s.Wired) (key : String) :
    Cascade s.index.dependentLinks (key :: s.index.recalcOrder key) :=
  hw.cascadeBy (fun _ _ ↦ List.Perm.refl _) key

theorem CurrentBut.recalculateKey (h : s.CurrentBut [key]) (hw : s.Wired) :
    (s.recalculateKey key).Current := by
  rw [recalculateKey_eq_settleAll]
  refine CurrentBut.settleAll hw (hw.cascade key) (h.mono fun c hc ↦ ?_)
  exact List.mem_singleton.mp hc ▸ List.mem_cons_self

/-! ## One solution -/

theorem Wired.tracked_of_leads (hw : s.Wired) {a : String}
    (h : s.index.dependentLinks.Leads a c) : s.Tracked c := by
  obtain ⟨hrefused, hself, -⟩ := hw.leads_iff.mp h
  exact ⟨hrefused, hself⟩

/-- **One solution.** Two sheets with the same formulas whose tracked cells are up to date agree in
all values if they do in those of the cells that are not tracked. -/
theorem Current.get_eq (h : s.Current) (hw : s.Wired) (ht : t.Current)
    (hfunctions : t.functions = s.functions) (hexpressions : t.expressions = s.expressions)
    (htracked : ∀ c, s.Tracked c → t.Tracked c)
    (hkept : ∀ c, ¬s.Tracked c → t.values.get c = s.values.get c) (c : String) :
    t.values.get c = s.values.get c := by
  induction c using (hw.acyclic.wellFounded_down hw.consistent).induction with
  | _ c ih =>
    by_cases hc : s.Tracked c
    · rw [ht c (htracked c hc), h c hc]
      refine formulaValue_congr hfunctions (by rw [hexpressions]) (hw.admitted c) fun a ha ↦ ?_
      exact ih a (hw.leads_iff.mpr ⟨hc.1, hc.2, ha⟩)
    · exact hkept c hc

/-! ## Rewiring -/

theorem Current.rewire (h : s.Current) (hr : Rewired s t key edges)
    (hadmitted : ∀ c, Expr.Admitted s.options.maxRangeCells s.expressions[c]? (s.asked c))
    (hvalues : t.values = s.values) : t.CurrentBut [key] := by
  intro c hc hmem
  have hne : c ≠ key := fun hkey ↦ hmem (List.mem_singleton.mpr hkey)
  have htracked : s.Tracked c :=
    ⟨mt (hr.mem_refused_iff hne).mpr hc.1, hr.asked_eq hne ▸ hc.2⟩
  have hsame : t.formulaValue c = s.formulaValue c :=
    formulaValue_congr hr.functions_eq (hr.expressions_eq c hne) (hadmitted c)
      fun a _ ↦ by rw [hvalues]
  rw [UpToDate, hsame, hvalues]
  exact h c htracked

/-- The error of a refused cell is filed as a step of the evaluation; the cell itself is not
tracked. -/
theorem Current.currentBut_refuse {e : Option Expr} (h : s.Current) (hw : s.Wired)
    (ht : (s.refuse key e keys).Wired) :
    (s.refuse key e keys).CurrentBut ((s.refuse key e keys).index.recalcOrder key) := by
  -- the sheet in between, with the edges changed and the error not yet filed
  have hr : Rewired s { s.refuse key e keys with values := s.values } key ∅ :=
    { refuse_rewired s key e keys with }
  have hrefused : key ∈ (s.refuse key e keys).refused := Std.ExtTreeMap.mem_insert_self
  exact ((h.rewire hr hw.admitted rfl).mono fun c hc ↦
    List.mem_singleton.mp hc ▸ List.mem_cons_self).store (v := .fault (.circularReference key))
    (ht.withValues s.values) (ht.cascade key).1 fun htracked ↦ absurd hrefused htracked.1

theorem Current.refuse {e : Option Expr} (h : s.Current) (hw : s.Wired)
    (ht : (s.refuse key e keys).Wired) :
    ((s.refuse key e keys).settleDependents key).Current :=
  CurrentBut.settleAll ht (ht.cascade key).2 (h.currentBut_refuse hw ht)

end Sheet

end FormulaSheet
