import FormulaSheet.Proofs.Sheet.Naive
import FormulaSheet.Proofs.Sheet.Names

/-!
# Operations in any arrangement

A search for the cells that depend on a cell may take the cells that read one and the same cell in
any order, and it lists them in another order then. An update searches for its own cell, and once
more for each refused cell that it restores, and nothing says that all of these searches follow one
arrangement.

So the steps of an operation are spelled out here as relations that leave the arrangement of each
search open, up to runs. They turn out to be functions: whatever the arrangements, a run ends, and
in the sheet that `run` gives.

## Why the arrangement does not matter

When a search begins, the cells that may be out of date are all among those that it will list. In
each arrangement the list is a cascade, so they are up to date at the end, while the cells that are
not tracked are never listed and keep their values. By `Current.get_eq` this leaves no choice.

## Names and keys

An evaluation is asked for by the name of a cell, and brings it to its key. Within an operation the
name is a key already, and the relations say that it is brought to its key all the same. For a sheet
whose keys on file are canonical this makes no difference.
-/

namespace FormulaSheet

namespace Sheet

open Address (canonicalKey)

/-! ## The steps -/

/-- All cells that depend on the one filed under a key are evaluated, in some arrangement of the
search for them. -/
def SettlesDependents (s : Sheet) (key : String) (t : Sheet) : Prop :=
  ∃ arrange : String → List String → List String, (∀ cell cells, (arrange cell cells).Perm cells) ∧
    t = s.settleAll (s.index.recalcOrderBy arrange key)

/-- A cell and all that depend on it are evaluated. -/
def Recalculates (s : Sheet) (cell : String) (t : Sheet) : Prop :=
  (s.settle (canonicalKey cell)).SettlesDependents (canonicalKey cell) t

/-- Refused cells are restored as long as there is one that can be. -/
inductive Restores : Sheet → Sheet → Prop
  /-- There is none. -/
  | done {s : Sheet} (hnone : s.restorable? = none) : Restores s s
  /-- The first one, by key, is given its edges and is evaluated. -/
  | restore {s t u : Sheet} {key : String} {keys : Keys} (hsome : s.restorable? = some (key, keys))
    (evaluated : (s.connect key keys).Recalculates key t) (on : Restores t u) : Restores s u

/-- A formula that asks for the cells `wanted` is stored, and what depends on it is evaluated. -/
inductive Stores (s : Sheet) (key : String) (e : Option Expr) (wanted : Keys) : Sheet → Prop
  /-- The cells that it asks for close no circle. -/
  | accepted {t u : Sheet} (hcheck : s.index.wouldCycle key wanted = false)
    (evaluated : (s.accept key e wanted).Recalculates key t) (on : t.Restores u) :
    Stores s key e wanted u
  /-- They would close one. -/
  | refused {t u : Sheet} (hcheck : s.index.wouldCycle key wanted = true)
    (evaluated : (s.refuse key e wanted).SettlesDependents key t) (on : t.Restores u) :
    Stores s key e wanted u

/-- A text is put into a cell, unless its formula has a range above the limit. -/
inductive TriesUpdate (s : Sheet) (cell text : String) : Except OversizedRange Sheet → Prop
  /-- The formula is stored. -/
  | stored {keys : Keys} {t : Sheet}
    (hkeys : Expr.formulaKeys s.options.maxRangeCells (Expr.parse text) = .ok keys)
    (on : s.Stores (canonicalKey cell) (Expr.parse text) (wantedBy (canonicalKey cell) keys) t) :
    TriesUpdate s cell text (.ok t)
  /-- It has such a range. -/
  | failed {o : OversizedRange}
    (hkeys : Expr.formulaKeys s.options.maxRangeCells (Expr.parse text) = .error o) :
    TriesUpdate s cell text (.error o)

/-- The sheet with a failure for the formula of a cell, before anything is evaluated. -/
def record (s : Sheet) (key message : String) : Sheet :=
  { s with
    expressions := s.expressions.insert key (.failure message)
    index := s.index.clear key
    refused := s.refused.erase key }

/-- A text is put into a cell, and a range above the limit is treated as the options say. -/
inductive Updates (s : Sheet) (cell text : String) : Sheet → Prop
  /-- There is no such range. -/
  | stored {t : Sheet} (htry : s.TriesUpdate (canonicalKey cell) text (.ok t)) :
    Updates s cell text t
  /-- The failure is stored. -/
  | recorded {o : OversizedRange} {t u : Sheet}
    (htry : s.TriesUpdate (canonicalKey cell) text (.error o))
    (hsurface : s.options.surfaceFailures = true)
    (evaluated : (s.record (canonicalKey cell) o.message).Recalculates (canonicalKey cell) t)
    (on : t.Restores u) : Updates s cell text u
  /-- Nothing is changed. -/
  | unchanged {o : OversizedRange} (htry : s.TriesUpdate (canonicalKey cell) text (.error o))
    (hquiet : s.options.surfaceFailures = false) : Updates s cell text s

/-- One step after the other, one for each element of a list. -/
inductive Along {α : Type} (step : Sheet → α → Sheet → Prop) : Sheet → List α → Sheet → Prop
  /-- Nothing is left. -/
  | nil (s : Sheet) : Along step s [] s
  /-- The step for the first element, then the others. -/
  | cons {s t u : Sheet} {a : α} {as : List α} (first : step s a t) (on : Along step t as u) :
    Along step s (a :: as) u

/-- An operation is performed. -/
inductive Performs (s : Sheet) : Operation → Sheet → Prop
  /-- A text is put into a cell. -/
  | update {cell text : String} {t : Sheet} (h : s.Updates cell text t) :
    Performs s (.update cell text) t
  /-- A text is put into a cell, and has no range above the limit. -/
  | accepted {cell text : String} {t : Sheet} (h : s.TriesUpdate cell text (.ok t)) :
    Performs s (.tryUpdate cell text) t
  /-- The failure is reported. -/
  | failed {cell text : String} {o : OversizedRange} (h : s.TriesUpdate cell text (.error o)) :
    Performs s (.tryUpdate cell text) s
  /-- Texts are put into cells one after the other. -/
  | updateAll {updates : List (String × String)} {t : Sheet}
    (h : Along (fun s u t ↦ s.Updates u.1 u.2 t) s updates t) : Performs s (.updateAll updates) t
  /-- A cell and all that depend on it are evaluated. -/
  | recalculate {cell : String} {t : Sheet} (h : s.Recalculates cell t) :
    Performs s (.recalculate cell) t

variable {s t u : Sheet} {key cell text c : String} {cells cells' : List String} {e : Option Expr}
  {keys : Keys}

/-! ## One search -/

/-- Two evaluations that come to tracked cells only and leave nothing out of date agree. -/
theorem Wired.settleAll_congr (hw : s.Wired) (hf : s.values.Filled)
    (htracked : ∀ c ∈ cells, s.Tracked c) (htracked' : ∀ c ∈ cells', s.Tracked c)
    (h : (s.settleAll cells).Current) (h' : (s.settleAll cells').Current) :
    s.settleAll cells = s.settleAll cells' := by
  have hiff : ∀ cells c, (s.settleAll cells).Tracked c ↔ s.Tracked c := by
    intro cells c
    rw [settleAll_eq]
    exact Iff.rfl
  have hkept : ∀ c, ¬(s.settleAll cells').Tracked c →
      (s.settleAll cells).values.get c = (s.settleAll cells').values.get c := by
    intro c hc
    rw [hiff] at hc
    rw [get_settleAll_of_not_mem (mt (htracked c) hc),
      get_settleAll_of_not_mem (mt (htracked' c) hc)]
  have hvalues : (s.settleAll cells).values = (s.settleAll cells').values := by
    apply (filled_settleAll hf cells).ext (filled_settleAll hf cells')
    apply h'.get_eq (hw.settleAll cells') h ?_ ?_ ?_ hkept
    · rw [settleAll_eq s cells, settleAll_eq s cells']
    · rw [settleAll_eq s cells, settleAll_eq s cells']
    · exact fun c hc ↦ (hiff cells c).mpr ((hiff cells' c).mp hc)
  rw [settleAll_eq s cells, settleAll_eq s cells', hvalues]

/-- **One search.** If only cells that it will list may be out of date, the arrangement makes no
difference. -/
theorem settlesDependents_iff (hw : s.Wired) (hf : s.values.Filled)
    (hbut : s.CurrentBut (s.index.recalcOrder key)) :
    s.SettlesDependents key t ↔ t = s.settleDependents key := by
  constructor
  · rintro ⟨arrange, harrange, rfl⟩
    have hmem : ∀ c, c ∈ s.index.recalcOrderBy arrange key ↔ c ∈ s.index.recalcOrder key :=
      fun c ↦ (Links.mem_order_iff _ key harrange c).trans mem_recalcOrder_iff.symm
    have htracked : ∀ c ∈ s.index.recalcOrder key, s.Tracked c := fun c hc ↦
      hw.tracked_of_reaches (mem_recalcOrder_iff.mp hc).2
    apply hw.settleAll_congr hf (fun c hc ↦ htracked c ((hmem c).mp hc)) htracked
    -- both lists are cascades of the same cells
    · apply CurrentBut.settleAll hw (hw.cascadeBy harrange key).2
      exact hbut.mono fun c hc ↦ (hmem c).mpr hc
    · exact CurrentBut.settleAll hw (hw.cascade key).2 hbut
  · rintro rfl
    exact ⟨fun _ cells ↦ cells, fun _ cells ↦ List.Perm.refl cells, rfl⟩

theorem recalculates_iff (hw : s.Wired) (hf : s.values.Filled)
    (hbut : s.CurrentBut [canonicalKey cell]) :
    s.Recalculates cell t ↔ t = s.recalculate cell := by
  apply settlesDependents_iff (hw.withValues _) (filled_store hf _ _)
  apply CurrentBut.store _ hw (hw.cascade _).1 fun _ ↦ rfl
  exact hbut.mono fun c hc ↦ List.mem_singleton.mp hc ▸ List.mem_cons_self

theorem Intact.recalculates_iff (h : s.Intact) {edges : Keys} (hr : Rewired s u key edges)
    (hw : u.Wired) (hvalues : u.values = s.values) (hkey : canonicalKey key = key) :
    u.Recalculates key t ↔ t = u.recalculateKey key := by
  have hbut : u.CurrentBut [canonicalKey key] := by
    rw [hkey]
    exact h.current.rewire hr h.wired.admitted hvalues
  rw [Sheet.recalculates_iff hw (hvalues ▸ h.filled) hbut, recalculate, hkey]

/-! ## Refused cells -/

theorem Intact.recalculates_connect_iff (h : s.Intact) (hkey : canonicalKey key = key)
    (hsome : s.restorable? = some (key, keys)) :
    (s.connect key keys).Recalculates key t ↔ t = s.restore key keys := by
  have hw := h.wired.connect (getElem?_refused_of_restorable hsome) (wouldCycle_of_restorable hsome)
  rw [h.recalculates_iff (connect_rewired s key keys) hw rfl hkey, restore_eq]

/-- **The loop that restores refused cells** comes to the same end in every arrangement. -/
theorem Intact.restores_iff (h : s.Intact) (hkeys : ∀ c ∈ s.refused, canonicalKey c = c) :
    s.Restores t ↔ t = s.restoreRefused := by
  constructor
  · intro hrestores
    induction hrestores with
    | done hnone => exact (restoreRefused_of_none hnone).symm
    | restore hsome evaluated on ih =>
      have hkey := hkeys _ (mem_refused_of_restorable hsome)
      obtain rfl := (h.recalculates_connect_iff hkey hsome).mp evaluated
      rw [restoreRefused_of_some hsome]
      exact ih (h.restore hsome) fun c hc ↦ hkeys c (mem_refused_of_restore hc).2
  · rintro rfl
    fun_induction Sheet.restoreRefused s with
    | case1 s hnone => exact .done hnone
    | case2 s key keys hsome ih =>
      have hkey := hkeys key (mem_refused_of_restorable hsome)
      have hevaluated := (h.recalculates_connect_iff hkey hsome).mpr rfl
      apply Restores.restore hsome hevaluated
      exact ih (h.restore hsome) fun c hc ↦ hkeys c (mem_refused_of_restore hc).2

/-! ## Updates -/

theorem stores_iff_of_wouldCycle {wanted : Keys} (hcheck : s.index.wouldCycle key wanted = true) :
    s.Stores key e wanted u ↔
      ∃ t, (s.refuse key e wanted).SettlesDependents key t ∧ t.Restores u := by
  constructor
  · rintro (⟨hfree, -, -⟩ | ⟨-, hevaluated, hon⟩)
    · rw [hcheck] at hfree
      cases hfree
    · exact ⟨_, hevaluated, hon⟩
  · rintro ⟨t, hevaluated, hon⟩
    exact .refused hcheck hevaluated hon

theorem stores_iff_of_not_wouldCycle {wanted : Keys}
    (hcheck : s.index.wouldCycle key wanted = false) :
    s.Stores key e wanted u ↔ ∃ t, (s.accept key e wanted).Recalculates key t ∧ t.Restores u := by
  constructor
  · rintro (⟨-, hevaluated, hon⟩ | ⟨hcircle, -, -⟩)
    · exact ⟨_, hevaluated, hon⟩
    · rw [hcheck] at hcircle
      cases hcircle
  · rintro ⟨t, hevaluated, hon⟩
    exact .accepted hcheck hevaluated hon

/-- **One installation** comes to the same end in every arrangement. -/
theorem Intact.stores_iff (h : s.Intact) (hkeys : ∀ c ∈ s.refused, canonicalKey c = c)
    (hkey : canonicalKey key = key) (he : Expr.Admitted s.options.maxRangeCells e keys) :
    s.Stores key e (wantedBy key keys) u ↔ u = s.install key e (wantedBy key keys) := by
  -- the installation adds no refused cell but its own
  have hothers : ∀ c ∈ s.refused.erase key, canonicalKey c = c := fun c hc ↦
    hkeys c ((mem_erase_key _ _ _).mp hc).2
  by_cases hcheck : s.index.wouldCycle key (wantedBy key keys) = true
  · have hw := h.wired.refuse he hcheck
    have hf : (s.refuse key e (wantedBy key keys)).values.Filled :=
      filled_store h.filled key (.fault (.circularReference key))
    have hrefused : ∀ c ∈ ((s.refuse key e (wantedBy key keys)).settleDependents key).refused,
        canonicalKey c = c := by
      intro c hc
      rw [settleDependents, refused_settleAll, Sheet.refuse, mem_insert_key] at hc
      rcases hc with rfl | hc
      · exact hkey
      · exact hothers c hc
    rw [stores_iff_of_wouldCycle hcheck, install_of_wouldCycle hcheck]
    simp only [settlesDependents_iff hw hf (h.current.currentBut_refuse h.wired hw), exists_eq_left]
    exact (h.refuse he hcheck).restores_iff hrefused
  · rw [Bool.not_eq_true] at hcheck
    have hw := h.wired.accept he hcheck
    have hrefused : ∀ c ∈ ((s.accept key e (wantedBy key keys)).recalculateKey key).refused,
        canonicalKey c = c := by
      intro c hc
      rw [refused_recalculateKey] at hc
      exact hothers c hc
    rw [stores_iff_of_not_wouldCycle hcheck, install_of_not_wouldCycle hcheck]
    simp only [h.recalculates_iff (accept_rewired s key e _) hw rfl hkey, exists_eq_left]
    exact (h.accept he hcheck).restores_iff hrefused

theorem Orderly.canonicalKey_of_refused (h : s.Orderly) :
    ∀ c ∈ s.refused, canonicalKey c = c :=
  fun c hc ↦ h.filed.canonical c (h.intact.wired.mem_expressions_of_refused hc)

theorem Orderly.triesUpdate_iff (h : s.Orderly) {after : Except OversizedRange Sheet} :
    s.TriesUpdate cell text after ↔ after = s.tryUpdate cell text := by
  have hstores : ∀ {keys t}, Expr.formulaKeys s.options.maxRangeCells (Expr.parse text) = .ok keys →
      (s.Stores (canonicalKey cell) (Expr.parse text) (wantedBy (canonicalKey cell) keys) t ↔
        t = s.install (canonicalKey cell) (Expr.parse text) (wantedBy (canonicalKey cell) keys)) :=
    fun hkeys ↦ h.intact.stores_iff h.canonicalKey_of_refused
      (Address.canonicalKey_canonicalKey cell) (.of_parse hkeys)
  constructor
  · rintro (⟨hkeys, hon⟩ | hkeys)
    · rw [tryUpdate_of_keys hkeys, (hstores hkeys).mp hon]
      rfl
    · rw [tryUpdate_of_oversized hkeys]
  · rintro rfl
    cases hkeys : Expr.formulaKeys s.options.maxRangeCells (Expr.parse text) with
    | ok keys =>
      rw [tryUpdate_of_keys hkeys]
      exact .stored hkeys ((hstores hkeys).mpr rfl)
    | error o =>
      rw [tryUpdate_of_oversized hkeys]
      exact .failed hkeys

theorem record_eq_accept (s : Sheet) (key message : String) :
    s.record key message = s.accept key (some (.failure message)) ∅ := by
  rw [accept, DependencyIndex.replace_empty]
  rfl

theorem Orderly.recordFailure_iff (h : s.Orderly) {o : OversizedRange}
    (hkey : canonicalKey key = key) :
    (∃ t, (s.record key o.message).Recalculates key t ∧ t.Restores u) ↔
      u = s.recordFailure key o.message := by
  have hwanted : wantedBy key ∅ = ∅ := wantedBy_of_not_mem Std.ExtTreeSet.not_mem_empty
  have hstores := h.intact.stores_iff (u := u) h.canonicalKey_of_refused hkey
    (.failure o.message_ne_circular)
  rw [hwanted, stores_iff_of_not_wouldCycle (DependencyIndex.wouldCycle_empty _ _)] at hstores
  rw [record_eq_accept, recordFailure_eq_install]
  exact hstores

theorem Orderly.updates_iff (h : s.Orderly) :
    s.Updates cell text t ↔ t = s.update cell text := by
  have hrecord : ∀ {o : OversizedRange} {u}, _ ↔
      u = s.recordFailure (canonicalKey cell) o.message :=
    h.recordFailure_iff (Address.canonicalKey_canonicalKey cell)
  constructor
  · rintro (htry | ⟨htry, hsurface, hevaluated, hon⟩ | ⟨htry, hquiet⟩)
    all_goals rw [h.triesUpdate_iff, tryUpdate_canonicalKey] at htry
    · exact (update_of_ok htry.symm).symm
    · rw [update_of_error htry.symm, if_pos hsurface]
      exact hrecord.mp ⟨_, hevaluated, hon⟩
    · rw [update_of_error htry.symm, if_neg (Bool.eq_false_iff.mp hquiet)]
  · rintro rfl
    -- the attempt goes by the key, and comes to what it would come to by the name
    have htry := h.triesUpdate_iff.mpr (Eq.refl (s.tryUpdate (canonicalKey cell) text))
    rw [tryUpdate_canonicalKey] at htry
    cases hafter : s.tryUpdate cell text with
    | ok after =>
      rw [hafter] at htry
      rw [update_of_ok hafter]
      exact .stored htry
    | error o =>
      rw [hafter] at htry
      rw [update_of_error hafter]
      split
      next hsurface =>
        obtain ⟨t, hevaluated, hon⟩ := hrecord.mpr rfl
        exact .recorded htry hsurface hevaluated hon
      next hquiet => exact .unchanged htry (Bool.eq_false_iff.mpr hquiet)

/-! ## Runs -/

theorem along_iff {α : Type} {P : Sheet → Prop} {step : Sheet → α → Sheet → Prop}
    {f : Sheet → α → Sheet} (hstep : ∀ s a t, P s → (step s a t ↔ t = f s a))
    (hkeep : ∀ s a, P s → P (f s a)) {as : List α} (h : P s) :
    Along step s as t ↔ t = as.foldl f s := by
  induction as generalizing s with
  | nil =>
    constructor
    · rintro ⟨⟩
      rfl
    · rintro rfl
      exact .nil _
  | cons a as ih =>
    rw [List.foldl_cons, ← ih (hkeep s a h)]
    constructor
    · rintro (_ | ⟨hfirst, hon⟩)
      exact (hstep s a _ h).mp hfirst ▸ hon
    · exact .cons ((hstep s a _ h).mpr rfl)

theorem Orderly.updatesAll_iff (h : s.Orderly) {updates : List (String × String)} :
    Along (fun s u t ↦ s.Updates u.1 u.2 t) s updates t ↔ t = s.updateAll updates := by
  have hstep : ∀ (s : Sheet) (u : String × String) (t : Sheet), s.Orderly →
      (s.Updates u.1 u.2 t ↔ t = s.update u.1 u.2) := fun s u t h ↦ h.updates_iff
  exact along_iff hstep (fun s u h ↦ h.update u.1 u.2) h

/-- **One operation** comes to one sheet. -/
theorem Orderly.performs_iff (h : s.Orderly) {op : Operation} :
    s.Performs op t ↔ t = s.perform op := by
  have hrecalculates : ∀ {cell}, s.Recalculates cell t ↔ t = s.recalculate cell :=
    Sheet.recalculates_iff h.intact.wired h.intact.filled (h.intact.current.currentBut _)
  constructor
  · rintro (hupdates | htry | htry | halong | hevaluated)
    · exact h.updates_iff.mp hupdates
    · rw [perform, ← h.triesUpdate_iff.mp htry]
    · rw [perform, ← h.triesUpdate_iff.mp htry]
    · exact h.updatesAll_iff.mp halong
    · exact hrecalculates.mp hevaluated
  · rintro rfl
    cases op with
    | update cell text => exact .update (h.updates_iff.mpr rfl)
    | tryUpdate cell text =>
      rw [perform]
      split
      next hafter => exact .accepted (h.triesUpdate_iff.mpr hafter.symm)
      next hafter => exact .failed (h.triesUpdate_iff.mpr hafter.symm)
    | updateAll updates => exact .updateAll (h.updatesAll_iff.mpr rfl)
    | recalculate cell => exact .recalculate (hrecalculates.mpr rfl)

/-- **Runs in any arrangement.** Whatever the arrangement of each search for the cells that depend
on a cell, a run on empty cells ends, and in the sheet that `run` gives. -/
theorem runs_iff (functions : Registry) (options : SheetOptions) (ops : List Operation) :
    Along Performs (fresh functions options) ops t ↔ t = (fresh functions options).run ops := by
  have hkeep : ∀ (s : Sheet) (op : Operation), s.Orderly → (s.perform op).Orderly :=
    fun s op h ↦ h.run [op]
  exact along_iff (fun s op t h ↦ h.performs_iff) hkeep (orderly_run functions options [])

end Sheet

end FormulaSheet
