import FormulaSheet.Proofs.Sheet.Shown

/-!
# The naive cascade

The plainest way to bring a sheet up to date after a change is to evaluate the cell and then, in the
same way, each cell that reads it. On a grid of diamonds that takes exponentially many evaluations,
and most of them read values that are out of date. It ends with the same values as the evaluation in
order, which evaluates each cell once.

## Any order of visits

The cells that read a cell may be visited in any order, and in another one each time that the
cascade comes to the cell. A cascade comes to a cell once along each way that leads there, so
`visits` is asked with the whole way in hand.

## Why the two agree

What `Settles` says of a sheet is met by both: the tracked cells are up to date, the cell that was
asked for has the value of its one evaluation, and all other cells without edges have kept theirs.
That leaves no choice, by `Current.get_eq`. For the naive cascade the first part is the invariant
that the cells that may be out of date are among those that are still to be visited; most visits
leave more of them than there were.
-/

namespace FormulaSheet

namespace Sheet

variable {s t u : Sheet} {key c : String} {cells later path : List String}
  {visits : List String → List String → List String} {arrange : String → List String → List String}

/-! ## The two evaluations -/

/-- Evaluating `cells` one after the other, and after each of them in the same way all that read it,
leads from one sheet to the other. The cascade has come to the cells along `path`, the latest first,
and `visits` arranges the cells that read the latest. -/
inductive NaiveCascade (visits : List String → List String → List String) :
    List String → Sheet → List String → Sheet → Prop
  /-- Nothing is left to be visited. -/
  | done (path : List String) (s : Sheet) : NaiveCascade visits path s [] s
  /-- The first cell is evaluated, then what reads it is visited, then the others. -/
  | visit {path : List String} {s t u : Sheet} {key : String} {cells : List String}
    (down : NaiveCascade visits (key :: path) (s.settle key)
      (visits (key :: path) ((s.settle key).index.dependents key).toList) t)
    (on : NaiveCascade visits path t cells u) : NaiveCascade visits path s (key :: cells) u

/-- Evaluates the cell filed under a key and all that depend on it, where the search for these takes
the cells that read a cell in any arrangement. -/
def recalculateKeyBy (s : Sheet) (arrange : String → List String → List String) (key : String) :
    Sheet :=
  (s.settle key).settleAll (s.index.recalcOrderBy arrange key)

theorem recalculateKey_eq_by (s : Sheet) (key : String) :
    s.recalculateKey key = s.recalculateKeyBy (fun _ cells ↦ cells) key := rfl

/-! ## What an evaluation leaves -/

/-- The second sheet is the first with values that an evaluation from `key` may leave. -/
structure Settles (s t : Sheet) (key : String) : Prop where
  /-- Nothing but values has changed. -/
  eq_withValues : t = { s with values := t.values }
  /-- The tracked cells are up to date. -/
  current : t.Current
  /-- No cell is filed as empty. -/
  filled : t.values.Filled
  /-- The cell has the value that its formula came to at the start. -/
  get_start : t.values.get key = s.formulaValue key
  /-- The other cells without edges have the values that they had. -/
  get_of_ne : ∀ c, ¬s.Tracked c → c ≠ key → t.values.get c = s.values.get c

/-- **This leaves no choice.** -/
theorem Settles.unique (hw : s.Wired) (ht : s.Settles t key) (hu : s.Settles u key) : t = u := by
  have hwu : u.Wired := by
    rw [hu.eq_withValues]
    exact hw.withValues _
  have hkept : ∀ c, ¬u.Tracked c → t.values.get c = u.values.get c := by
    intro c hc
    have hold : ¬s.Tracked c := by
      rw [hu.eq_withValues] at hc
      exact hc
    by_cases hkey : c = key
    · rw [hkey, ht.get_start, hu.get_start]
    · rw [ht.get_of_ne c hold hkey, hu.get_of_ne c hold hkey]
  have htracked : ∀ c, u.Tracked c → t.Tracked c := by
    intro c hc
    rw [hu.eq_withValues] at hc
    rw [ht.eq_withValues]
    exact hc
  have hvalues : t.values = u.values := by
    refine ht.filled.ext hu.filled (hu.current.get_eq hwu ht.current ?_ ?_ htracked hkept)
    · rw [ht.eq_withValues, hu.eq_withValues]
    · rw [ht.eq_withValues, hu.eq_withValues]
  rw [ht.eq_withValues, hu.eq_withValues, hvalues]

theorem Intact.settles_recalculateKeyBy (h : s.Intact)
    (harrange : ∀ cell cells, (arrange cell cells).Perm cells) (key : String) :
    s.Settles (s.recalculateKeyBy arrange key) key where
  eq_withValues := settleAll_eq s (key :: s.index.recalcOrderBy arrange key)
  current := CurrentBut.settleAll h.wired (h.wired.cascadeBy harrange key) (h.current.currentBut _)
  filled := filled_settleAll h.filled (key :: s.index.recalcOrderBy arrange key)
  get_start := by
    have hself : key ∉ s.index.recalcOrderBy arrange key := fun hmem ↦
      ((Links.mem_order_iff _ key harrange key).mp hmem).1 rfl
    rw [recalculateKeyBy, get_settleAll_of_not_mem hself, settle, get_store, if_pos rfl]
  get_of_ne c hc hne := by
    refine get_settleAll_of_not_mem (List.not_mem_cons_of_ne_of_not_mem hne fun hmem ↦ hc ?_)
    exact h.wired.tracked_of_reaches ((Links.mem_order_iff _ key harrange c).mp hmem).2

/-! ## What the naive cascade leaves -/

theorem NaiveCascade.eq_withValues (h : NaiveCascade visits path s cells t) :
    t = { s with values := t.values } := by
  induction h with
  | done => rfl
  | visit _ _ ihdown ihon =>
    rw [ihon, ihdown]
    rfl

theorem NaiveCascade.wired (h : NaiveCascade visits path s cells t) (hw : s.Wired) : t.Wired := by
  rw [h.eq_withValues]
  exact hw.withValues _

theorem NaiveCascade.filled (h : NaiveCascade visits path s cells t) (hf : s.values.Filled) :
    t.values.Filled := by
  induction h with
  | done => exact hf
  | visit _ _ ihdown ihon => exact ihon (ihdown (filled_store hf _ _))

theorem mem_visits_iff (hvisits : ∀ path cells, (visits path cells).Perm cells) :
    c ∈ visits path (s.index.dependents key).toList ↔ s.index.dependentLinks.Leads key c :=
  (hvisits _ _).mem_iff.trans Std.ExtTreeSet.mem_toList

/-- **The invariant.** The cells that may be out of date are among those still to be visited. -/
theorem NaiveCascade.currentBut (hvisits : ∀ path cells, (visits path cells).Perm cells)
    (h : NaiveCascade visits path s cells t) (hw : s.Wired) (hbut : s.CurrentBut (cells ++ later)) :
    t.CurrentBut later := by
  induction h generalizing later with
  | done => exact hbut
  | @visit path s t u key cells down on ihdown ihon =>
    refine ihon (down.wired (hw.withValues _)) (ihdown (hw.withValues _) ?_)
    refine CurrentBut.store (hbut.mono fun c hc ↦ ?_) hw (fun c hc ↦ ?_) fun _ ↦ rfl
    · rcases List.mem_cons.mp hc with rfl | hc
      · exact List.mem_cons_self
      · exact List.mem_cons_of_mem _ (List.mem_append_right _ hc)
    · exact List.mem_append_left _ ((mem_visits_iff hvisits).mpr hc)

theorem NaiveCascade.get_eq (hvisits : ∀ path cells, (visits path cells).Perm cells)
    (h : NaiveCascade visits path s cells t)
    (hc : ∀ a ∈ cells, c ≠ a ∧ ¬s.index.dependentLinks.Reaches a c) :
    t.values.get c = s.values.get c := by
  induction h with
  | done => rfl
  | @visit path s t u key cells down on ihdown ihon =>
    obtain ⟨⟨hne, hreach⟩, hcells⟩ := List.forall_mem_cons.mp hc
    have hdown : t.values.get c = s.values.get c := by
      rw [ihdown fun a ha ↦ ?_, settle, get_store, if_neg hne]
      have hlead : s.index.dependentLinks.Leads key a := (mem_visits_iff hvisits).mp ha
      refine ⟨?_, fun hac ↦ hreach (.head hlead hac)⟩
      rintro rfl
      exact hreach (.single hlead)
    have hindex : t.index = s.index := by rw [down.eq_withValues]; rfl
    rw [ihon (by rwa [hindex]), hdown]

theorem NaiveCascade.settles (hvisits : ∀ path cells, (visits path cells).Perm cells)
    (h : NaiveCascade visits path s [key] t) (hs : s.Intact) : s.Settles t key where
  eq_withValues := h.eq_withValues
  current c hc := h.currentBut hvisits hs.wired (hs.current.currentBut ([key] ++ []))
    c hc List.not_mem_nil
  filled := h.filled hs.filled
  get_start := by
    cases h with
    | visit down on =>
      cases on
      rw [down.get_eq hvisits fun a ha ↦ ?_, settle, get_store, if_pos rfl]
      -- the cell is not among what it reaches, for the index has no circle
      have hlead : s.index.dependentLinks.Leads key a := (mem_visits_iff hvisits).mp ha
      refine ⟨?_, fun hback ↦ hs.wired.acyclic key (.head hlead hback)⟩
      rintro rfl
      exact hs.wired.acyclic key (.single hlead)
  get_of_ne c hc hne := by
    refine h.get_eq hvisits fun a ha ↦ ?_
    obtain rfl := List.mem_singleton.mp ha
    exact ⟨hne, fun hreach ↦ hc (hs.wired.tracked_of_reaches hreach)⟩

/-! ## The naive cascade ends -/

/-- On an index without circles a naive cascade comes to an end, whatever it visits first. -/
theorem exists_naiveCascade (hvisits : ∀ path cells, (visits path cells).Perm cells)
    {index : DependencyIndex} (hacyclic : index.Acyclic) (key : String) :
    ∀ (path : List String) (s : Sheet), s.index = index →
      ∃ t, NaiveCascade visits path s [key] t := by
  induction key using hacyclic.wellFounded_up.induction with
  | _ key ih =>
    -- a list of cells that read `key` is gone through from left to right
    have hlist : ∀ (cells path : List String) (s : Sheet),
        (∀ a ∈ cells, index.dependentLinks.Leads key a) → s.index = index →
          ∃ t, NaiveCascade visits path s cells t := by
      intro cells
      induction cells with
      | nil => exact fun path s _ _ ↦ ⟨s, .done path s⟩
      | cons a cells ihcells =>
        intro path s hleads hindex
        obtain ⟨ha, hcells⟩ := List.forall_mem_cons.mp hleads
        obtain ⟨t, hvisit⟩ := ih a ha path s hindex
        cases hvisit with
        | visit down on =>
          cases on
          have hindex' : t.index = index := by rw [down.eq_withValues]; exact hindex
          obtain ⟨u, hrest⟩ := ihcells path t hcells hindex'
          exact ⟨u, .visit down hrest⟩
    intro path s hindex
    obtain ⟨t, hdown⟩ := hlist (visits (key :: path) ((s.settle key).index.dependents key).toList)
      (key :: path) (s.settle key) (fun a ha ↦ hindex ▸ (mem_visits_iff hvisits).mp ha) hindex
    exact ⟨t, .visit hdown (.done path t)⟩

/-- **The naive cascade and the evaluation in order agree.** -/
theorem Intact.naiveCascade_iff (h : s.Intact)
    (hvisits : ∀ path cells, (visits path cells).Perm cells)
    (harrange : ∀ cell cells, (arrange cell cells).Perm cells) :
    NaiveCascade visits path s [key] t ↔ t = s.recalculateKeyBy arrange key := by
  have hby := h.settles_recalculateKeyBy harrange key
  constructor
  · intro hnaive
    exact (hnaive.settles hvisits h).unique h.wired hby
  · rintro rfl
    obtain ⟨t, hnaive⟩ := exists_naiveCascade hvisits h.wired.acyclic key path s rfl
    rwa [← (hnaive.settles hvisits h).unique h.wired hby]

/-- **The naive cascade is the evaluation in order.** After every run, a naive cascade from any cell
ends, and with the sheet that the evaluation in order leaves, whatever it visits first; and this
sheet is the same for each arrangement of the search for the cells to be evaluated. -/
theorem run_naiveCascade_iff (functions : Registry) (options : SheetOptions) (ops : List Operation)
    (cell : String) (hvisits : ∀ path cells, (visits path cells).Perm cells)
    (harrange : ∀ cell cells, (arrange cell cells).Perm cells) :
    let s := (fresh functions options).run ops
    (∀ t, NaiveCascade visits [] s [Address.canonicalKey cell] t ↔ t = s.recalculate cell) ∧
      s.recalculateKeyBy arrange (Address.canonicalKey cell) = s.recalculate cell := by
  intro s
  have h : s.Intact := intact_run functions options ops
  have hnaive : ∀ t, NaiveCascade visits [] s [Address.canonicalKey cell] t ↔
      t = s.recalculate cell := by
    intro t
    rw [recalculate, recalculateKey_eq_by]
    exact h.naiveCascade_iff hvisits fun _ _ ↦ List.Perm.refl _
  refine ⟨hnaive, ?_⟩
  rw [← hnaive]
  exact (h.naiveCascade_iff hvisits harrange).mpr rfl

/-- In the example the refused cell is evaluated, and what depends on it is visited backwards. -/
theorem naiveCascade_circle :
    let s := (fresh .empty {}).run circle
    "B1" ∈ s.refusedCells ∧ s.index.dependentLinks.Leads "B1" "A1" ∧
      (∀ t, NaiveCascade (fun _ cells ↦ cells.reverse) [] s ["B1"] t ↔ t = s.recalculate "B1") ∧
      s.recalculateKeyBy (fun _ cells ↦ cells.reverse) "B1" = s.recalculate "B1" := by
  intro s
  have hcells : s.refusedCells = ["B1"] := refusedCells_circle .empty {}
  have hvisits : ∀ _ cells : List String, cells.reverse.Perm cells := fun _ cells ↦
    cells.reverse_perm
  have harrange : ∀ (_ : String) (cells : List String), cells.reverse.Perm cells := fun _ cells ↦
    cells.reverse_perm
  have hagree := run_naiveCascade_iff .empty {} circle "B1" hvisits harrange
  rw [canonicalKey_b1] at hagree
  refine ⟨?_, leads_circle .empty {}, hagree⟩
  rw [hcells]
  exact List.mem_singleton_self _

end Sheet

end FormulaSheet
