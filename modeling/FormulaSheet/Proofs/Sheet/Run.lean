import FormulaSheet.Proofs.Dependency.Circle
import FormulaSheet.Proofs.Formula.Wording
import FormulaSheet.Proofs.Grid.LeadingZeros
import FormulaSheet.Sheet.Basic

/-!
# Operations and runs

The operations are the four ways in which a sheet is changed from outside, and a run is a list of
them. An operation that is turned down leaves the sheet as it is.

## What an operation comes down to

There are many ways through an update, but only two things ever happen to a sheet: a formula whose
keys could be listed is installed at a key, or a key is evaluated together with its dependents. The
record of a failure is an installation too, of a formula that reads nothing. `perform_cases` says
so; a property that these two keep is kept by every run, which is `run_induction`, and no later
proof looks into an operation again.
-/

namespace FormulaSheet

namespace Expr

/-! ## Formulas that can be stored -/

/-- The formula has these keys, listing the cells of its ranges misses none, and it cannot be taken
for the error of a refused cell. -/
structure Admitted (limit : UInt64) (e : Option Expr) (keys : Keys) : Prop where
  /-- No range is above the limit, and these are the keys. -/
  keys_eq : formulaKeys limit e = .ok keys
  /-- The ranges are countable. -/
  countable : ∀ e', e = some e' → ∀ r ∈ e'.ranges, r.Countable
  /-- No failure is worded like a circular reference. -/
  not_circular : ∀ e', e = some e' → ∀ cell,
    (EvalFault.circularReference cell).message ∉ e'.failures

variable {limit : UInt64} {e : Option Expr} {keys : Keys}

theorem Admitted.none : Admitted limit none ∅ where
  keys_eq := rfl
  countable _ he := nomatch he
  not_circular _ he := nomatch he

theorem Admitted.failure {message : String}
    (h : ∀ cell, message ≠ (EvalFault.circularReference cell).message) :
    Admitted limit (some (.failure message)) ∅ where
  keys_eq := rfl
  countable e' he r hr := by
    obtain rfl := Option.some.inj he
    rw [ranges] at hr
    exact absurd hr List.not_mem_nil
  not_circular e' he cell hmem := by
    obtain rfl := Option.some.inj he
    exact h cell (List.mem_singleton.mp hmem).symm

theorem Admitted.of_parse {text : String} (h : formulaKeys limit (parse text) = .ok keys) :
    Admitted limit (parse text) keys where
  keys_eq := h
  countable _ he := countable_of_parse he
  not_circular e' he cell hmem := by
    obtain ⟨fault, hfault⟩ := exists_fault_of_parse he hmem
    exact fault.message_ne_circular cell hfault.symm

theorem Admitted.mem_iff (h : Admitted limit e keys) {key : String} :
    key ∈ keys ↔ ∃ e', e = some e' ∧ ∃ a ∈ e'.addresses, a.key = key := by
  cases e with
  | none =>
    obtain rfl := Except.ok.inj h.keys_eq
    simp
  | some e => simp [mem_keys (fun r hr ↦ (h.countable e rfl r hr).ordered) h.keys_eq]

theorem Admitted.evalFormula_congr (h : Admitted limit e keys) (cell : String)
    (functions : Registry) {values values' : Values}
    (hvalues : ∀ key ∈ keys, values.get key = values'.get key) :
    evalFormula ⟨cell, values, functions⟩ e = evalFormula ⟨cell, values', functions⟩ e := by
  cases e with
  | none => rfl
  | some e => exact eval_eq_of_keys h.keys_eq cell functions hvalues

end Expr

namespace Sheet

open Relation

/-! ## Operations -/

/-- What can be done to a sheet. -/
inductive Operation where
  /-- Puts a text into a cell; a range above the limit is treated as the options say. -/
  | update (cell text : String)
  /-- Puts a text into a cell, if it has no range above the limit. -/
  | tryUpdate (cell text : String)
  /-- Puts texts into cells one after the other. -/
  | updateAll (updates : List (String × String))
  /-- Evaluates a cell and all that depend on it. -/
  | recalculate (cell : String)
deriving DecidableEq

/-- The sheet after an operation. -/
def perform (s : Sheet) : Operation → Sheet
  | .update cell text => s.update cell text
  | .tryUpdate cell text =>
    match s.tryUpdate cell text with
    | .ok after => after
    | .error _ => s
  | .updateAll updates => s.updateAll updates
  | .recalculate cell => s.recalculate cell

/-- The sheet after a list of operations, the first of the list performed first. -/
def run (s : Sheet) (ops : List Operation) : Sheet := ops.foldl perform s

theorem run_cons (s : Sheet) (op : Operation) (ops : List Operation) :
    s.run (op :: ops) = (s.perform op).run ops := rfl

theorem run_concat (s : Sheet) (ops : List Operation) (op : Operation) :
    s.run (ops ++ [op]) = (s.run ops).perform op :=
  List.foldl_concat _ _ _ _

/-! ## Updates as installations -/

/-- What is asked for by a formula with these keys at `key`: nothing, if it reads its own cell. -/
def wantedBy (key : String) (keys : Keys) : Keys := if keys.contains key then ∅ else keys

theorem wantedBy_of_not_mem {key : String} {keys : Keys} (h : key ∉ keys) :
    wantedBy key keys = keys :=
  if_neg (mt Std.ExtTreeSet.contains_iff_mem.mp h)

theorem wantedBy_of_mem {key : String} {keys : Keys} (h : key ∈ keys) : wantedBy key keys = ∅ :=
  if_pos (Std.ExtTreeSet.contains_iff_mem.mpr h)

variable {s : Sheet}

theorem tryUpdate_eq_install {cell text : String} {after : Sheet}
    (h : s.tryUpdate cell text = .ok after) :
    ∃ keys, Expr.Admitted s.options.maxRangeCells (Expr.parse text) keys ∧
      after = s.install (Address.canonicalKey cell) (Expr.parse text)
        (wantedBy (Address.canonicalKey cell) keys) := by
  cases hkeys : Expr.formulaKeys s.options.maxRangeCells (Expr.parse text) with
  | error oversized =>
    rw [tryUpdate_of_oversized hkeys] at h
    cases h
  | ok keys =>
    rw [tryUpdate_of_keys hkeys, Except.ok.injEq] at h
    exact ⟨keys, .of_parse hkeys, h.symm⟩

/-- An update goes on with the key of the name, and that is a name for the same cell. -/
theorem tryUpdate_canonicalKey (s : Sheet) (cell text : String) :
    s.tryUpdate (Address.canonicalKey cell) text = s.tryUpdate cell text := by
  simp only [tryUpdate, Address.canonicalKey_canonicalKey]

theorem update_of_ok {cell text : String} {after : Sheet}
    (h : s.tryUpdate cell text = .ok after) : s.update cell text = after := by
  simp only [update, tryUpdate_canonicalKey, h]

theorem update_of_error {cell text : String} {o : OversizedRange}
    (h : s.tryUpdate cell text = .error o) :
    s.update cell text =
      if s.options.surfaceFailures then s.recordFailure (Address.canonicalKey cell) o.message
      else s := by
  simp only [update, tryUpdate_canonicalKey, h]

theorem update_eq_install {cell text : String} {keys : Keys}
    (h : Expr.formulaKeys s.options.maxRangeCells (Expr.parse text) = .ok keys) :
    s.update cell text = s.install (Address.canonicalKey cell) (Expr.parse text)
      (wantedBy (Address.canonicalKey cell) keys) :=
  update_of_ok (tryUpdate_of_keys h)

/-- The record of a failure is stored like any formula that reads nothing. -/
theorem recordFailure_eq_install (s : Sheet) (key message : String) :
    s.recordFailure key message = s.install key (some (.failure message)) ∅ := by
  rw [install, DependencyIndex.wouldCycle_empty, if_neg Bool.false_ne_true,
    DependencyIndex.replace_empty]
  rfl

theorem update_cases (s : Sheet) (cell text : String) :
    s.update cell text = s ∨ ∃ e keys, Expr.Admitted s.options.maxRangeCells e keys ∧
      s.update cell text = s.install (Address.canonicalKey cell) e
        (wantedBy (Address.canonicalKey cell) keys) := by
  cases htry : s.tryUpdate cell text with
  | ok after =>
    obtain ⟨keys, hkeys, rfl⟩ := tryUpdate_eq_install htry
    exact Or.inr ⟨_, keys, hkeys, update_of_ok htry⟩
  | error oversized =>
    rw [update_of_error htry]
    by_cases hsurface : s.options.surfaceFailures = true
    · rw [if_pos hsurface, recordFailure_eq_install]
      refine Or.inr ⟨some (.failure oversized.message), ∅,
        .failure oversized.message_ne_circular, ?_⟩
      rw [wantedBy_of_not_mem Std.ExtTreeSet.not_mem_empty]
    · exact Or.inl (if_neg hsurface)

/-! ## Induction on runs -/

/-- The second sheet is the first after one installation. -/
def Installs (s t : Sheet) : Prop :=
  ∃ key e keys, Expr.Admitted s.options.maxRangeCells e keys ∧
    t = s.install key e (wantedBy key keys)

theorem update_installs (s : Sheet) (cell text : String) :
    ReflTransGen Installs s (s.update cell text) := by
  rcases update_cases s cell text with heq | ⟨e, keys, he, heq⟩
  · rw [heq]
  · rw [heq]
    exact .single ⟨_, e, keys, he, rfl⟩

theorem updateAll_installs (s : Sheet) (updates : List (String × String)) :
    ReflTransGen Installs s (s.updateAll updates) := by
  induction updates generalizing s with
  | nil => exact .refl
  | cons u updates ih => exact (update_installs s u.1 u.2).trans (ih (s.update u.1 u.2))

/-- **What an operation comes down to:** installations, or one evaluation. -/
theorem perform_cases (s : Sheet) (op : Operation) :
    ReflTransGen Installs s (s.perform op) ∨
      ∃ cell, op = .recalculate cell ∧
        s.perform op = s.recalculateKey (Address.canonicalKey cell) := by
  cases op with
  | update cell text => exact Or.inl (update_installs s cell text)
  | tryUpdate cell text =>
    rw [perform]
    split
    next after htry =>
      obtain ⟨keys, he, rfl⟩ := tryUpdate_eq_install htry
      exact Or.inl (.single ⟨_, _, keys, he, rfl⟩)
    next => exact Or.inl .refl
  | updateAll updates => exact Or.inl (updateAll_installs s updates)
  | recalculate cell => exact Or.inr ⟨cell, rfl, rfl⟩

/-- **Induction on runs.** What installations keep, and those evaluations that the run asks for,
holds after the run. -/
theorem run_induction {P : Sheet → Prop} {ops : List Operation}
    (hinstall : ∀ s key e keys, P s → Expr.Admitted s.options.maxRangeCells e keys →
      P (s.install key e (wantedBy key keys)))
    (hrecalculate : ∀ s cell, Operation.recalculate cell ∈ ops → P s →
      P (recalculateKey s (Address.canonicalKey cell)))
    (h : P s) : P (s.run ops) := by
  induction ops generalizing s with
  | nil => exact h
  | cons op ops ih =>
    refine ih (fun s cell hmem ↦ hrecalculate s cell (List.mem_cons_of_mem _ hmem)) ?_
    rcases perform_cases s op with hinstalls | ⟨cell, rfl, heq⟩
    · generalize s.perform op = t at hinstalls ⊢
      induction hinstalls with
      | refl => exact h
      | tail _ hlast ih =>
        obtain ⟨key, e, keys, he, rfl⟩ := hlast
        exact hinstall _ key e keys ih he
    · rw [heq]
      exact hrecalculate s cell List.mem_cons_self h

/-- The names of the cells that an operation is made for. -/
def Operation.names : Operation → List String
  | .update cell _ => [cell]
  | .tryUpdate cell _ => [cell]
  | .updateAll updates => updates.map Prod.fst
  | .recalculate cell => [cell]

section

variable {P : Sheet → Prop} {Q : String → Prop}

theorem updateAll_induction {updates : List (String × String)}
    (hupdate : ∀ s cell text, Q cell → P s → P (s.update cell text))
    (hnames : ∀ u ∈ updates, Q u.1) (h : P s) : P (s.updateAll updates) := by
  induction updates generalizing s with
  | nil => exact h
  | cons u updates ih =>
    rw [List.forall_mem_cons] at hnames
    exact ih hnames.2 (hupdate s u.1 u.2 hnames.1 h)

theorem perform_induction {op : Operation}
    (hupdate : ∀ s cell text, Q cell → P s → P (s.update cell text))
    (hrecalculate : ∀ s cell, Q cell → P s → P (s.recalculate cell))
    (hnames : ∀ cell ∈ op.names, Q cell) (h : P s) : P (s.perform op) := by
  cases op with
  | update cell text => exact hupdate s cell text (hnames cell List.mem_cons_self) h
  | tryUpdate cell text =>
    have hafter := hupdate s cell text (hnames cell List.mem_cons_self) h
    rw [perform]
    split
    next after htry => exact update_of_ok htry ▸ hafter
    next => exact h
  | updateAll updates =>
    exact updateAll_induction hupdate (fun u hu ↦ hnames u.1 (List.mem_map_of_mem hu)) h
  | recalculate cell => exact hrecalculate s cell (hnames cell List.mem_cons_self) h

/-- **Induction on runs for some cells.** What the updates and the evaluations of these cells keep
holds after a run that is made for no others. -/
theorem run_induction_names {ops : List Operation}
    (hupdate : ∀ s cell text, Q cell → P s → P (s.update cell text))
    (hrecalculate : ∀ s cell, Q cell → P s → P (s.recalculate cell))
    (hnames : ∀ op ∈ ops, ∀ cell ∈ op.names, Q cell) (h : P s) : P (s.run ops) := by
  induction ops generalizing s with
  | nil => exact h
  | cons op ops ih =>
    rw [List.forall_mem_cons] at hnames
    exact ih hnames.2 (perform_induction hupdate hrecalculate hnames.1 h)

end

/-! ## What is left alone -/

theorem settleAll_eq (s : Sheet) (keys : List String) :
    s.settleAll keys = { s with values := (s.settleAll keys).values } := by
  induction keys generalizing s with
  | nil => rfl
  | cons key keys ih => exact ih (s.settle key)

theorem index_settleAll (s : Sheet) (keys : List String) :
    (s.settleAll keys).index = s.index := by
  rw [settleAll_eq]

theorem recalculateKey_eq_settleAll (s : Sheet) (key : String) :
    s.recalculateKey key = s.settleAll (key :: s.index.recalcOrder key) := rfl

theorem recalculateKey_eq (s : Sheet) (key : String) :
    s.recalculateKey key = { s with values := (s.recalculateKey key).values } := by
  rw [recalculateKey_eq_settleAll]
  exact settleAll_eq s _

theorem restoreRefused_eq (s : Sheet) :
    ∃ values index refused, s.restoreRefused = { s with values, index, refused } := by
  fun_induction restoreRefused s with
  | case1 s => exact ⟨s.values, s.index, s.refused, rfl⟩
  | case2 s key keys _ ih =>
    obtain ⟨values, index, refused, heq⟩ := ih
    refine ⟨values, index, refused, ?_⟩
    rw [heq, restore, recalculateKey_eq]

theorem install_eq (s : Sheet) (key : String) (e : Option Expr) (wanted : Keys) :
    ∃ values index refused, s.install key e wanted =
      { s with expressions := withExpression s.expressions key e, values, index, refused } := by
  rw [install]
  split
  · rw [settleDependents, settleAll_eq]
    exact restoreRefused_eq _
  · rw [recalculateKey_eq]
    exact restoreRefused_eq _

theorem settings_run (s : Sheet) (ops : List Operation) :
    (s.run ops).functions = s.functions ∧ (s.run ops).options = s.options := by
  refine run_induction (P := fun t ↦ t.functions = s.functions ∧ t.options = s.options)
    (fun t key e keys h _ ↦ ?_) (fun t cell _ h ↦ ?_) ⟨rfl, rfl⟩
  · obtain ⟨values, index, refused, heq⟩ := install_eq t key e (wantedBy key keys)
    rw [heq]
    exact h
  · rw [recalculateKey_eq]
    exact h

theorem functions_run (functions : Registry) (options : SheetOptions) (ops : List Operation) :
    ((fresh functions options).run ops).functions = functions :=
  (settings_run (fresh functions options) ops).1

theorem options_run (functions : Registry) (options : SheetOptions) (ops : List Operation) :
    ((fresh functions options).run ops).options = options :=
  (settings_run (fresh functions options) ops).2

end Sheet

end FormulaSheet
