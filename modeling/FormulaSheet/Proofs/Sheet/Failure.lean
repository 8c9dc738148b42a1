import FormulaSheet.Proofs.Formula.Grammar
import FormulaSheet.Proofs.Formula.Limit
import FormulaSheet.Proofs.Sheet.Frame

/-!
# Updates that fail

There is one reason for which an update fails, a range above the limit, and it is found before
anything has been changed. So a failed update changes nothing, unless the options ask for failures
to be recorded. Then the failure is stored by steps of its own, and they are those of an update: the
cell is left as if its text had been read as the error formula with the wording of the failure.

## The way of an update

`tryUpdate` reads a text and then has its formula only. `put` is what it does from there on, so that
the two ways of storing an error formula can be compared although no text is read as the wording of
this failure.

## An example

One of two cells that would read each other is refused, and is then given a range of two cells where
one is the limit.
-/

namespace FormulaSheet

namespace Sheet

variable {s : Sheet} {key cell text message : String} {o : OversizedRange}

/-! ## Updates with a formula -/

/-- Puts a formula into a cell, in the way in which an update puts that of its text. -/
def put (s : Sheet) (cell : String) (e : Option Expr) : Except OversizedRange Sheet :=
  let key := Address.canonicalKey cell
  match Expr.formulaKeys s.options.maxRangeCells e with
  | .error oversized => .error oversized
  | .ok keys => .ok (s.install key e (wantedBy key keys))

theorem tryUpdate_eq_put (s : Sheet) (cell text : String) :
    s.tryUpdate cell text = s.put cell (Expr.parse text) := rfl

/-- The two ways of storing an error formula lead to the same sheet. -/
theorem put_failure (s : Sheet) (cell message : String) :
    s.put cell (some (.failure message))
      = .ok (s.recordFailure (Address.canonicalKey cell) message) := by
  rw [recordFailure_eq_install]
  exact congrArg Except.ok
    (congrArg (s.install _ _) (wantedBy_of_not_mem Std.ExtTreeSet.not_mem_empty))

/-! ## When an update fails -/

theorem tryUpdate_eq_error_iff :
    s.tryUpdate cell text = .error o ↔
      Expr.formulaKeys s.options.maxRangeCells (Expr.parse text) = .error o := by
  cases hkeys : Expr.formulaKeys s.options.maxRangeCells (Expr.parse text) with
  | error oversized => rw [tryUpdate_of_oversized hkeys, Except.error.injEq, Except.error.injEq]
  | ok keys => simp [tryUpdate_of_keys hkeys]

theorem oversized_iff (s : Sheet) (cell text : String) :
    Expr.Oversized s.options.maxRangeCells (Expr.parse text) ↔
      ∃ o, s.tryUpdate cell text = .error o := by
  simp only [tryUpdate_eq_error_iff]
  exact Expr.oversized_parse_iff

theorem perform_of_error (h : s.tryUpdate cell text = .error o) :
    s.perform (.tryUpdate cell text) = s := by
  simp only [perform, h]

/-! ## Recorded failures -/

/-- The second sheet is the first with a failure recorded at a key, and with all that this calls
for. -/
structure Recorded (s t : Sheet) (key message : String) : Prop where
  /-- The formula of the cell is the failure, and the others are kept. -/
  expressions_eq : ∀ c, t.expressions[c]? =
    if c = key then some (.failure message) else s.expressions[c]?
  /-- The cell shows it. -/
  value_eq : t.values.get key = .error message
  /-- Its edges are dropped. -/
  precedents_eq : t.index.precedents key = ∅
  /-- Its refusal is forgotten. -/
  not_refused : key ∉ t.refused
  /-- Tracked cells are up to date, those that depend on the cell among them. -/
  current : t.Current
  /-- No cell stays refused that could be given its edges. -/
  exact : t.Exact

theorem Intact.recorded (h : s.Intact) (key : String)
    (hmessage : ∀ c, message ≠ (EvalFault.circularReference c).message) :
    Recorded s (s.recordFailure key message) key message := by
  have he : Expr.Admitted s.options.maxRangeCells (some (.failure message)) ∅ := .failure hmessage
  have hwanted : wantedBy key ∅ = ∅ := wantedBy_of_not_mem Std.ExtTreeSet.not_mem_empty
  rw [recordFailure_eq_install, ← hwanted]
  have ht := h.install key he
  have hformula := getElem?_expressions_install s key (some (.failure message)) (wantedBy key ∅)
  have hasked : (s.install key (some (.failure message)) (wantedBy key ∅)).asked key = ∅ :=
    asked_install_self _ he
  have hrefused : key ∉ (s.install key (some (.failure message)) (wantedBy key ∅)).refused := by
    rw [h.mem_refused_install_iff he, hwanted, DependencyIndex.wouldCycle_empty]
    exact Bool.false_ne_true
  have htracked : Tracked (s.install key (some (.failure message)) (wantedBy key ∅)) key :=
    ⟨hrefused, by rw [hasked]; exact Std.ExtTreeSet.not_mem_empty⟩
  exact {
    expressions_eq := hformula
    value_eq := by
      rw [ht.current key htracked, formulaValue_of_some ((hformula key).trans (if_pos rfl)),
        Expr.eval]
    precedents_eq := by rw [ht.wired.precedents_eq, if_neg hrefused, wanted, hasked, hwanted]
    not_refused := hrefused
    current := ht.current
    exact := exact_install s key _ _ }

/-! ## The result -/

/-- **Updates that fail.** In a reachable sheet an update fails when and only when the formula of
its text has a range above the limit, and it reports such a range. `tryUpdate` then changes nothing,
and neither does `update` if failures are not to be recorded. If they are, `update` leaves the sheet
that would result if the text were read as the error formula with the wording of the failure: the
cell shows the failure, its edges are dropped and its refusal is forgotten, and what depends on the
cell and what is refused is brought up to date. -/
theorem run_update_oversized (functions : Registry) (options : SheetOptions) (ops : List Operation)
    (cell text : String) :
    let s := (fresh functions options).run ops
    let key := Address.canonicalKey cell
    (∀ text, s.tryUpdate cell text = s.put cell (Expr.parse text)) ∧
    (Expr.Oversized options.maxRangeCells (Expr.parse text) →
      ∃ o : OversizedRange, s.tryUpdate cell text = .error o ∧
        (∃ e, Expr.parse text = some e ∧ o.range ∈ e.ranges) ∧
        o.limit = options.maxRangeCells ∧ o.limit.toNat < o.range.height * o.range.width ∧
        s.perform (.tryUpdate cell text) = s ∧
        (options.surfaceFailures = false → s.update cell text = s) ∧
        (options.surfaceFailures = true →
          s.put cell (some (.failure o.message)) = .ok (s.update cell text) ∧
            Recorded s (s.update cell text) key o.message)) ∧
    (¬Expr.Oversized options.maxRangeCells (Expr.parse text) →
      ∃ after, s.tryUpdate cell text = .ok after) := by
  intro s key
  have h : s.Intact := intact_run functions options ops
  have hoptions : s.options = options := options_run functions options ops
  have hfails := oversized_iff s cell text
  rw [hoptions] at hfails
  refine ⟨tryUpdate_eq_put s cell, fun hover ↦ ?_, fun hfits ↦ ?_⟩
  · obtain ⟨o, herror⟩ := hfails.mp hover
    have hkeys := tryUpdate_eq_error_iff.mp herror
    rw [hoptions] at hkeys
    obtain ⟨e, he, hfirst, hlimit⟩ := Expr.formulaKeys_eq_error_iff.mp hkeys
    obtain ⟨hmem, habove⟩ := Expr.firstAbove_eq_some (Expr.countable_of_parse he) hfirst
    have hupdate := update_of_error herror
    rw [hoptions] at hupdate
    refine ⟨o, herror, ⟨e, he, hmem⟩, hlimit.symm, hlimit ▸ habove, perform_of_error herror,
      fun hquiet ↦ ?_, fun hsurface ↦ ?_⟩
    · rw [hupdate, hquiet]
      rfl
    · rw [hupdate, if_pos hsurface]
      exact ⟨put_failure s cell o.message, h.recorded key o.message_ne_circular⟩
  · cases htry : s.tryUpdate cell text with
    | error o => exact absurd (hfails.mpr ⟨o, htry⟩) hfits
    | ok after => exact ⟨after, rfl⟩

/-! ## The example -/

/-- Two cells, one above the other. -/
def pair : Range := ⟨⟨0, 1⟩, ⟨0, 2⟩⟩

private theorem text_pair : pair.text = "A1:A2" := by
  have hlast : Address.key ⟨0, 2⟩ = "A2" := by cbv
  rw [pair, Range.text, key_a1, hlast]
  rfl

theorem parse_pair : Expr.parse "A1:A2" = some (.range pair) := by
  have htokens : Token.ofText "A1:A2" = .ok [.value "A1:A2"] := by cbv
  have hnames : pair.Names "A1:A2" := text_pair ▸ Range.names_text (by decide) (by decide)
  rw [Expr.parse, Expr.parse?_eq_some_iff.mpr
    ⟨_, htokens, .word (.range hnames), by simp [Expr.depth]⟩]

/-- The refused cell is given a range above the limit. If failures are not recorded it stays
refused; if they are it shows the failure and is refused no more. An empty text is no failure. -/
theorem update_oversized_circle :
    let quiet := (fresh .empty ⟨false, 1⟩).run circle
    let strict := (fresh .empty ⟨true, 1⟩).run circle
    Expr.Oversized 1 (Expr.parse "A1:A2") ∧ ¬Expr.Oversized 1 (Expr.parse "") ∧
      quiet.refusedCells = ["B1"] ∧ quiet.update "B1" "A1:A2" = quiet ∧
      strict.refusedCells = ["B1"] ∧ "B1" ∉ (strict.update "B1" "A1:A2").refusedCells ∧
      (strict.update "B1" "A1:A2").value "B1"
        = .error "Range A1:A2 covers 2 cells, more than the limit of 1" ∧
      ∃ after, strict.tryUpdate "B1" "" = .ok after := by
  intro quiet strict
  have hover : Expr.Oversized 1 (Expr.parse "A1:A2") :=
    ⟨_, parse_pair, _, List.mem_singleton_self _, by decide⟩
  have hfits : ¬Expr.Oversized 1 (Expr.parse "") := by
    rw [parse_empty]
    rintro ⟨e, he, -⟩
    cases he
  obtain ⟨-, hquiet, -⟩ := run_update_oversized .empty ⟨false, 1⟩ circle "B1" "A1:A2"
  obtain ⟨-, hstrict, -⟩ := run_update_oversized .empty ⟨true, 1⟩ circle "B1" "A1:A2"
  obtain ⟨-, -, hempty⟩ := run_update_oversized .empty ⟨true, 1⟩ circle "B1" ""
  obtain ⟨_, -, -, -, -, -, hsame, -⟩ := hquiet hover
  obtain ⟨⟨range, limit⟩, -, ⟨e, he, hrange⟩, rfl, -, -, -, hrecord⟩ := hstrict hover
  obtain ⟨-, hrecorded⟩ := hrecord rfl
  rw [parse_pair] at he
  obtain rfl := Option.some.inj he
  obtain rfl := List.mem_singleton.mp hrange
  rw [canonicalKey_b1] at hrecorded
  refine ⟨hover, hfits, refusedCells_circle _ _, hsame rfl, refusedCells_circle _ _,
    mt mem_refusedCells.mp hrecorded.not_refused, ?_, hempty hfits⟩
  rw [value, canonicalKey_b1, hrecorded.value_eq, OversizedRange.message, text_pair]
  rfl

end Sheet

end FormulaSheet
