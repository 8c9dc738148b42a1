import FormulaSheet.Proofs.Sheet.Determined
import Mathlib

/-!
# Sheets that runs lead to

The main results on what a sheet looks like after any list of operations on empty cells, accepted or
not, and whatever the functions and the options are.

## An example

The results with hypotheses are tried on one history. `A1` is made to read `B1`; then `B1` is made
to read `A1`, is refused for it, and is given a text instead, which breaks the circle.
-/

namespace FormulaSheet

namespace Sheet

open Relation

/-! ## The example -/

/-- Two cells that would read each other, until the second is given a text. -/
def detour : List Operation := [.update "A1" "B1", .update "B1" "A1", .update "B1" "\"x\""]

/-- The same texts in the end, put in the other way round. -/
def shortcut : List Operation := [.update "B1" "\"x\"", .recalculate "A1", .update "A1" "B1"]

/-- Both cells are cleared. -/
def cleared : List Operation := [.update "B1" "", .update "A1" ""]

theorem parse_a1 : Expr.parse "A1" = some (.cell ⟨0, 1⟩) := by cbv

theorem parse_b1 : Expr.parse "B1" = some (.cell ⟨1, 1⟩) := by cbv

private theorem parse_x : Expr.parse "\"x\"" = some (.text "x") := by cbv

theorem key_a1 : Address.key ⟨0, 1⟩ = "A1" := by cbv

theorem key_b1 : Address.key ⟨1, 1⟩ = "B1" := by cbv

theorem canonicalKey_a1 : Address.canonicalKey "A1" = "A1" := by cbv

theorem canonicalKey_b1 : Address.canonicalKey "B1" = "B1" := by cbv

theorem formulaKeys_a1 (limit : UInt64) :
    Expr.formulaKeys limit (Expr.parse "A1") = .ok {"A1"} := by
  rw [parse_a1, Expr.formulaKeys, Expr.keys, Expr.addKeys, key_a1,
    Std.ExtTreeSet.singleton_eq_insert]

theorem formulaKeys_b1 (limit : UInt64) :
    Expr.formulaKeys limit (Expr.parse "B1") = .ok {"B1"} := by
  rw [parse_b1, Expr.formulaKeys, Expr.keys, Expr.addKeys, key_b1,
    Std.ExtTreeSet.singleton_eq_insert]

private theorem formulaKeys_x (limit : UInt64) :
    Expr.formulaKeys limit (Expr.parse "\"x\"") = .ok ∅ := by
  rw [parse_x, Expr.formulaKeys, Expr.keys, Expr.addKeys]

private theorem formulaKeys_empty (limit : UInt64) :
    Expr.formulaKeys limit (Expr.parse "") = .ok ∅ := by
  rw [parse_empty, Expr.formulaKeys]

private theorem lastTexts_detour (key : String) : lastTexts detour key =
    if "B1" = key then "\"x\"" else if "A1" = key then "B1" else "" := by
  by_cases hb : "B1" = key
  · subst hb
    simp [lastTexts, detour, Operation.writes, written, canonicalKey_b1]
  · simp [lastTexts, detour, Operation.writes, written, canonicalKey_a1, canonicalKey_b1, hb]

private theorem lastTexts_shortcut : lastTexts shortcut = lastTexts detour := by
  funext key
  rw [lastTexts_detour]
  by_cases hb : "B1" = key
  · subst hb
    simp [lastTexts, shortcut, Operation.writes, written, canonicalKey_a1, canonicalKey_b1]
  · simp [lastTexts, shortcut, Operation.writes, written, canonicalKey_a1, canonicalKey_b1, hb]

private theorem lastTexts_detour_cleared (key : String) :
    lastTexts (detour ++ cleared) key = "" := by
  by_cases ha : "A1" = key
  · subst ha
    simp [lastTexts, detour, cleared, Operation.writes, written, canonicalKey_a1]
  · by_cases hb : "B1" = key
    · subst hb
      simp [lastTexts, detour, cleared, Operation.writes, written, canonicalKey_b1]
    · simp [lastTexts, detour, cleared, Operation.writes, written, canonicalKey_a1,
        canonicalKey_b1, ha, hb]

theorem reads_first {limit : UInt64} {a b : String} :
    Reads limit (written (fun _ ↦ "") ("A1", "B1")) a b ↔ a = "A1" ∧ b = "B1" := by
  rw [reads_written (formulaKeys_b1 limit), canonicalKey_a1, Keys.mem_singleton]
  by_cases ha : "A1" = a
  · rw [if_pos ha, and_iff_right ha.symm]
  · rw [if_neg ha]
    exact iff_of_false (not_reads_of_empty rfl) fun h ↦ ha h.1.symm

private theorem eq_of_reads_detour {limit : UInt64} {a b : String}
    (h : Reads limit (lastTexts detour) a b) : a = "A1" ∧ b = "B1" := by
  change Reads limit (written (written (written (fun _ ↦ "") ("A1", "B1")) ("B1", "A1"))
    ("B1", "\"x\"")) a b at h
  rw [reads_written (formulaKeys_x limit), canonicalKey_b1] at h
  split at h
  next => exact absurd h Std.ExtTreeSet.not_mem_empty
  next hb =>
    rw [reads_written (formulaKeys_a1 limit), canonicalKey_b1, if_neg hb] at h
    exact reads_first.mp h

theorem not_circle_of_one_link {r : String → String → Prop} {x y : String} (hne : x ≠ y)
    (h : ∀ a b, r a b → a = x ∧ b = y) (c : String) : ¬TransGen r c c := by
  intro hcc
  obtain ⟨d, hcd, hdc⟩ := TransGen.head'_iff.mp hcc
  obtain ⟨rfl, rfl⟩ := h c d hcd
  rcases hdc.cases_head with heq | ⟨e, hde, -⟩
  · exact hne heq.symm
  · exact hne (h d e hde).1.symm

private theorem not_reads_detour (limit : UInt64) (c : String) :
    ¬TransGen (Reads limit (lastTexts detour)) c c :=
  not_circle_of_one_link (by decide) (fun _ _ ↦ eq_of_reads_detour) c

private theorem accepted_detour (limit : UInt64) {text : String}
    (h : text = "A1" ∨ text = "B1" ∨ text = "\"x\"" ∨ text = "") : Accepted limit text := by
  rcases h with rfl | rfl | rfl | rfl
  · exact ⟨_, formulaKeys_a1 limit⟩
  · exact ⟨_, formulaKeys_b1 limit⟩
  · exact ⟨_, formulaKeys_x limit⟩
  · exact ⟨_, formulaKeys_empty limit⟩

private theorem acceptsRun_detour (functions : Registry) (options : SheetOptions) :
    (fresh functions options).AcceptsRun detour :=
  acceptsRun_iff.mpr (by simp [detour, Operation.writes, accepted_detour])

private theorem acceptsRun_shortcut (functions : Registry) (options : SheetOptions) :
    (fresh functions options).AcceptsRun shortcut :=
  acceptsRun_iff.mpr (by simp [shortcut, Operation.writes, accepted_detour])

private theorem acceptsRun_detour_cleared (functions : Registry) (options : SheetOptions) :
    (fresh functions options).AcceptsRun (detour ++ cleared) :=
  acceptsRun_iff.mpr (by simp [detour, cleared, Operation.writes, accepted_detour])

private theorem spelled_detour (functions : Registry) (options : SheetOptions) :
    Spelled (lastTexts detour) ((fresh functions options).run detour) :=
  (spelled_fresh functions options).run (acceptsRun_detour functions options)

private theorem refusedCells_detour (functions : Registry) (options : SheetOptions) :
    ((fresh functions options).run detour).refusedCells = [] := by
  have hfree : ((fresh functions options).run detour).CircleFree :=
    (spelled_detour functions options).circleFree (not_reads_detour _)
  have h := intact_run functions options detour
  exact refusedCells_eq_nil_iff.mpr (hfree.refused_eq h.wired (exact_run functions options detour))

private theorem expression_detour_a1 (functions : Registry) (options : SheetOptions) :
    ((fresh functions options).run detour).expression? "A1" = some (.cell ⟨1, 1⟩) := by
  rw [expression?, canonicalKey_a1, spelled_detour, lastTexts_detour, if_neg (by decide),
    if_pos rfl, parse_b1]

private theorem expression_detour_b1 (functions : Registry) (options : SheetOptions) :
    ((fresh functions options).run detour).expression? "B1" = some (.text "x") := by
  rw [expression?, canonicalKey_b1, spelled_detour, lastTexts_detour, if_pos rfl, parse_x]

private theorem not_reads_self_detour {functions : Registry} {options : SheetOptions}
    {cell : String} {keys : Keys} (h : Expr.formulaKeys options.maxRangeCells
      (((fresh functions options).run detour).expression? cell) = .ok keys) :
    Address.canonicalKey cell ∉ keys := by
  intro hmem
  rw [expression?, spelled_detour] at h
  exact not_reads_detour _ _ (.single ⟨keys, h, hmem⟩)

/-! ## Values -/

/-- **No stale values.** After every run, a cell that is not refused and does not read itself has
the value that its formula comes to against the present values, where an array counts as an
error. -/
theorem run_value_eq_eval (functions : Registry) (options : SheetOptions) (ops : List Operation)
    (cell : String) :
    let s := (fresh functions options).run ops
    Address.canonicalKey cell ∉ s.refusedCells →
    (∀ keys, Expr.formulaKeys options.maxRangeCells (s.expression? cell) = .ok keys →
      Address.canonicalKey cell ∉ keys) →
    s.value cell =
      match s.expression? cell with
      | none => .empty
      | some e =>
        match e.eval ⟨Address.canonicalKey cell, s.values, functions⟩ with
        | .array _ => .error "Cannot return cell range as value"
        | v => v := by
  intro s hrefused hself
  have h : s.Intact := intact_run functions options ops
  have hfunctions : s.functions = functions := (settings_run (fresh functions options) ops).1
  have hoptions : s.options = options := (settings_run (fresh functions options) ops).2
  have htracked : s.Tracked (Address.canonicalKey cell) := by
    refine ⟨mt mem_refusedCells.mpr hrefused, hself _ ?_⟩
    rw [← hoptions]
    exact (h.wired.admitted (Address.canonicalKey cell)).keys_eq
  rw [value, h.current _ htracked, ← hfunctions]
  cases hformula : s.expression? cell with
  | none => exact formulaValue_of_none hformula
  | some e => exact formulaValue_of_some hformula

/-- In the example no cell is refused in the end, none reads itself, and both have the text. -/
theorem value_detour :
    let s := (fresh .empty {}).run detour
    s.refusedCells = [] ∧
    (∀ cell keys, Expr.formulaKeys s.options.maxRangeCells (s.expression? cell) = .ok keys →
      Address.canonicalKey cell ∉ keys) ∧
    s.value "A1" = .text "x" := by
  intro s
  have hrefused : s.refusedCells = [] := refusedCells_detour .empty {}
  have hnone : ∀ key, key ∉ s.refusedCells := fun key ↦ hrefused ▸ List.not_mem_nil
  have hoptions : s.options = {} := (settings_run (fresh .empty {}) detour).2
  have hself := @not_reads_self_detour .empty {}
  refine ⟨hrefused, fun cell keys ↦ hoptions ▸ hself, ?_⟩
  have ha := run_value_eq_eval .empty {} detour "A1" (hnone _) fun keys ↦ hself
  have hb := run_value_eq_eval .empty {} detour "B1" (hnone _) fun keys ↦ hself
  rw [expression_detour_a1] at ha
  rw [expression_detour_b1, value, canonicalKey_b1] at hb
  dsimp only [Expr.eval] at ha hb
  rw [key_b1, hb] at ha
  exact ha

/-! ## Edges -/

/-- **The edges are those of the formulas.** After every run the index has no circle and its two
halves agree; a cell has the edges its formula asks for, unless it is refused or reads itself; what
is remembered of a refused cell is what its formula asks for; and no value is without a formula. -/
theorem run_edges_eq_formulaKeys (functions : Registry) (options : SheetOptions)
    (ops : List Operation) :
    let s := (fresh functions options).run ops
    (∀ c, ¬Relation.TransGen (fun a b ↦ b ∈ s.index.dependents a) c c) ∧
    (∀ x y, Address.canonicalKey y ∈ s.dependents x ↔ Address.canonicalKey x ∈ s.precedents y) ∧
    (∀ cell, ∃ keys,
      Expr.formulaKeys options.maxRangeCells (s.expression? cell) = .ok keys ∧
        s.precedents cell =
          if Address.canonicalKey cell ∈ s.refusedCells ∨ Address.canonicalKey cell ∈ keys then []
          else keys.toList) ∧
    (∀ c keys, s.refused[c]? = some keys →
      Expr.formulaKeys options.maxRangeCells s.expressions[c]? = .ok keys ∧
        keys ≠ ∅ ∧ c ∉ keys) ∧
    (∀ c, c ∈ s.values → c ∈ s.expressions) := by
  intro s
  have h : s.Intact := intact_run functions options ops
  have hoptions : s.options = options := (settings_run (fresh functions options) ops).2
  have hkeys : ∀ c, Expr.formulaKeys options.maxRangeCells s.expressions[c]? = .ok (s.asked c) := by
    rw [← hoptions]
    exact fun c ↦ (h.wired.admitted c).keys_eq
  refine ⟨h.wired.acyclic, fun x y ↦ ?_, fun cell ↦ ⟨_, hkeys _, ?_⟩, fun c keys hc ↦ ?_,
    fun c ↦ h.mem_expressions⟩
  · rw [dependents, precedents, Std.ExtTreeSet.mem_toList, Std.ExtTreeSet.mem_toList]
    exact h.wired.consistent.mem_dependents_iff _ _
  · rw [precedents, h.wired.precedents_eq_asked]
    simp only [mem_refusedCells]
    split
    · exact Std.ExtTreeSet.toList_eq_nil_iff.mpr rfl
    · rfl
  · obtain ⟨hasked, hne, hself⟩ := h.wired.asked_of_refused hc
    exact ⟨hasked ▸ hkeys c, hne, hself⟩

/-! ## Refusals -/

/-- **Refusals are exact.** After every run, each refused cell reaches one of those that its formula
asks for, so that its edges would close a circle of the index, and it lies on a circle of what
formulas ask for. No cell is refused when and only when there is no such circle. -/
theorem run_refused_iff_circle (functions : Registry) (options : SheetOptions)
    (ops : List Operation) :
    let s := (fresh functions options).run ops
    (∀ c keys, s.refused[c]? = some keys →
      (∃ d ∈ keys, TransGen (fun a b ↦ b ∈ s.index.dependents a) c d) ∧
      TransGen (fun a b ↦ b ∈ (s.index.replace c keys).dependents a) c c ∧
      TransGen s.Wants c c) ∧
    (s.refusedCells = [] ↔ ∀ c, ¬TransGen s.Wants c c) := by
  intro s
  have hw : s.Wired := (intact_run functions options ops).wired
  have he : s.Exact := exact_run functions options ops
  refine ⟨fun c keys hc ↦ ⟨he.reaches hw hc, ?_, he.wants_self hw hc⟩, ?_⟩
  · exact hw.acyclic.circle_of_wouldCycle hw.consistent (he c keys hc)
  · rw [refusedCells_eq_nil_iff]
    exact he.refused_eq_empty_iff hw

/-! ## Histories -/

/-- Two accepted histories with the same last texts lead to the same sheet, unless there is a
circle. -/
theorem run_congr_lastTexts {functions : Registry} {options : SheetOptions}
    {ops ops' : List Operation} (hok : (fresh functions options).AcceptsRun ops)
    (hok' : (fresh functions options).AcceptsRun ops') (htexts : lastTexts ops = lastTexts ops')
    (hacyclic : ∀ c, ¬TransGen (Reads options.maxRangeCells (lastTexts ops)) c c) :
    (fresh functions options).run ops = (fresh functions options).run ops' ∧
      ((fresh functions options).run ops).refusedCells = [] := by
  have h := intact_run functions options ops
  have h' := intact_run functions options ops'
  have he := exact_run functions options ops
  have he' := exact_run functions options ops'
  obtain ⟨hfunctions, hoptions⟩ := settings_run (fresh functions options) ops
  obtain ⟨hfunctions', hoptions'⟩ := settings_run (fresh functions options) ops'
  have hspelled : Spelled (lastTexts ops) ((fresh functions options).run ops) :=
    (spelled_fresh functions options).run hok
  have hspelled' : Spelled (lastTexts ops) ((fresh functions options).run ops') :=
    htexts ▸ (spelled_fresh functions options).run hok'
  have hfree : ((fresh functions options).run ops').CircleFree :=
    hspelled'.circleFree (hoptions' ▸ hacyclic)
  have hexpressions : ((fresh functions options).run ops).expressions
      = ((fresh functions options).run ops').expressions :=
    Std.ExtTreeMap.ext_getElem? fun c ↦ (hspelled c).trans (hspelled' c).symm
  have hsame := hfree.eq h' he' h he (hfunctions.trans hfunctions'.symm)
    (hoptions.trans hoptions'.symm) hexpressions
  refine ⟨hsame, ?_⟩
  rw [hsame, refusedCells_eq_nil_iff]
  exact hfree.refused_eq h'.wired he'

/-- **Histories leave no trace.** After two accepted histories with the same last texts, among whose
formulas there is no circle, the sheets are equal and no cell is refused. After an accepted history
that clears every cell in the end all is as in the beginning. -/
theorem run_eq_of_lastTexts_eq (functions : Registry) (options : SheetOptions) :
    (∀ ops ops', (fresh functions options).AcceptsRun ops →
      (fresh functions options).AcceptsRun ops' →
      (∀ cell, lastTexts ops (Address.canonicalKey cell)
        = lastTexts ops' (Address.canonicalKey cell)) →
      (∀ c, ¬TransGen (Reads options.maxRangeCells (lastTexts ops)) c c) →
      (fresh functions options).run ops = (fresh functions options).run ops' ∧
        ((fresh functions options).run ops).refusedCells = []) ∧
    (∀ ops, (fresh functions options).AcceptsRun ops →
      (∀ cell, lastTexts ops (Address.canonicalKey cell) = "") →
      (fresh functions options).run ops = fresh functions options) := by
  refine ⟨fun ops ops' hok hok' htexts ↦ run_congr_lastTexts hok hok' (lastTexts_ext htexts),
    fun ops hok htexts ↦ ?_⟩
  -- the empty history has the empty text everywhere, and an empty text reads nothing
  have hempty : lastTexts ops = lastTexts [] := lastTexts_ext htexts
  refine (run_congr_lastTexts hok (show (fresh functions options).AcceptsRun [] from trivial)
    hempty fun c hcc ↦ ?_).1
  obtain ⟨d, hcd, -⟩ := TransGen.head'_iff.mp hcc
  exact not_reads_of_empty (congrFun hempty c) hcd

/-- The example and its shortcut lead to the same sheet, and clearing both cells leads back. -/
theorem run_detour_eq_run_shortcut :
    let s := fresh .empty {}
    (s.AcceptsRun detour ∧ s.AcceptsRun shortcut ∧ lastTexts detour = lastTexts shortcut ∧
      s.run detour = s.run shortcut ∧ (s.run detour).refusedCells = []) ∧
    (s.AcceptsRun (detour ++ cleared) ∧ s.run (detour ++ cleared) = s) := by
  intro s
  have hdetour : s.AcceptsRun detour := acceptsRun_detour .empty {}
  have hshortcut : s.AcceptsRun shortcut := acceptsRun_shortcut .empty {}
  have hcleared : s.AcceptsRun (detour ++ cleared) := acceptsRun_detour_cleared .empty {}
  have hsame := (run_eq_of_lastTexts_eq .empty {}).1 detour shortcut hdetour hshortcut
    (fun _ ↦ by rw [lastTexts_shortcut]) (not_reads_detour _)
  have hback := (run_eq_of_lastTexts_eq .empty {}).2 (detour ++ cleared) hcleared
    fun _ ↦ lastTexts_detour_cleared _
  exact ⟨⟨hdetour, hshortcut, lastTexts_shortcut.symm, hsame⟩, hcleared, hback⟩

end Sheet

end FormulaSheet
