import FormulaSheet.Proofs.Sheet.Wiring

/-!
# Texts that are put into cells

A history in which every text is accepted leaves no trace in the formulas but the last text of each
cell. This is `Spelled`, and it makes the texts a description of the sheet that does not depend on
the order of the operations, on evaluations, or on what was refused on the way.

Whether a text is accepted is a question about its ranges and the limit. `AcceptsRun` nevertheless
asks it of the sheet that the text is put into, at the time when its turn comes, for that is what an
accepted update is; `acceptsRun_iff` is the bridge.
-/

namespace FormulaSheet

namespace Sheet

/-! ## Accepted texts -/

/-- The texts that an operation puts into cells, in order. -/
def Operation.writes : Operation → List (String × String)
  | .update cell text => [(cell, text)]
  | .tryUpdate cell text => [(cell, text)]
  | .updateAll updates => updates
  | .recalculate _ => []

/-- Each of the texts is accepted when its turn comes. -/
def AcceptsAll (s : Sheet) : List (String × String) → Prop
  | [] => True
  | (cell, text) :: updates =>
    (∃ after, s.tryUpdate cell text = .ok after) ∧ (s.update cell text).AcceptsAll updates

/-- Each text of each operation is accepted when its turn comes. -/
def AcceptsRun (s : Sheet) : List Operation → Prop
  | [] => True
  | op :: ops => s.AcceptsAll op.writes ∧ (s.perform op).AcceptsRun ops

/-- A text is accepted when its cells can be listed within the limit. -/
def Accepted (limit : UInt64) (text : String) : Prop :=
  ∃ keys, Expr.formulaKeys limit (Expr.parse text) = .ok keys

variable {s : Sheet} {texts : String → String} {cell text key a b : String}

theorem tryUpdate_ok_iff :
    (∃ after, s.tryUpdate cell text = .ok after) ↔ Accepted s.options.maxRangeCells text := by
  constructor
  · rintro ⟨after, h⟩
    obtain ⟨keys, hkeys, -⟩ := tryUpdate_eq_install h
    exact ⟨keys, hkeys.keys_eq⟩
  · rintro ⟨keys, hkeys⟩
    exact ⟨_, tryUpdate_of_keys hkeys⟩

theorem acceptsAll_iff {updates : List (String × String)} :
    s.AcceptsAll updates ↔ ∀ w ∈ updates, Accepted s.options.maxRangeCells w.2 := by
  induction updates generalizing s with
  | nil => simp [AcceptsAll]
  | cons w updates ih =>
    have hoptions : (s.update w.1 w.2).options = s.options :=
      (settings_run s [.update w.1 w.2]).2
    rw [AcceptsAll, tryUpdate_ok_iff, ih, hoptions, List.forall_mem_cons]

theorem acceptsRun_iff {ops : List Operation} :
    s.AcceptsRun ops ↔
      ∀ op ∈ ops, ∀ w ∈ op.writes, Accepted s.options.maxRangeCells w.2 := by
  induction ops generalizing s with
  | nil => simp [AcceptsRun]
  | cons op ops ih =>
    have hoptions : (s.perform op).options = s.options := (settings_run s [op]).2
    rw [AcceptsRun, acceptsAll_iff, ih, hoptions, List.forall_mem_cons]

/-! ## Last texts -/

/-- The texts of cells, by key, after one more is put into a cell. -/
def written (texts : String → String) (w : String × String) : String → String := fun key ↦
  if Address.canonicalKey w.1 = key then w.2 else texts key

/-- The last text put into each cell, by key. A cell that none was put into has the empty text. -/
def lastTexts (ops : List Operation) : String → String :=
  (ops.flatMap Operation.writes).foldl written fun _ ↦ ""

theorem foldl_written_of_not_canonical (hkey : ∀ cell, Address.canonicalKey cell ≠ key)
    (ws : List (String × String)) (texts : String → String) :
    ws.foldl written texts key = texts key := by
  induction ws generalizing texts with
  | nil => rfl
  | cons w ws ih => rw [List.foldl_cons, ih, written, if_neg (hkey w.1)]

theorem lastTexts_ext {ops ops' : List Operation}
    (h : ∀ cell, lastTexts ops (Address.canonicalKey cell)
      = lastTexts ops' (Address.canonicalKey cell)) : lastTexts ops = lastTexts ops' := by
  funext key
  by_cases hkey : ∃ cell, Address.canonicalKey cell = key
  · obtain ⟨cell, rfl⟩ := hkey
    exact h cell
  · rw [lastTexts, lastTexts, foldl_written_of_not_canonical (not_exists.mp hkey),
      foldl_written_of_not_canonical (not_exists.mp hkey)]

/-- The stored formulas are those of the texts. -/
def Spelled (texts : String → String) (s : Sheet) : Prop :=
  ∀ key : String, s.expressions[key]? = Expr.parse (texts key)

theorem parse_empty : Expr.parse "" = none := by
  simp [Expr.parse, Expr.parse?, Token.ofText, Token.squeeze, Token.scan]

theorem spelled_fresh (functions : Registry) (options : SheetOptions) :
    Spelled (fun _ ↦ "") (fresh functions options) := by
  intro key
  rw [parse_empty]
  exact Std.ExtTreeMap.getElem?_empty

theorem Spelled.update (h : Spelled texts s)
    (hok : ∃ after, s.tryUpdate cell text = .ok after) :
    Spelled (written texts (cell, text)) (s.update cell text) := by
  obtain ⟨after, hok⟩ := hok
  obtain ⟨keys, -, rfl⟩ := tryUpdate_eq_install hok
  obtain ⟨values, index, refused, heq⟩ := install_eq s (Address.canonicalKey cell)
    (Expr.parse text) (wantedBy (Address.canonicalKey cell) keys)
  intro key
  rw [update_of_ok hok, heq, getElem?_withExpression, written]
  by_cases hkey : Address.canonicalKey cell = key
  · rw [if_pos hkey.symm, if_pos hkey]
  · rw [if_neg (Ne.symm hkey), if_neg hkey]
    exact h key

theorem Spelled.updateAll {updates : List (String × String)} (h : Spelled texts s)
    (hok : s.AcceptsAll updates) : Spelled (updates.foldl written texts) (s.updateAll updates) := by
  induction updates generalizing s texts with
  | nil => exact h
  | cons w updates ih => exact ih (h.update hok.1) hok.2

theorem Spelled.perform {op : Operation} (h : Spelled texts s) (hok : s.AcceptsAll op.writes) :
    Spelled (op.writes.foldl written texts) (s.perform op) := by
  cases op with
  | update cell text => exact h.update hok.1
  | tryUpdate cell text =>
    obtain ⟨after, htry⟩ := hok.1
    have hsame : s.perform (.tryUpdate cell text) = s.update cell text := by
      rw [update_of_ok htry]
      simp only [Sheet.perform, htry]
    rw [hsame]
    exact h.update hok.1
  | updateAll updates => exact h.updateAll hok
  | recalculate cell =>
    rw [Sheet.perform, recalculate, recalculateKey_eq]
    exact h

/-- **An accepted run** leaves the last texts. -/
theorem Spelled.run {ops : List Operation} (h : Spelled texts s) (hok : s.AcceptsRun ops) :
    Spelled ((ops.flatMap Operation.writes).foldl written texts) (s.run ops) := by
  induction ops generalizing s texts with
  | nil => exact h
  | cons op ops ih =>
    rw [List.flatMap_cons, List.foldl_append, run_cons]
    exact ih (h.perform hok.1) hok.2

/-! ## What texts read -/

/-- The formula of the first cell's text reads the second cell. -/
def Reads (limit : UInt64) (texts : String → String) (a b : String) : Prop :=
  ∃ keys, Expr.formulaKeys limit (Expr.parse (texts a)) = .ok keys ∧ b ∈ keys

theorem not_reads_of_empty {limit : UInt64} (h : texts a = "") : ¬Reads limit texts a b := by
  rintro ⟨keys, hkeys, hmem⟩
  rw [h, parse_empty, Expr.formulaKeys, Except.ok.injEq] at hkeys
  exact absurd (hkeys ▸ hmem) Std.ExtTreeSet.not_mem_empty

theorem reads_iff {limit : UInt64} {keys : Keys}
    (h : Expr.formulaKeys limit (Expr.parse (texts a)) = .ok keys) :
    Reads limit texts a b ↔ b ∈ keys := by
  constructor
  · rintro ⟨keys', hkeys', hb⟩
    rw [h, Except.ok.injEq] at hkeys'
    rwa [hkeys']
  · exact fun hb ↦ ⟨keys, h, hb⟩

theorem reads_written {limit : UInt64} {keys : Keys}
    (h : Expr.formulaKeys limit (Expr.parse text) = .ok keys) :
    Reads limit (written texts (cell, text)) a b ↔
      if Address.canonicalKey cell = a then b ∈ keys else Reads limit texts a b := by
  by_cases hcell : Address.canonicalKey cell = a
  · rw [if_pos hcell]
    refine reads_iff ?_
    rwa [written, if_pos hcell]
  · rw [if_neg hcell, Reads, Reads, written, if_neg hcell]

theorem Spelled.mem_asked_iff (h : Spelled texts s) :
    b ∈ s.asked a ↔ Reads s.options.maxRangeCells texts a b := by
  rw [asked, h a, Reads]
  cases Expr.formulaKeys s.options.maxRangeCells (Expr.parse (texts a)) with
  | ok keys => simp
  | error oversized => simp

end Sheet

end FormulaSheet
