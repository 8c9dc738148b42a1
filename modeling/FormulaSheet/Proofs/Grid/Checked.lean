import FormulaSheet.Proofs.Formula.Limit
import FormulaSheet.Proofs.Grid.Spelling
import FormulaSheet.Proofs.Grid.Views

/-!
# Sizes in fixed width

Words wrap around without a sign of it. The sizes of a range and the steps of its cursor are
therefore worked out a second time here, by operations on words that give nothing where the true
result has no room. For a range that comes from a text the two agree throughout, so that nothing
wraps, and what is compared with a limit is the true number of cells.

## Why there is room

Of all ordered ranges only the one that spans the whole grid has too many cells for a word, and its
last column has no name that is read. This bound is found while letters are read, and everything
here rests on it.
-/

namespace FormulaSheet

/-! ## Words -/

namespace Word

/-- The sum of two words, if there is room for it. -/
def add? (a b : UInt64) : Option UInt64 :=
  if a.toNat + b.toNat < UInt64.size then some (a + b) else none

/-- The product of two words, if there is room for it. -/
def mul? (a b : UInt64) : Option UInt64 :=
  if a.toNat * b.toNat < UInt64.size then some (a * b) else none

/-- The difference of two words, if it is not negative. -/
def sub? (a b : UInt64) : Option UInt64 := if b.toNat ≤ a.toNat then some (a - b) else none

/-- The difference of two short words, if it is not negative. -/
def shortSub? (a b : UInt32) : Option UInt32 := if b.toNat ≤ a.toNat then some (a - b) else none

/-- A word as a short word, if there is room for it. -/
def short? (a : UInt64) : Option UInt32 :=
  if a.toNat < UInt32.size then some a.toUInt32 else none

variable {a b : UInt64}

theorem add?_of_lt (h : a.toNat + b.toNat < UInt64.size) : add? a b = some (a + b) := if_pos h

theorem mul?_of_lt (h : a.toNat * b.toNat < UInt64.size) : mul? a b = some (a * b) := if_pos h

theorem sub?_of_le (h : b.toNat ≤ a.toNat) : sub? a b = some (a - b) := if_pos h

theorem shortSub?_of_le {a b : UInt32} (h : b.toNat ≤ a.toNat) : shortSub? a b = some (a - b) :=
  if_pos h

theorem short?_of_lt (h : a.toNat < UInt32.size) : short? a = some a.toUInt32 := if_pos h

end Word

open Word

namespace Range

/-! ## Checked sizes -/

/-- How many rows the range has, by checked steps. -/
def rowCount? (r : Range) : Option UInt64 := do
  let rows ← shortSub? r.last.row r.first.row
  add? rows.toUInt64 1

/-- How many columns the range has, by checked steps. -/
def colCount? (r : Range) : Option UInt64 := do
  let cols ← shortSub? r.last.col r.first.col
  add? cols.toUInt64 1

/-- How many cells the range has, by checked steps. -/
def cellCount? (r : Range) : Option UInt64 := do
  let rows ← r.rowCount?
  let cols ← r.colCount?
  mul? rows cols

namespace Cursor

/-- How many cells are still to come, by checked steps. -/
def remaining? (c : Cursor) : Option UInt64 :=
  if c.range.last.row.toUInt64 < c.row then some 0
  else do
    let cols ← c.range.colCount?
    let rows ← sub? c.range.last.row.toUInt64 c.row
    let below ← mul? rows cols
    let right ← sub? c.range.last.col.toUInt64 c.col
    let present ← add? right 1
    add? below present

/-- The next cell and the place after it, by checked steps. -/
def next? (c : Cursor) : Option (Option (Address × Cursor)) :=
  if c.range.last.row.toUInt64 < c.row then some none
  else do
    let col ← short? c.col
    let row ← short? c.row
    let after ← add? c.col 1
    if c.range.last.col.toUInt64 < after then
      let below ← add? c.row 1
      some (some (⟨col, row⟩, ⟨c.range, below, c.range.first.col.toUInt64⟩))
    else some (some (⟨col, row⟩, ⟨c.range, c.row, after⟩))

end Cursor

variable {r : Range} {text : String}

/-! ## Ordered and countable ranges -/

private theorem checked_count {lo hi : UInt32} (h : lo ≤ hi) :
    (do let n ← shortSub? hi lo; add? n.toUInt64 1) = some ((hi - lo).toUInt64 + 1) := by
  have hroom : (hi - lo).toUInt64.toNat + (1 : UInt64).toNat < UInt64.size := by
    have hlt := (hi - lo).toNat_lt_size
    rw [UInt32.size] at hlt
    rw [UInt32.toNat_toUInt64, UInt64.toNat_one, UInt64.size]
    omega
  rw [shortSub?_of_le (UInt32.le_iff_toNat_le.mp h)]
  exact add?_of_lt hroom

theorem Ordered.rowCount?_eq (h : r.Ordered) : r.rowCount? = some r.rowCount := checked_count h.2

theorem Ordered.colCount?_eq (h : r.Ordered) : r.colCount? = some r.colCount := checked_count h.1

theorem Countable.cellCount?_eq (h : r.Countable) : r.cellCount? = some r.cellCount := by
  have hroom : r.rowCount.toNat * r.colCount.toNat < UInt64.size := by
    rw [toNat_rowCount h.ordered, toNat_colCount h.ordered]
    exact h.area_lt
  rw [cellCount?, h.ordered.rowCount?_eq, h.ordered.colCount?_eq]
  exact mul?_of_lt hroom

namespace Cursor

variable {c : Cursor}

theorem OnRange.remaining?_eq (h : c.OnRange) (hc : c.range.Countable) :
    c.remaining? = some c.remaining := by
  rw [remaining?, remaining]
  by_cases hend : c.range.last.row.toUInt64 < c.row
  · rw [if_pos hend, if_pos hend]
  · have hrow : c.row.toNat ≤ c.range.last.row.toNat := by
      rwa [UInt64.lt_iff_toNat_lt, UInt32.toNat_toUInt64, Nat.not_lt] at hend
    have hcol := h.col_le
    have hcol32 := c.range.last.col.toNat_lt
    -- every partial result is a part of the area of the range
    have hwidth := h.right_le_width
    have harea := h.area_below_le hrow
    have hlt := hc.area_lt
    rw [UInt64.size] at hlt
    have hrows : sub? c.range.last.row.toUInt64 c.row
        = some (c.range.last.row.toUInt64 - c.row) :=
      sub?_of_le (by rwa [UInt32.toNat_toUInt64])
    have hcols : sub? c.range.last.col.toUInt64 c.col
        = some (c.range.last.col.toUInt64 - c.col) :=
      sub?_of_le (by rwa [UInt32.toNat_toUInt64])
    have hbelow : mul? (c.range.last.row.toUInt64 - c.row) c.range.colCount
        = some ((c.range.last.row.toUInt64 - c.row) * c.range.colCount) := by
      refine mul?_of_lt ?_
      rw [toNat_last_row_sub hrow, toNat_colCount hc.ordered, UInt64.size]
      omega
    have hpresent : add? (c.range.last.col.toUInt64 - c.col) 1
        = some (c.range.last.col.toUInt64 - c.col + 1) := by
      refine add?_of_lt ?_
      rw [h.toNat_last_col_sub, UInt64.toNat_one, UInt64.size]
      omega
    have hsum : add? ((c.range.last.row.toUInt64 - c.row) * c.range.colCount)
          (c.range.last.col.toUInt64 - c.col + 1)
        = some ((c.range.last.row.toUInt64 - c.row) * c.range.colCount
          + (c.range.last.col.toUInt64 - c.col + 1)) := by
      refine add?_of_lt ?_
      rw [UInt64.toNat_mul, UInt64.toNat_add, toNat_last_row_sub hrow, h.toNat_last_col_sub,
        toNat_colCount hc.ordered, UInt64.toNat_one, Nat.mod_eq_of_lt (a := _ * _) (by omega),
        Nat.mod_eq_of_lt (a := _ - _ + 1) (by omega), UInt64.size]
      omega
    rw [if_neg hend, if_neg hend]
    simp only [Option.bind_eq_bind, Option.bind_some, hc.ordered.colCount?_eq, hrows, hcols,
      hbelow, hpresent, hsum]

theorem OnRange.next?_eq (h : c.OnRange) : c.next? = some c.next := by
  have hrow32 := c.range.last.row.toNat_lt
  have hcol32 := c.range.last.col.toNat_lt
  have hcol := h.col_le
  rw [next?, next]
  by_cases hend : c.range.last.row.toUInt64 < c.row
  · rw [if_pos hend, if_pos hend]
  · have hrow : c.row.toNat ≤ c.range.last.row.toNat := by
      rwa [UInt64.lt_iff_toNat_lt, UInt32.toNat_toUInt64, Nat.not_lt] at hend
    have hcell : short? c.col = some c.col.toUInt32 ∧ short? c.row = some c.row.toUInt32 := by
      constructor
      all_goals
        refine short?_of_lt ?_
        rw [UInt32.size]
        omega
    have hplace : add? c.col 1 = some (c.col + 1) ∧ add? c.row 1 = some (c.row + 1) := by
      constructor
      all_goals
        refine add?_of_lt ?_
        rw [UInt64.toNat_one, UInt64.size]
        omega
    rw [if_neg hend, if_neg hend]
    simp only [Option.bind_eq_bind, Option.bind_some, hcell, hplace]
    split
    next => rfl
    next => rfl

end Cursor

/-! ## Ranges that come from a text -/

/-- The text is read as the range, or as a formula in which it stands. -/
def ReadFrom (r : Range) (text : String) : Prop :=
  parse text = .ok r ∨ ∃ e, Expr.parse? text = .ok (some e) ∧ r ∈ e.ranges

theorem ReadFrom.countable (h : r.ReadFrom text) : r.Countable := by
  rcases h with hrange | ⟨e, hformula, hr⟩
  · exact countable_of_parse hrange
  · have hparse : Expr.parse text = some e := by rw [Expr.parse, hformula]
    exact Expr.countable_of_parse hparse r hr

theorem Countable.keys_eq_error_iff (h : r.Countable) (limit : UInt64) :
    (Expr.range r).keys limit = .error ⟨r, limit⟩ ↔ limit.toNat < r.height * r.width := by
  rw [← h.lt_cellCount_iff, Expr.keys, Expr.addKeys]
  split
  next habove => exact iff_of_true rfl habove
  next hnot => exact iff_of_false (fun herror ↦ by cases herror) hnot

/-- **Sizes never wrap.** Take a range that comes from a text. Each of its sizes, worked out by
checked steps, is the size without checks, and it is the true number; so are, at every place of its
cursor, the number of cells to come and the next step. Hence the range is found above a limit when
its true number of cells is, whatever the limit, and a formula of the text is turned down when it
has such a range. -/
theorem checked_of_readFrom (r : Range) (text : String) (limit : UInt64) (h : r.ReadFrom text) :
    (r.rowCount? = some r.rowCount ∧
      r.rowCount.toNat = r.last.row.toNat - r.first.row.toNat + 1) ∧
    (r.colCount? = some r.colCount ∧
      r.colCount.toNat = r.last.col.toNat - r.first.col.toNat + 1) ∧
    (r.cellCount? = some r.cellCount ∧
      r.cellCount.toNat = r.rowCount.toNat * r.colCount.toNat) ∧
    (∀ n, (r.cursor.advance n).remaining? = some (r.cursor.advance n).remaining ∧
      (r.cursor.advance n).next? = some (r.cursor.advance n).next) ∧
    (limit < r.cellCount ↔ limit.toNat < r.rowCount.toNat * r.colCount.toNat) ∧
    ((Expr.range r).keys limit = .error ⟨r, limit⟩ ↔
      limit.toNat < r.rowCount.toNat * r.colCount.toNat) ∧
    ((∃ o, Expr.formulaKeys limit (Expr.parse text) = .error o) ↔
      ∃ e, Expr.parse text = some e ∧
        ∃ q ∈ e.ranges, limit.toNat < q.rowCount.toNat * q.colCount.toNat) := by
  have hc : r.Countable := h.countable
  have hrows : r.rowCount.toNat = r.height := toNat_rowCount hc.ordered
  have hcols : r.colCount.toNat = r.width := toNat_colCount hc.ordered
  refine ⟨⟨hc.ordered.rowCount?_eq, ?_⟩, ⟨hc.ordered.colCount?_eq, ?_⟩,
    ⟨hc.cellCount?_eq, ?_⟩, fun n ↦ ?_, ?_, ?_, ?_⟩
  · have hle : r.first.row.toNat ≤ r.last.row.toNat := UInt32.le_iff_toNat_le.mp hc.ordered.2
    rw [hrows, height, Nat.sub_add_comm hle]
  · have hle : r.first.col.toNat ≤ r.last.col.toNat := UInt32.le_iff_toNat_le.mp hc.ordered.1
    rw [hcols, width, Nat.sub_add_comm hle]
  · rw [hc.toNat_cellCount, hrows, hcols]
  · obtain ⟨hon, hrange, -⟩ := (Cursor.onRange_cursor hc.ordered).advance n
    exact ⟨hon.remaining?_eq (by rw [hrange]; exact hc), hon.next?_eq⟩
  · rw [hc.lt_cellCount_iff, hrows, hcols]
  · rw [hc.keys_eq_error_iff, hrows, hcols]
  · rw [← Expr.oversized_parse_iff, Expr.Oversized]
    refine exists_congr fun e ↦ and_congr_right fun he ↦ exists_congr fun q ↦
      and_congr_right fun hq ↦ ?_
    have hq' : q.Ordered := (Expr.countable_of_parse he q hq).ordered
    rw [toNat_rowCount hq', toNat_colCount hq']

/-- The widest range that a text names. It lacks one column of the grid, and its number of cells is
the one next above the limit here. -/
theorem checked_widest :
    let widest : Range := ⟨⟨0, 0⟩, ⟨4294967294, 4294967295⟩⟩
    let limit : UInt64 := 18446744069414584319
    widest.ReadFrom "A0:MWLQKWU4294967295" ∧ widest.rowCount? = some 4294967296 ∧
      widest.colCount? = some 4294967295 ∧ widest.cellCount? = some 18446744069414584320 ∧
      limit < widest.cellCount ∧ (Expr.range widest).keys limit = .error ⟨widest, limit⟩ := by
  intro widest limit
  have hordered : widest.Ordered := by decide
  have htext : Range.text ⟨⟨0, 0⟩, ⟨4294967294, 4294967295⟩⟩ = "A0:MWLQKWU4294967295" := by
    rw [Range.text, Address.key, Address.key, letters_first, letters_last_but_one]
    rfl
  have hread : widest.ReadFrom "A0:MWLQKWU4294967295" := by
    refine Or.inl ?_
    exact htext ▸ hordered.parse_text.trans (if_pos (by decide))
  obtain ⟨⟨hrows, -⟩, ⟨hcols, -⟩, ⟨hcells, -⟩, -, hlimit, hkeys, -⟩ :=
    checked_of_readFrom widest "A0:MWLQKWU4294967295" limit hread
  exact ⟨hread, hrows.trans (congrArg some (by decide)), hcols.trans (congrArg some (by decide)),
    hcells.trans (congrArg some (by decide)), hlimit.mpr (by decide), hkeys.mpr (by decide)⟩

end Range

end FormulaSheet
