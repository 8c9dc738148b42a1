import FormulaSheet.Grid.Range

/-!
# Walking over a range

The two ways to walk a range meet here: what a cursor yields from the first corner on are the rows
of the range, one behind the other. They hold the cells that the range contains, each of them once
and in the order of addresses.

## Words and numbers

A range is countable when its corners are in order and its cells, counted without a limit, are fewer
than `2 ^ 64`. Then no count wraps: sizes are the true ones, and at every place of the walk the
number of cells to come is what the cursor says it is. Only the range that spans all columns and all
rows is in order and not countable.
-/

namespace FormulaSheet

namespace Range

/-- The number of rows. -/
def height (r : Range) : Nat := r.last.row.toNat + 1 - r.first.row.toNat

/-- The number of columns. -/
def width (r : Range) : Nat := r.last.col.toNat + 1 - r.first.col.toNat

/-- The corners are in order, and a word has room for the number of cells. -/
structure Countable (r : Range) : Prop where
  /-- The corners are in order. -/
  ordered : r.Ordered
  /-- The number of cells fits. -/
  area_lt : r.height * r.width < UInt64.size

variable {r : Range}

/-! ## Sizes -/

private theorem toNat_corner_sub {lo hi : UInt32} (h : lo ≤ hi) :
    ((hi - lo).toUInt64 + 1).toNat = hi.toNat + 1 - lo.toNat := by
  have hle : lo.toNat ≤ hi.toNat := UInt32.le_iff_toNat_le.mp h
  have hlt : hi.toNat < 2 ^ 32 := hi.toNat_lt
  rw [UInt64.toNat_add, UInt32.toNat_toUInt64, UInt32.toNat_sub_of_le _ _ h, UInt64.toNat_one,
    Nat.mod_eq_of_lt (by omega)]
  omega

theorem toNat_rowCount (h : r.Ordered) : r.rowCount.toNat = r.height := toNat_corner_sub h.2

theorem toNat_colCount (h : r.Ordered) : r.colCount.toNat = r.width := toNat_corner_sub h.1

theorem Countable.toNat_cellCount (h : r.Countable) : r.cellCount.toNat = r.height * r.width := by
  rw [cellCount, UInt64.toNat_mul, toNat_rowCount h.ordered, toNat_colCount h.ordered,
    Nat.mod_eq_of_lt h.area_lt]

/-! ## What is ahead of a cursor -/

/-- The cells of one row from a column on. -/
def rowFrom (r : Range) (row col : Nat) : List Address :=
  (List.range' col (r.last.col.toNat + 1 - col)).map fun col ↦ ⟨.ofNat col, .ofNat row⟩

/-- The cells of all rows from one on. -/
def rowsFrom (r : Range) (row : Nat) : List Address :=
  (List.range' row (r.last.row.toNat + 1 - row)).flatMap fun row ↦ r.rowFrom row r.first.col.toNat

theorem rowFrom_of_le {row col : Nat} (h : col ≤ r.last.col.toNat) :
    r.rowFrom row col = ⟨.ofNat col, .ofNat row⟩ :: r.rowFrom row (col + 1) := by
  rw [rowFrom, rowFrom,
    show r.last.col.toNat + 1 - col = r.last.col.toNat + 1 - (col + 1) + 1 by omega,
    List.range'_succ, List.map_cons]

theorem rowFrom_of_lt {row col : Nat} (h : r.last.col.toNat < col) : r.rowFrom row col = [] := by
  rw [rowFrom, Nat.sub_eq_zero_of_le h, List.range'_zero, List.map_nil]

theorem rowsFrom_of_le {row : Nat} (h : row ≤ r.last.row.toNat) :
    r.rowsFrom row = r.rowFrom row r.first.col.toNat ++ r.rowsFrom (row + 1) := by
  rw [rowsFrom, rowsFrom,
    show r.last.row.toNat + 1 - row = r.last.row.toNat + 1 - (row + 1) + 1 by omega,
    List.range'_succ, List.flatMap_cons]

theorem rowsFrom_of_lt {row : Nat} (h : r.last.row.toNat < row) : r.rowsFrom row = [] := by
  rw [rowsFrom, Nat.sub_eq_zero_of_le h, List.range'_zero, List.flatMap_nil]

theorem length_rowFrom (r : Range) (row col : Nat) :
    (r.rowFrom row col).length = r.last.col.toNat + 1 - col := by
  rw [rowFrom, List.length_map, List.length_range']

theorem length_rowsFrom (r : Range) (row : Nat) :
    (r.rowsFrom row).length = (r.last.row.toNat + 1 - row) * r.width := by
  have hrow : ∀ i ∈ List.range' row (r.last.row.toNat + 1 - row),
      (r.rowFrom i r.first.col.toNat).length = r.width := fun i _ ↦ length_rowFrom r i _
  rw [rowsFrom, List.length_flatMap, List.map_congr_left hrow, List.map_const',
    List.sum_replicate_nat, List.length_range']

theorem flatten_rows (r : Range) : r.rows.flatten = r.rowsFrom r.first.row.toNat := by
  simp only [rows, span, List.map_map, rowsFrom, List.flatMap]
  rfl

namespace Cursor

/-- The cells that a cursor has still to yield, in order. -/
def ahead (c : Cursor) : List Address :=
  if c.range.last.row.toNat < c.row.toNat then []
  else c.range.rowFrom c.row.toNat c.col.toNat ++ c.range.rowsFrom (c.row.toNat + 1)

/-- The place is in a row of the range or one below, and in a column of the range. -/
structure OnRange (c : Cursor) : Prop where
  /-- The row is not above the range. -/
  first_row_le : c.range.first.row.toNat ≤ c.row.toNat
  /-- The row is at most one below the range. -/
  row_le : c.row.toNat ≤ c.range.last.row.toNat + 1
  /-- The column is not left of the range. -/
  first_col_le : c.range.first.col.toNat ≤ c.col.toNat
  /-- The column is not right of the range. -/
  col_le : c.col.toNat ≤ c.range.last.col.toNat

theorem onRange_cursor (h : r.Ordered) : r.cursor.OnRange := by
  have hcol : r.first.col.toNat ≤ r.last.col.toNat := UInt32.le_iff_toNat_le.mp h.1
  have hrow : r.first.row.toNat ≤ r.last.row.toNat := UInt32.le_iff_toNat_le.mp h.2
  constructor <;> simp only [cursor, UInt32.toNat_toUInt64] <;> omega

theorem ahead_cursor (h : r.Ordered) : r.cursor.ahead = r.rows.flatten := by
  have hrow : r.first.row.toNat ≤ r.last.row.toNat := UInt32.le_iff_toNat_le.mp h.2
  rw [flatten_rows, rowsFrom_of_le hrow, ahead]
  simp only [cursor, UInt32.toNat_toUInt64]
  rw [if_neg (Nat.not_lt.mpr hrow)]

variable {c c' : Cursor} {a : Address}

theorem ahead_of_next_none (hnext : c.next = none) : c.ahead = [] := by
  rw [next] at hnext
  split at hnext
  · next hlt =>
    rw [ahead, if_pos (by simpa using UInt64.lt_iff_toNat_lt.mp hlt)]
  · cases hnext

theorem OnRange.ahead_of_next_some (h : c.OnRange) (hnext : c.next = some (a, c')) :
    c.ahead = a :: c'.ahead ∧ c'.OnRange ∧ c'.range = c.range := by
  obtain ⟨h1, h2, h3, h4⟩ := h
  have hrow32 : c.range.last.row.toNat < 2 ^ 32 := c.range.last.row.toNat_lt
  have hcol32 : c.range.last.col.toNat < 2 ^ 32 := c.range.last.col.toNat_lt
  rw [next] at hnext
  split at hnext
  · cases hnext
  next hle =>
  have hrow : c.row.toNat ≤ c.range.last.row.toNat := by
    have := mt UInt64.lt_iff_toNat_lt.mpr hle
    rw [UInt32.toNat_toUInt64] at this
    omega
  -- columns and rows take up half the width of a place, so neither sum wraps
  have hafter : (c.col + 1).toNat = c.col.toNat + 1 := by
    rw [UInt64.toNat_add, UInt64.toNat_one, Nat.mod_eq_of_lt (by omega)]
  have hbelow : (c.row + 1).toNat = c.row.toNat + 1 := by
    rw [UInt64.toNat_add, UInt64.toNat_one, Nat.mod_eq_of_lt (by omega)]
  rw [Option.some.injEq, Prod.mk.injEq] at hnext
  obtain ⟨rfl, hc'⟩ := hnext
  rw [ahead, if_neg (by omega), rowFrom_of_le h4, List.cons_append]
  by_cases hend : c.range.last.col.toNat < c.col.toNat + 1
  -- the cell was the last of its row
  · rw [if_pos (by rw [UInt64.lt_iff_toNat_lt, hafter, UInt32.toNat_toUInt64]; exact hend)] at hc'
    subst hc'
    refine ⟨?_, ⟨?_, ?_, ?_, ?_⟩, rfl⟩
    · rw [rowFrom_of_lt hend, List.nil_append, ahead]
      simp only [hbelow, UInt32.toNat_toUInt64]
      split
      next hlast => rw [rowsFrom_of_lt hlast]; rfl
      next hlast => rw [rowsFrom_of_le (Nat.not_lt.mp hlast)]; rfl
    all_goals simp only [hbelow, UInt32.toNat_toUInt64]; omega
  · rw [if_neg (by rw [UInt64.lt_iff_toNat_lt, hafter, UInt32.toNat_toUInt64]; exact hend)] at hc'
    subst hc'
    refine ⟨?_, ⟨?_, ?_, ?_, ?_⟩, rfl⟩
    · rw [ahead]
      simp only [hafter]
      rw [if_neg (by omega)]
      rfl
    all_goals simp only [hafter]; omega

/-! ### Counting what is ahead -/

theorem toNat_last_row_sub (hrow : c.row.toNat ≤ c.range.last.row.toNat) :
    (c.range.last.row.toUInt64 - c.row).toNat = c.range.last.row.toNat - c.row.toNat := by
  have hle : c.row ≤ c.range.last.row.toUInt64 := by
    rwa [UInt64.le_iff_toNat_le, UInt32.toNat_toUInt64]
  rw [UInt64.toNat_sub_of_le _ _ hle, UInt32.toNat_toUInt64]

theorem OnRange.toNat_last_col_sub (h : c.OnRange) :
    (c.range.last.col.toUInt64 - c.col).toNat = c.range.last.col.toNat - c.col.toNat := by
  have hle : c.col ≤ c.range.last.col.toUInt64 := by
    rw [UInt64.le_iff_toNat_le, UInt32.toNat_toUInt64]
    exact h.col_le
  rw [UInt64.toNat_sub_of_le _ _ hle, UInt32.toNat_toUInt64]

theorem OnRange.right_le_width (h : c.OnRange) :
    c.range.last.col.toNat - c.col.toNat + 1 ≤ c.range.width := by
  have hfirst := h.first_col_le
  have hcol := h.col_le
  rw [width]
  omega

/-- The rows below a place in the range and one more lie in the range. -/
theorem OnRange.area_below_le (h : c.OnRange) (hrow : c.row.toNat ≤ c.range.last.row.toNat) :
    (c.range.last.row.toNat - c.row.toNat) * c.range.width + c.range.width
      ≤ c.range.height * c.range.width := by
  have hfirst := h.first_row_le
  rw [← Nat.succ_mul]
  refine Nat.mul_le_mul_right _ ?_
  rw [height]
  omega

/-- The cells to come are counted without wrapping. -/
theorem OnRange.toNat_remaining (h : c.OnRange) (hc : c.range.Countable) :
    c.remaining.toNat = c.ahead.length := by
  have hcol32 : c.range.last.col.toNat < 2 ^ 32 := c.range.last.col.toNat_lt
  rw [remaining, ahead]
  by_cases hend : c.range.last.row.toNat < c.row.toNat
  · rw [if_pos (by rwa [UInt64.lt_iff_toNat_lt, UInt32.toNat_toUInt64]), if_pos hend]
    rfl
  · rw [if_neg (by rwa [UInt64.lt_iff_toNat_lt, UInt32.toNat_toUInt64]), if_neg hend,
      List.length_append, length_rowFrom, length_rowsFrom]
    have hrow : c.row.toNat ≤ c.range.last.row.toNat := Nat.not_lt.mp hend
    have hwidth := h.right_le_width
    have harea := h.area_below_le hrow
    have hcol := h.col_le
    have hlt := hc.area_lt
    rw [UInt64.size] at hlt
    rw [UInt64.toNat_add, UInt64.toNat_mul, UInt64.toNat_add, UInt64.toNat_one,
      toNat_last_row_sub hrow, h.toNat_last_col_sub, toNat_colCount hc.ordered,
      Nat.mod_eq_of_lt (a := _ * _) (by omega), Nat.mod_eq_of_lt (a := _ - _ + 1) (by omega),
      Nat.mod_eq_of_lt (by omega)]
    rw [show c.range.last.row.toNat + 1 - (c.row.toNat + 1)
      = c.range.last.row.toNat - c.row.toNat by omega]
    omega

/-! ## The walk -/

theorem OnRange.walk_eq (h : c.OnRange) (met : List Address) :
    (c.walk met).reverse = met.reverse ++ c.ahead := by
  fun_induction walk c met with
  | case1 c met hnext => rw [ahead_of_next_none hnext, List.append_nil]
  | case2 c met a after hnext ih =>
    obtain ⟨hahead, hafter, -⟩ := h.ahead_of_next_some hnext
    rw [ih hafter, hahead, List.reverse_cons, List.append_assoc, List.singleton_append]

end Cursor

/-- **The two walks.** A cursor yields the rows of a range, one behind the other. -/
theorem Ordered.cells_eq (h : r.Ordered) : r.cells = r.rows.flatten := by
  have hwalk := (Cursor.onRange_cursor h).walk_eq []
  rwa [List.reverse_nil, List.nil_append, Cursor.ahead_cursor h] at hwalk

/-! ## The cells of the rows -/

theorem mem_span_iff {lo hi w : UInt32} : w ∈ span lo hi ↔ lo ≤ w ∧ w ≤ hi := by
  rw [span, List.mem_map, UInt32.le_iff_toNat_le, UInt32.le_iff_toNat_le]
  constructor
  · rintro ⟨n, hn, rfl⟩
    have hhi := hi.toNat_lt_size
    rw [List.mem_range'_1] at hn
    rw [UInt32.toNat_ofNat_of_lt' (by omega)]
    omega
  · intro h
    exact ⟨w.toNat, List.mem_range'_1.mpr (by omega), UInt32.ofNat_toNat⟩

theorem pairwise_span (lo hi : UInt32) : (span lo hi).Pairwise (· < ·) := by
  rw [span, List.pairwise_map]
  refine (List.pairwise_lt_range' 1).imp_of_mem fun {m n} hm hn hlt ↦ ?_
  have hhi := hi.toNat_lt_size
  rw [List.mem_range'_1] at hm hn
  rw [UInt32.lt_iff_toNat_lt, UInt32.toNat_ofNat_of_lt' (by omega),
    UInt32.toNat_ofNat_of_lt' (by omega)]
  exact hlt

theorem mem_rows_iff {a : Address} : a ∈ r.rows.flatten ↔ r.contains a = true := by
  rw [contains_iff, List.mem_flatten]
  constructor
  · rintro ⟨cells, hcells, ha⟩
    obtain ⟨row, hrow, rfl⟩ := List.mem_map.mp hcells
    obtain ⟨col, hcol, rfl⟩ := List.mem_map.mp ha
    exact ⟨mem_span_iff.mp hrow, mem_span_iff.mp hcol⟩
  · rintro ⟨hrow, hcol⟩
    exact ⟨_, List.mem_map_of_mem (mem_span_iff.mpr hrow),
      List.mem_map_of_mem (mem_span_iff.mpr hcol)⟩

theorem ordered_of_mem_rows {a : Address} (h : a ∈ r.rows.flatten) : r.Ordered := by
  obtain ⟨⟨hrow, hrow'⟩, hcol, hcol'⟩ := contains_iff.mp (mem_rows_iff.mp h)
  exact ⟨UInt32.le_trans hcol hcol', UInt32.le_trans hrow hrow'⟩

theorem pairwise_rows (r : Range) : r.rows.flatten.Pairwise fun a b ↦ compare a b = .lt := by
  rw [List.pairwise_flatten, rows, List.pairwise_map]
  constructor
  · intro cells hcells
    obtain ⟨row, -, rfl⟩ := List.mem_map.mp hcells
    rw [List.pairwise_map]
    refine (pairwise_span _ _).imp fun hcol ↦ ?_
    exact Ordering.then_eq_lt.mpr (Or.inr ⟨Std.compare_self, Std.compare_eq_lt.mpr hcol⟩)
  · refine (pairwise_span _ _).imp fun hrow a ha b hb ↦ ?_
    obtain ⟨col, -, rfl⟩ := List.mem_map.mp ha
    obtain ⟨col', -, rfl⟩ := List.mem_map.mp hb
    exact Ordering.then_eq_lt.mpr (Or.inl (Std.compare_eq_lt.mpr hrow))

theorem nodup_rows (r : Range) : r.rows.flatten.Nodup := by
  refine (pairwise_rows r).imp ?_
  rintro a _ hlt rfl
  rcases Ordering.then_eq_lt.mp hlt with hrow | ⟨-, hcol⟩
  · rw [Std.compare_self] at hrow
    cases hrow
  · rw [Std.compare_self] at hcol
    cases hcol

theorem length_rows (r : Range) : r.rows.flatten.length = r.height * r.width := by
  rw [flatten_rows, length_rowsFrom, height]

end Range

end FormulaSheet
