import FormulaSheet.Grid.Address

/-!
# Rectangular ranges

A range is given by two opposite corners, the first one not right of the second and not below it.
Its text is the two keys joined by a colon.

## Two ways to walk a range

`rows` lists the cells row by row. A `Cursor` holds a place in the same walk and yields one cell at
a time, knowing how many are left; `cells` is what a cursor yields from the first corner on.

## Fixed width

Counts and cursor positions are 64-bit words, and corners 32-bit words. The difference of two
corners is taken before it is widened, which is sound because the corners are in order; a product of
two counts stays below `2 ^ 64` unless the range spans the whole grid.
-/

namespace FormulaSheet

/-- Two opposite corners of a rectangle of cells. -/
structure Range where
  /-- The upper left corner. -/
  first : Address
  /-- The lower right corner. -/
  last : Address
deriving DecidableEq

namespace Range

/-- The corners are in order, columns and rows alike. -/
def Ordered (r : Range) : Prop :=
  r.first.col ≤ r.last.col ∧ r.first.row ≤ r.last.row

instance (r : Range) : Decidable r.Ordered :=
  inferInstanceAs (Decidable (_ ∧ _))

/-- The range between two corners, which must be in order. Columns are looked at first. -/
def ofCorners (first last : Address) : Except AddressFault Range :=
  if last.col < first.col then .error .reversedColumns
  else if last.row < first.row then .error .reversedRows
  else .ok ⟨first, last⟩

theorem ofCorners_eq_ok_iff {first last : Address} {r : Range} :
    ofCorners first last = .ok r ↔ r = ⟨first, last⟩ ∧ r.Ordered := by
  unfold ofCorners
  split
  · rename_i h
    constructor
    · intro h'; cases h'
    · rintro ⟨rfl, h', -⟩; exact absurd h (UInt32.not_lt.2 h')
  · split
    · rename_i h
      constructor
      · intro h'; cases h'
      · rintro ⟨rfl, -, h'⟩; exact absurd h (UInt32.not_lt.2 h')
    · rename_i hc hr
      constructor
      · intro h; cases h; exact ⟨rfl, UInt32.not_lt.1 hc, UInt32.not_lt.1 hr⟩
      · rintro ⟨rfl, -⟩; rfl

/-! ## Text -/

/-- The canonical text of a range. -/
def text (r : Range) : String := r.first.key ++ ":" ++ r.last.key

/-- Cuts a text at its first colon, if it has one. -/
def split (text : String) : Option (String × String) :=
  match text.toList.dropWhile (· != ':') with
  | [] => none
  | _ :: after => some (String.ofList (text.toList.takeWhile (· != ':')), String.ofList after)

/-- Reads a range: the first corner, then the second, then their order. -/
def parse (text : String) : Except AddressFault Range :=
  match split text with
  | none => .error (.malformed text)
  | some (first, last) => do
    let first ← Address.parse first
    let last ← Address.parse last
    ofCorners first last

/-! ## Extent -/

/-- Whether an address lies within the rectangle. -/
def contains (r : Range) (a : Address) : Bool :=
  r.first.row ≤ a.row && a.row ≤ r.last.row && r.first.col ≤ a.col && a.col ≤ r.last.col

theorem contains_iff {r : Range} {a : Address} :
    r.contains a = true ↔
      (r.first.row ≤ a.row ∧ a.row ≤ r.last.row) ∧ (r.first.col ≤ a.col ∧ a.col ≤ r.last.col) := by
  simp [contains, and_assoc]

/-- How many rows the range has. -/
def rowCount (r : Range) : UInt64 := (r.last.row - r.first.row).toUInt64 + 1

/-- How many columns the range has. -/
def colCount (r : Range) : UInt64 := (r.last.col - r.first.col).toUInt64 + 1

/-- How many cells the range has. -/
def cellCount (r : Range) : UInt64 := r.rowCount * r.colCount

/-! ## Rows -/

/-- The words from `lo` to `hi`, both included. -/
def span (lo hi : UInt32) : List UInt32 :=
  (List.range' lo.toNat (hi.toNat + 1 - lo.toNat)).map UInt32.ofNat

/-- The cells of the range, row by row. -/
def rows (r : Range) : List (List Address) :=
  (span r.first.row r.last.row).map fun row ↦
    (span r.first.col r.last.col).map fun col ↦ ⟨col, row⟩

/-! ## The cursor -/

/-- A place in the walk over a range, row by row. The position has room for one step past the last
row and the last column. -/
structure Cursor where
  /-- The range walked over. -/
  range : Range
  /-- The row of the next cell. -/
  row : UInt64
  /-- The column of the next cell. -/
  col : UInt64
deriving DecidableEq

/-- The cursor at the first corner. -/
def cursor (r : Range) : Cursor := ⟨r, r.first.row.toUInt64, r.first.col.toUInt64⟩

namespace Cursor

/-- How many cells are still to come: the full rows below, and what is left of the present one. -/
def remaining (c : Cursor) : UInt64 :=
  if c.range.last.row.toUInt64 < c.row then 0
  else (c.range.last.row.toUInt64 - c.row) * c.range.colCount
    + (c.range.last.col.toUInt64 - c.col + 1)

/-- The next cell and the place after it, unless the walk is over. -/
def next (c : Cursor) : Option (Address × Cursor) :=
  if c.range.last.row.toUInt64 < c.row then none
  else
    let after := c.col + 1
    some (⟨c.col.toUInt32, c.row.toUInt32⟩,
      if c.range.last.col.toUInt64 < after then ⟨c.range, c.row + 1, c.range.first.col.toUInt64⟩
      else ⟨c.range, c.row, after⟩)

/-- The rows from the present one on, and the columns right of the present one. A step leaves fewer
rows, or as many rows and fewer columns. -/
def toCome (c : Cursor) : Nat × Nat :=
  (c.range.last.row.toNat + 1 - c.row.toNat, (c.range.last.col.toUInt64 - c.col).toNat)

theorem toCome_lt {c after : Cursor} {a : Address} (h : c.next = some (a, after)) :
    Prod.Lex (· < ·) (· < ·) after.toCome c.toCome := by
  have hrow : c.range.last.row.toNat < 2 ^ 32 := c.range.last.row.toNat_lt
  have hcol : c.range.last.col.toNat < 2 ^ 32 := c.range.last.col.toNat_lt
  have hplace : c.col.toNat < 2 ^ 64 := c.col.toNat_lt
  rw [next] at h
  split at h
  · cases h
  next hle =>
  rw [UInt64.not_lt, UInt64.le_iff_toNat_le, UInt32.toNat_toUInt64] at hle
  obtain ⟨-, rfl⟩ := Prod.mk.inj (Option.some.inj h)
  split
  next =>
    refine .left _ _ ?_
    dsimp only
    rw [UInt64.toNat_add, UInt64.toNat_one]
    omega
  next hin =>
    rw [UInt64.not_lt, UInt64.le_iff_toNat_le, UInt64.toNat_add, UInt64.toNat_one,
      UInt32.toNat_toUInt64] at hin
    refine .right _ ?_
    dsimp only
    rw [UInt64.toNat_sub, UInt64.toNat_sub, UInt64.toNat_add, UInt64.toNat_one,
      UInt32.toNat_toUInt64]
    omega

/-- The cells still to come, the last one first, in front of those `met`. -/
def walk (c : Cursor) (met : List Address) : List Address :=
  match _h : c.next with
  | none => met
  | some (a, after) => walk after (a :: met)
termination_by c.toCome
decreasing_by exact toCome_lt _h

/-- The cells still to come, in order. -/
def toList (c : Cursor) : List Address := (c.walk []).reverse

end Cursor

/-- The cells of the range in the order in which a cursor yields them. -/
def cells (r : Range) : List Address := r.cursor.toList

end Range

end FormulaSheet
