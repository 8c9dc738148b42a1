import FormulaSheet.Grid.Column

/-!
# Addresses of cells

An address is a column and a row. Its text, the *key* under which everything else in this library
files a cell, is the column's letters followed by the row number in decimal, as in `AB12`.

Reading is more generous than writing in one respect only: the row may carry superfluous leading
zeros. `canonicalKey` removes that freedom, so that two spellings of one address meet in one key,
and leaves every text alone that is no address.

Addresses are ordered row by row: `A1`, `B1`, `A2`.
-/

namespace FormulaSheet

/-- A column and a row of the grid. -/
structure Address where
  /-- The column, counted from zero. -/
  col : UInt32
  /-- The row number. -/
  row : UInt32
deriving DecidableEq

namespace Address

/-- Row by row, and within a row by column. -/
instance : Ord Address where
  compare a b := (compare a.row b.row).then (compare a.col b.col)

/-! ## Writing -/

/-- The canonical text of an address. -/
def key (a : Address) : String := Column.letters a.col ++ Nat.repr a.row.toNat

/-! ## Reading -/

/-- Whether a character is one of the digits `0` to `9`. -/
def isDigit (c : Char) : Bool := '0' ≤ c && c ≤ '9'

theorem isDigit_iff {c : Char} : isDigit c = true ↔ '0' ≤ c ∧ c ≤ '9' := by
  simp [isDigit]

/-- Whether a text is made of digits alone, and of at least one. -/
def isDigits (cs : List Char) : Bool := !cs.isEmpty && cs.all isDigit

/-- The leading letters of a text, and what follows them. -/
def split (text : String) : List Char × List Char :=
  (text.toList.takeWhile Column.isLetter, text.toList.dropWhile Column.isLetter)

/-- Whether a text has the form of an address: letters, then digits, at least one of each. -/
def HasForm (text : String) : Prop :=
  (split text).1 ≠ [] ∧ isDigits (split text).2 = true

instance (text : String) : Decidable (HasForm text) :=
  inferInstanceAs (Decidable (_ ∧ _))

/-- The row written by a run of digits, in the text `whole`. -/
def readRow (whole : String) (digits : List Char) : Except AddressFault UInt32 :=
  let row := Nat.ofDigitChars 10 digits 0
  if row < UInt32.size then .ok (UInt32.ofNat row) else .error (.outOfBounds whole)

/-- Reads an address. A column past the edge is reported by its letters, and before the row is
looked at; a row past the edge is reported by the whole text. -/
def parse (text : String) : Except AddressFault Address :=
  if HasForm text then do
    let col ← Column.ofLetters (String.ofList (split text).1)
    let row ← readRow text (split text).2
    return ⟨col, row⟩
  else .error (.malformed text)

/-! ## Canonical keys -/

/-- The one spelling under which a cell is filed: an address is written out anew, any other text
stands for itself. -/
def canonicalKey (text : String) : String :=
  match parse text with
  | .ok a => a.key
  | .error _ => text

theorem canonicalKey_of_parse {text : String} {a : Address} (h : parse text = .ok a) :
    canonicalKey text = a.key := by
  simp [canonicalKey, h]

theorem canonicalKey_of_fault {text : String} {e : AddressFault} (h : parse text = .error e) :
    canonicalKey text = text := by
  simp [canonicalKey, h]

end Address

end FormulaSheet
