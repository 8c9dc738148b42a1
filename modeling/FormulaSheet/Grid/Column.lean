import FormulaSheet.Grid.Fault

/-!
# Column letters

Columns are counted from zero and named by capital letters: `A` to `Z`, then `AA`, `AB` and so on. A
name is a numeral in base 26 whose digits run from one (`A`) to twenty-six (`Z`). Having no digit
zero, it has no leading zeros to drop, so every positive number has exactly one name; column `n`
bears the numeral of `n + 1`.

## The last name that can be read

Reading stops as soon as the numeral passes `2 ^ 32 - 1`. The numeral of the very last column,
`2 ^ 32 - 1`, is `2 ^ 32`: it can be written and not read.
-/

namespace FormulaSheet.Column

/-! ## Writing -/

/-- The capital letter at distance `d` from `A`. -/
def letter (d : Nat) : Char := Char.ofNat ('A'.toNat + d)

/-- The letters of a number, the most significant first; zero has none. -/
def numeral (n : Nat) : List Char :=
  if n = 0 then [] else numeral ((n - 1) / 26) ++ [letter ((n - 1) % 26)]
termination_by n

/-- The name of a column. -/
def letters (col : UInt32) : String := String.ofList (numeral (col.toNat + 1))

/-! ## Reading -/

/-- Whether a character is one of the capital letters `A` to `Z`. -/
def isLetter (c : Char) : Bool := 'A' ≤ c && c ≤ 'Z'

theorem isLetter_iff {c : Char} : isLetter c = true ↔ 'A' ≤ c ∧ c ≤ 'Z' := by
  simp [isLetter]

/-- The value of a letter as a digit, from one to twenty-six. -/
def digit (c : Char) : Nat := c.toNat - 'A'.toNat + 1

/-- The largest numeral that is read. -/
def limit : Nat := UInt32.size - 1

/-- Reads letters on from the value `n` of those already read. The leftmost fault is the one
reported, be it a character that is no letter or a value past `limit`. -/
def readFrom (name : String) : Nat → List Char → Except AddressFault Nat
  | n, [] => .ok n
  | n, c :: cs =>
    if isLetter c then
      let next := n * 26 + digit c
      if limit < next then .error (.outOfBounds name) else readFrom name next cs
    else .error (.badColumnLetter c)

/-- The column with the given name. -/
def ofLetters (name : String) : Except AddressFault UInt32 :=
  if name.isEmpty then .error .noColumnLetters
  else (readFrom name 0 name.toList).map fun n ↦ UInt32.ofNat (n - 1)

end FormulaSheet.Column
