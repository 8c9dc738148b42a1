/-!
# Faults in addresses and ranges

Text is refused as an address for one of two kinds of reason: it is not of the form *letters then
digits*, or it is of that form and names a column or a row outside the grid. A rectangle is refused
when its corners are in the wrong order. Each cause is a constructor; `AddressFault.message` is the
only place that words them.
-/

namespace FormulaSheet

/-- Why a text names no address, or two corners span no range. -/
inductive AddressFault where
  /-- The text is not of the required form. -/
  | malformed (text : String)
  /-- A column was asked for and no letter given. -/
  | noColumnLetters
  /-- A column name holds something other than a capital letter. -/
  | badColumnLetter (letter : Char)
  /-- The form is right and the number too large for the grid. -/
  | outOfBounds (text : String)
  /-- The first corner lies right of the second. -/
  | reversedColumns
  /-- The first corner lies below the second. -/
  | reversedRows
deriving DecidableEq

/-- The wording of a fault. -/
def AddressFault.message : AddressFault → String
  | .malformed text => "Invalid cell address: " ++ text
  | .noColumnLetters => "Invalid cell address: empty column letters"
  | .badColumnLetter letter =>
    "Invalid cell address: invalid column letter '" ++ letter.toString ++ "'"
  | .outOfBounds text => "Cell address out of bounds: " ++ text
  | .reversedColumns => "Start column must be before end column"
  | .reversedRows => "Start row must be before end row"

end FormulaSheet
