import FormulaSheet.Grid.Fault

/-!
# Faults in formula text

Why a text is no formula. `ParseFault.message` is the only place that words the causes.
-/

namespace FormulaSheet

/-- Why a text is no formula. -/
inductive ParseFault where
  /-- A quote opens and does not close. -/
  | unterminatedString
  /-- There is no token. -/
  | emptyExpression
  /-- The first token closes a parenthesis. -/
  | unexpectedCloseParen
  /-- Something follows a word or a quoted text. -/
  | trailingTokens
  /-- Something follows the parenthesis that closes a call. -/
  | trailingAfterCall
  /-- The parenthesis of a call does not close. -/
  | unmatchedParen
  /-- Calls are nested more deeply than `limit`. -/
  | tooDeep (limit : Nat)
  /-- What follows an opening parenthesis is no word. -/
  | missingFunctionName
  /-- A word is neither a number nor a reference nor a range. -/
  | unknownValue (text : String)
  /-- A word has the form of a reference or a range and lies outside the grid, or is reversed. -/
  | address (fault : AddressFault)
deriving DecidableEq

/-- The wording of a fault. -/
def ParseFault.message : ParseFault → String
  | .unterminatedString => "Unterminated string"
  | .emptyExpression => "Empty expression"
  | .unexpectedCloseParen => "Unexpected close paren at start of expression"
  | .trailingTokens => "Unexpected tokens after simple value"
  | .trailingAfterCall => "Unexpected tokens after function call"
  | .unmatchedParen => "Unmatched open paren"
  | .tooDeep limit => "Formula nested deeper than " ++ Nat.repr limit ++ " levels"
  | .missingFunctionName => "Expected function name"
  | .unknownValue text => "Unknown value: " ++ text
  | .address fault => fault.message

end FormulaSheet
