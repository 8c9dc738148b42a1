import FormulaSheet.Text.Printable

/-!
# Text between quotes

A text shown between quotes so that every character can be made out: quote and backslash are
preceded by a backslash, the usual controls have a letter each, and any other character that is not
printable is given by its code in braces.
-/

namespace FormulaSheet.Literal

/-- One character between quotes. -/
def escape (c : Char) : List Char :=
  if c = '"' then ['\\', '"']
  else if c = '\\' then ['\\', '\\']
  else if c = '\n' then ['\\', 'n']
  else if c = '\r' then ['\\', 'r']
  else if c = '\t' then ['\\', 't']
  else if c = '\x00' then ['\\', '0']
  else if isPrintable c then [c]
  else ['\\', 'u', '\x7b'] ++ Nat.toDigits 16 c.toNat ++ ['\x7d']

/-- The text between quotes. -/
def quote (text : String) : String :=
  "\"" ++ String.ofList (text.toList.flatMap escape) ++ "\""

end FormulaSheet.Literal
