import FormulaSheet.Number.Layout

/-!
# Exchanged data

Results are handed to other programs as JSON, on one line or spread over lines. Texts are written as
they are but for the quote, the backslash and the controls below the blank; numbers are written in
`NumberFormat.exchange`, which turns what is not finite into `null`.
-/

namespace FormulaSheet

/-- A tree of exchanged data. -/
inductive Json where
  /-- A double. -/
  | number (x : Float)
  /-- A natural number. -/
  | natural (n : Nat)
  /-- A text. -/
  | text (s : String)
  /-- A list. -/
  | list (items : List Json)
  /-- Named members in the given order. -/
  | record (members : List (String × Json))

namespace Json

/-- One character of a text. -/
def escape (c : Char) : List Char :=
  if c = '"' then ['\\', '"']
  else if c = '\\' then ['\\', '\\']
  else if c = '\x08' then ['\\', 'b']
  else if c = '\x0c' then ['\\', 'f']
  else if c = '\n' then ['\\', 'n']
  else if c = '\r' then ['\\', 'r']
  else if c = '\t' then ['\\', 't']
  else if c < ' ' then
    ['\\', 'u', '0', '0', Nat.digitChar (c.toNat / 16), Nat.digitChar (c.toNat % 16)]
  else [c]

/-- A text between quotes. -/
def quote (s : String) : String := "\"" ++ String.ofList (s.toList.flatMap escape) ++ "\""

/-! ## On one line -/

mutual

/-- The data on one line, without blanks. -/
def compact : Json → String
  | .number x => NumberFormat.exchange.write x
  | .natural n => Nat.repr n
  | .text s => quote s
  | .list items => "[" ++ ",".intercalate (compactItems items) ++ "]"
  | .record members => "\x7b" ++ ",".intercalate (compactMembers members) ++ "\x7d"

/-- The items of a list. -/
def compactItems : List Json → List String
  | [] => []
  | item :: items => item.compact :: compactItems items

/-- The members of a record. -/
def compactMembers : List (String × Json) → List String
  | [] => []
  | (name, value) :: members => (quote name ++ ":" ++ value.compact) :: compactMembers members

end

/-! ## Over several lines -/

/-- Texts one to a line between two brackets, each further in than `margin`. -/
def block (opening closing margin : String) : List String → String
  | [] => opening ++ closing
  | lines =>
    opening ++ "\n" ++ ",\n".intercalate (lines.map (margin ++ "  " ++ ·)) ++ "\n" ++ margin ++ closing

mutual

/-- The data over several lines, all but the first behind `margin`, two blanks for each level. -/
def pretty (margin : String) : Json → String
  | .number x => NumberFormat.exchange.write x
  | .natural n => Nat.repr n
  | .text s => quote s
  | .list items => block "[" "]" margin (prettyItems (margin ++ "  ") items)
  | .record members => block "\x7b" "\x7d" margin (prettyMembers (margin ++ "  ") members)

/-- The items of a list. -/
def prettyItems (margin : String) : List Json → List String
  | [] => []
  | item :: items => item.pretty margin :: prettyItems margin items

/-- The members of a record. -/
def prettyMembers (margin : String) : List (String × Json) → List String
  | [] => []
  | (name, value) :: members =>
    (quote name ++ ": " ++ value.pretty margin) :: prettyMembers margin members

end

end Json

end FormulaSheet
