import FormulaSheet.Text.UpperTable

/-!
# Capital letters

The capital form of a text, character by character, by the full Unicode mapping: a letter may become
two or three, as `ß` becomes `SS`. The mapping looks at no neighbour, so it commutes with joining
texts.
-/

namespace FormulaSheet.Upper

/-- Whether a run holds the letter with code `n`. -/
def Run.covers (r : Run) (n : Nat) : Bool :=
  r.first ≤ n && n ≤ r.last && (n - r.first) % r.step == 0

/-- The capital form of one character. A character without one stands for itself. -/
def ofChar (c : Char) : List Char :=
  if c.toNat < 128 then [c.toUpper]
  else match expansions.lookup c.toNat with
    | some codes => codes.map Char.ofNat
    | none => match runs.find? (·.covers c.toNat) with
      | some r => [Char.ofNat (r.image + (c.toNat - r.first))]
      | none => [c]

/-- The capital form of a list of characters. -/
def ofChars (cs : List Char) : List Char := cs.flatMap ofChar

theorem ofChars_append (cs ds : List Char) : ofChars (cs ++ ds) = ofChars cs ++ ofChars ds := by
  simp [ofChars]

end FormulaSheet.Upper

namespace FormulaSheet

/-- The capital form of a text. -/
def upper (text : String) : String := String.ofList (Upper.ofChars text.toList)

theorem upper_append (s t : String) : upper (s ++ t) = upper s ++ upper t := by
  simp [upper, Upper.ofChars_append, String.ofList_append]

end FormulaSheet
