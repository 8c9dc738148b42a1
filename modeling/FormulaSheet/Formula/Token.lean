import FormulaSheet.Formula.Fault

/-!
# Tokens

Formula text falls into parentheses, quoted texts and words. Words are the longest runs of
characters that are neither blanks, parentheses nor quotes; blanks separate words and are no tokens
themselves.

## Blanks first

Before anything else each run of spaces, tabs and line ends becomes one space, inside quotes too. A
quoted text therefore holds no tab, no line end and no two spaces side by side, and everything after
this step knows one blank only.

## What can go wrong

A quote that opens and does not close, and nothing else. There is no way to write a quote inside
quotes.
-/

namespace FormulaSheet

/-- A piece of formula text. -/
inductive Token where
  /-- An opening parenthesis. -/
  | openParen
  /-- A closing parenthesis. -/
  | closeParen
  /-- What stands between two quotes. -/
  | quoted (text : String)
  /-- A word. -/
  | value (text : String)
deriving DecidableEq

namespace Token

/-! ## Blanks -/

/-- Whether a character separates words: a space, a tab or a line end. -/
def isGap (c : Char) : Bool := c == ' ' || c == '\t' || c == '\n' || c == '\r'

/-- Puts a character in front of squeezed text, unless it adds a gap to a gap. -/
def squeezeCons (c : Char) (text : List Char) : List Char :=
  if isGap c then
    match text with
    | ' ' :: _ => text
    | _ => ' ' :: text
  else c :: text

/-- The text with each run of gap characters replaced by one space. -/
def squeeze (cs : List Char) : List Char := cs.foldr squeezeCons []

theorem squeeze_cons (c : Char) (cs : List Char) :
    squeeze (c :: cs) = squeezeCons c (squeeze cs) := rfl

/-! ## Words and quotes -/

/-- Whether a character ends a word, in squeezed text. -/
def endsWord (c : Char) : Bool := c == ' ' || c == '(' || c == ')' || c == '"'

/-- Takes squeezed text apart, behind the tokens `found` so far, the latest first. -/
def scan (found : List Token) (cs : List Char) : Except ParseFault (List Token) :=
  match cs with
  | [] => .ok found.reverse
  | c :: rest =>
    if c = ' ' then scan found rest
    else if c = '(' then scan (.openParen :: found) rest
    else if c = ')' then scan (.closeParen :: found) rest
    else if c = '"' then
      match _h : rest.dropWhile (· != '"') with
      | [] => .error .unterminatedString
      | _ :: after => scan (.quoted (String.ofList (rest.takeWhile (· != '"'))) :: found) after
    else
      scan (.value (String.ofList (c :: rest.takeWhile (!endsWord ·))) :: found)
        (rest.dropWhile (!endsWord ·))
termination_by cs.length
decreasing_by
  all_goals simp only [List.length_cons]
  · omega
  · omega
  · omega
  · have := (List.dropWhile_sublist (p := (· != '"')) (l := rest)).length_le
    rw [_h] at this
    simp only [List.length_cons] at this
    omega
  · have := (List.dropWhile_sublist (p := (!endsWord ·)) (l := rest)).length_le
    omega

/-- The tokens of a text. -/
def ofText (text : String) : Except ParseFault (List Token) := scan [] (squeeze text.toList)

end Token

end FormulaSheet
