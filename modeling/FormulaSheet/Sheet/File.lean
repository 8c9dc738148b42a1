import FormulaSheet.Text.Blank

/-!
# Sheet files

A sheet file has one cell to a line: its name, white space, and its formula. White space around both
is of no account, and a name alone stands for an empty cell. Blank lines are skipped, and so are
comments, which are lines that start with `#`.

A carriage return at the end of a line is white space, so files with either kind of line end read
the same.
-/

namespace FormulaSheet.SheetFile

/-- Puts a character in front of the first line, or opens a new line. -/
def consLine (c : Char) (lines : List (List Char)) : List (List Char) :=
  if c = '\n' then [] :: lines
  else match lines with
    | [] => [[c]]
    | line :: lines => (c :: line) :: lines

/-- The lines of a text. -/
def lines (cs : List Char) : List (List Char) := cs.foldr consLine [[]]

theorem lines_cons (c : Char) (cs : List Char) : lines (c :: cs) = consLine c (lines cs) := rfl

/-- The cell and the formula on a line, if it has any. -/
def entry? (line : List Char) : Option (String × String) :=
  match trimBlanks line with
  | [] => none
  | '#' :: _ => none
  | entry =>
    some (String.ofList (entry.takeWhile (!isBlank ·)),
      String.ofList (trimBlanks (entry.dropWhile (!isBlank ·))))

/-- The cells and formulas of a sheet file, in order. -/
def parse (text : String) : List (String × String) := (lines text.toList).filterMap entry?

end FormulaSheet.SheetFile
