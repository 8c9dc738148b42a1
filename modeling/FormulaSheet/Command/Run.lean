import FormulaSheet.Command.Arguments
import FormulaSheet.Report.Tree
import FormulaSheet.Sheet.File
import FormulaSheet.Sheet.Listing

/-!
# Running commands

What a command prints, as a function of the command and of the file that it reads. Nothing here
reads or writes by itself: `Command.file?` tells which file is needed, and `Command.run` is given
its contents, or the reason why there are none.
-/

namespace FormulaSheet

/-- What a command leaves behind. -/
structure Outcome where
  /-- The exit code. -/
  code : UInt8
  /-- What is printed. -/
  output : String
  /-- What is reported as an error. -/
  errors : String
deriving DecidableEq

namespace Outcome

/-- All went well. -/
def printed (output : String) : Outcome := ⟨0, output, ""⟩

/-- Something went wrong, and why. -/
def failed (context cause : String) : Outcome :=
  ⟨1, "", "Error: " ++ context ++ "\n\nCaused by:\n    " ++ cause ++ "\n"⟩

/-- The arguments make no command. -/
def misused : Outcome :=
  ⟨2, "",
    "error: unknown or incomplete command\n\n" ++
    "Usage: eval [--cell=CELL]... [--format=text|json] [--strict] [--max-range-cells=N] FILE\n" ++
    "       deps [--strict] [--max-range-cells=N] FILE CELL\n" ++
    "       parse FORMULA\n" ++
    "       functions\n"⟩

end Outcome

namespace Command

/-- The file that a command reads. -/
def file? : Command → Option String
  | .eval file _ _ _ => some file
  | .deps file _ _ => some file
  | .parse _ => none
  | .functions => none

/-- The sheet of a file, with the built-in functions. -/
def sheetOf (contents : String) (options : SheetOptions) : Sheet :=
  (Sheet.fresh .builtin options).updateAll (SheetFile.parse contents)

/-- A text on a line of its own. -/
def line (text : String) : String := text ++ "\n"

/-- A value as it is listed: an error is marked. -/
def listed : Value → String
  | .error message => "#ERROR: " ++ message
  | v => v.render

/-- The values of cells, one to a line. -/
def listText (s : Sheet) (cells : List String) : String :=
  String.join (cells.map fun cell ↦ line (cell ++ "\t" ++ listed (s.value cell)))

/-- The values of cells as data. -/
def listJson (s : Sheet) (cells : List String) : String :=
  line ((Json.list (cells.map fun cell ↦
    .record [("cell", .text cell), ("value", (s.value cell).toJson)])).pretty "")

/-- Runs a command, given what the file that it reads holds or why it could not be read. -/
def run (contents : Except String String) : Command → Outcome
  | .eval file cells format options =>
    match contents with
    | .error cause => .failed ("Failed to open '" ++ file ++ "'") cause
    | .ok contents =>
      let s := sheetOf contents options
      let selected := Listing.sort (if cells.isEmpty then s.cells else cells)
      .printed (match format with
        | .text => listText s selected
        | .json => listJson s selected)
  | .deps file cell options =>
    match contents with
    | .error cause => .failed ("Failed to open '" ++ file ++ "'") cause
    | .ok contents =>
      .printed (String.join ((Listing.sort ((sheetOf contents options).dependents cell)).map line))
  | .parse formula =>
    match Expr.parse? formula with
    | .error fault => .failed ("Failed to parse '" ++ formula ++ "'") fault.message
    | .ok none => .printed (line "(empty)")
    | .ok (some e) => .printed (line (e.outline.spread "") ++ line e.render)
  | .functions => .printed (String.join (Registry.builtin.names.map line))

end Command

end FormulaSheet
