import FormulaSheet.Command.Run

/-!
# The program

Reads the arguments and the file that they name, and prints the outcome.
-/

namespace FormulaSheet

/-- The contents of a file, or why there are none. -/
def readContents (file : String) : IO (Except String String) := do
  try
    let bytes ← IO.FS.readBinFile file
    match String.fromUTF8? bytes with
    | some contents => return .ok contents
    | none => return .error "stream did not contain valid UTF-8"
  catch
    | .noFileOrDirectory .. => return .error "No such file or directory (os error 2)"
    | .permissionDenied .. => return .error "Permission denied (os error 13)"
    | fault => return .error fault.toString

end FormulaSheet

open FormulaSheet in
/-- Runs the command that the arguments make. -/
def main (args : List String) : IO UInt32 := do
  let outcome ← match Command.ofArgs? args with
    | none => pure Outcome.misused
    | some command =>
      let contents ← match command.file? with
        | some file => readContents file
        | none => pure (.ok "")
      pure (command.run contents)
  IO.print outcome.output
  IO.eprint outcome.errors
  return outcome.code.toUInt32
