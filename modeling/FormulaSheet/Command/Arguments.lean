import FormulaSheet.Sheet.Basic

/-!
# Commands

There are four commands: `eval` prints the values of a sheet, `deps` the cells that depend on a
cell, `parse` the tree of one formula, and `functions` the names of the built-in functions. This
module reads them from a list of arguments.

## Options

An option has a long name behind two hyphens and may have a letter behind one. A value follows as
the next argument or in the same one; behind a long name it is set off by an equals sign. Letters
of options without a value may share a hyphen. Everything behind a bare `--` is taken as it is. Only
`--cell` and `--verbose` may be given more than once, and only `--verbose` before the command.
-/

namespace FormulaSheet.Command

/-! ## Options -/

/-- The options. -/
inductive Flag where
  /-- A cell to print. -/
  | cell
  /-- The format of the output. -/
  | format
  /-- The largest number of cells of a range. -/
  | maxRangeCells
  /-- Failed updates become errors. -/
  | strict
  /-- More messages on the way. -/
  | verbose
deriving DecidableEq

namespace Flag

/-- The option with a long name. -/
def ofName? : String → Option Flag
  | "cell" => some .cell
  | "format" => some .format
  | "max-range-cells" => some .maxRangeCells
  | "strict" => some .strict
  | "verbose" => some .verbose
  | _ => none

/-- The option with a letter. -/
def ofLetter? : Char → Option Flag
  | 'c' => some .cell
  | 'f' => some .format
  | 'v' => some .verbose
  | _ => none

/-- Whether the option is followed by a value. -/
def takesValue : Flag → Bool
  | .cell | .format | .maxRangeCells => true
  | .strict | .verbose => false

/-- Whether the option may be given more than once. -/
def mayRepeat : Flag → Bool
  | .cell | .verbose => true
  | .format | .maxRangeCells | .strict => false

end Flag

/-- Arguments sorted into options, each with its value, and all others. -/
structure Arguments where
  /-- The options in order; the value is empty for those without one. -/
  flags : List (Flag × String)
  /-- The other arguments in order. -/
  operands : List String

/-- The options in an argument of letters, and the option among them that waits for a value. -/
def readLetters : List Char → Option (List (Flag × String) × Option Flag)
  | [] => some ([], none)
  | letter :: rest => do
    let flag ← Flag.ofLetter? letter
    if flag.takesValue then
      match rest with
      | [] => return ([], some flag)
      | '=' :: value => return ([(flag, String.ofList value)], none)
      | value => return ([(flag, String.ofList value)], none)
    else
      let (flags, waiting) ← readLetters rest
      return ((flag, "") :: flags, waiting)

/-- The options in an argument with a long name, and the option among them that waits for a
value. -/
def readName (cs : List Char) : Option (List (Flag × String) × Option Flag) := do
  let flag ← Flag.ofName? (String.ofList (cs.takeWhile (· != '=')))
  match cs.dropWhile (· != '='), flag.takesValue with
  | [], true => return ([], some flag)
  | [], false => return ([(flag, "")], none)
  | _ :: value, true => return ([(flag, String.ofList value)], none)
  | _ :: _, false => none

/-- The options in one argument, and the option among them that waits for a value; nothing if the
argument is no option. -/
def readFlags : List Char → Option (Option (List (Flag × String) × Option Flag))
  | '-' :: '-' :: name => (readName name).map some
  | '-' :: letter :: letters => (readLetters (letter :: letters)).map some
  | _ => some none

/-- Whether an argument can be the value of the option before it. -/
def canBeValue (argument : String) : Bool :=
  match argument.toList with
  | '-' :: _ :: _ => false
  | _ => true

/-- Sorts arguments, unless there is an unknown option or one without its value. -/
def sortArguments : List String → Option Arguments
  | [] => some ⟨[], []⟩
  | "--" :: operands => some ⟨[], operands⟩
  | argument :: rest => do
    match ← readFlags argument.toList with
    | none =>
      let others ← sortArguments rest
      return { others with operands := argument :: others.operands }
    | some (flags, none) =>
      let others ← sortArguments rest
      return { others with flags := flags ++ others.flags }
    | some (flags, some waiting) =>
      match rest with
      | [] => none
      | value :: rest =>
        if canBeValue value then
          let others ← sortArguments rest
          return { others with flags := flags ++ (waiting, value) :: others.flags }
        else none

end Command

namespace Command.Arguments

/-- The values given for an option. -/
def values (args : Arguments) (flag : Flag) : List String :=
  (args.flags.filter (·.1 == flag)).map (·.2)

/-- Whether only these options are given, and none too often. -/
def admits (args : Arguments) (known : List Flag) : Bool :=
  args.flags.all (fun (flag, _) ↦ known.contains flag && (flag.mayRepeat || (args.values flag).length == 1))

end Command.Arguments

/-! ## Commands -/

/-- The format in which values are printed. -/
inductive OutputFormat where
  /-- One line for each cell. -/
  | text
  /-- Exchanged data. -/
  | json
deriving DecidableEq

/-- What is asked for. -/
inductive Command where
  /-- Print the values of cells of a sheet file, of all that hold something if none is named. -/
  | eval (file : String) (cells : List String) (format : OutputFormat) (options : SheetOptions)
  /-- Print the cells of a sheet file that depend on a cell. -/
  | deps (file cell : String) (options : SheetOptions)
  /-- Print the tree of a formula. -/
  | parse (formula : String)
  /-- Print the names of the built-in functions. -/
  | functions

namespace Command

/-- Reads a 64-bit number, in digits behind an optional plus sign. -/
def readCount? (text : String) : Option UInt64 :=
  let digits := match text.toList with
    | '+' :: digits => digits
    | digits => digits
  if Address.isDigits digits then
    let n := Nat.ofDigitChars 10 digits 0
    if n < UInt64.size then some (UInt64.ofNat n) else none
  else none

/-- The output format with a name. -/
def formatOfName? : String → Option OutputFormat
  | "text" => some .text
  | "json" => some .json
  | _ => none

/-- The output format that the options ask for. -/
def readFormat? (args : Arguments) : Option OutputFormat :=
  match args.values .format with
  | [] => some .text
  | name :: _ => formatOfName? name

/-- What the options say about the treatment of formulas. -/
def readOptions? (args : Arguments) : Option SheetOptions := do
  let options : SheetOptions := { surfaceFailures := !(args.values .strict).isEmpty }
  match args.values .maxRangeCells with
  | [] => return options
  | count :: _ => return { options with maxRangeCells := ← readCount? count }

/-- Reads the command `name` with its arguments. -/
def ofArguments? (name : String) (args : Arguments) : Option Command := do
  match name, args.operands with
  | "eval", [file] =>
    guard (args.admits [.cell, .format, .strict, .maxRangeCells, .verbose])
    return .eval file (args.values .cell) (← readFormat? args) (← readOptions? args)
  | "deps", [file, cell] =>
    guard (args.admits [.strict, .maxRangeCells, .verbose])
    return .deps file cell (← readOptions? args)
  | "parse", [formula] =>
    guard (args.admits [.verbose])
    return .parse formula
  | "functions", [] =>
    guard (args.admits [.verbose])
    return .functions
  | _, _ => none

/-- Whether an argument is nothing but the option for more messages. -/
def isVerbose (argument : String) : Bool :=
  argument == "--verbose" ||
    match argument.toList with
    | '-' :: 'v' :: letters => letters.all (· == 'v')
    | _ => false

/-- Reads a command from all arguments. -/
def ofArgs? (args : List String) : Option Command :=
  match args.dropWhile isVerbose with
  | [] => none
  | name :: rest => (sortArguments rest).bind (ofArguments? name)

end Command

end FormulaSheet
