import FormulaSheet.Number.Layout
import Std.Data.ExtTreeMap

/-!
# Values

A cell holds a number, a text, an error or nothing. While a formula is worked out an argument may
also be an array, the values of a range row by row; an array never becomes the value of a cell.

An error is a value like any other and is told by its message alone. `EvalFault` lists the errors
that evaluation itself can bring about.
-/

namespace FormulaSheet

/-- What a formula comes to. -/
inductive Value where
  /-- A number. -/
  | number (x : Float)
  /-- A text. -/
  | text (s : String)
  /-- An error, by its message. -/
  | error (message : String)
  /-- Nothing. -/
  | empty
  /-- The values of a range, row by row. -/
  | array (rows : List (List Value))

/-- Why evaluation comes to an error. -/
inductive EvalFault where
  /-- No function has the name. -/
  | unknownFunction (name : String)
  /-- A range covers the cell whose formula it stands in. -/
  | selfReference (cell : String)
  /-- A formula comes to an array. -/
  | rangeAsValue
  /-- A function needs a number and is given none. -/
  | missingNumber (function : String)
  /-- A divisor is zero. -/
  | divisionByZero
  /-- The formula of the cell would close a cycle. -/
  | circularReference (cell : String)
deriving DecidableEq

/-- The wording of a fault. -/
def EvalFault.message : EvalFault → String
  | .unknownFunction name => "Unknown function " ++ name
  | .selfReference cell => "Self referencing cell: " ++ cell
  | .rangeAsValue => "Cannot return cell range as value"
  | .missingNumber function => function ++ " requires at least one numeric argument"
  | .divisionByZero => "Division by zero"
  | .circularReference cell => "Circular reference: " ++ cell

namespace Value

/-- The error value of a fault. -/
def fault (f : EvalFault) : Value := .error f.message

/-! ## Parts -/

/-- The number, if the value is one. -/
def number? : Value → Option Float
  | .number x => some x
  | _ => none

/-- The text, if the value is one. -/
def text? : Value → Option String
  | .text s => some s
  | _ => none

/-- The message, if the value is an error. -/
def message? : Value → Option String
  | .error message => some message
  | _ => none

/-- Whether the value is an error. -/
def isError : Value → Bool
  | .error _ => true
  | _ => false

/-- Whether there is no value. -/
def isEmpty : Value → Bool
  | .empty => true
  | _ => false

/-- Whether the value is an array. -/
def isArray : Value → Bool
  | .array _ => true
  | _ => false

/-! ## Text -/

/-- The text of a number. Unlike in formulas, zero has no sign. -/
def renderNumber (x : Float) : String := if x == 0 then "0" else NumberFormat.plain.write x

mutual

/-- The text of a value: an error is its message, nothing is no text, and an array is written row by
row in braces. -/
def render : Value → String
  | .number x => renderNumber x
  | .text s => s
  | .error message => message
  | .empty => ""
  | .array rows => "\x7b" ++ "; ".intercalate (renderRows rows) ++ "\x7d"

/-- The texts of the values of a row. -/
def renderRow : List Value → List String
  | [] => []
  | v :: row => v.render :: renderRow row

/-- The texts of rows. -/
def renderRows : List (List Value) → List String
  | [] => []
  | row :: rows => ", ".intercalate (renderRow row) :: renderRows rows

end

end Value

/-- The values of cells, by key. A cell that is not listed is empty. -/
abbrev Values := Std.ExtTreeMap String Value

/-- The value of the cell filed under a key. -/
def Values.get (values : Values) (key : String) : Value := values.getD key .empty

end FormulaSheet
