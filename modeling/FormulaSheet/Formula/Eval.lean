import FormulaSheet.Formula.Expr
import FormulaSheet.Functions.Registry

/-!
# Evaluation

An expression is evaluated for one cell, against the present values of all cells and a registry of
functions. A reference comes to the value of its cell as it stands; nothing is worked out on the
way.

A range that covers the cell itself comes to an error. A cell whose name is no address is covered by
no range. The arguments of an unknown function are not looked at.
-/

namespace FormulaSheet

/-- What an expression is evaluated against. -/
structure Context where
  /-- The name of the cell whose formula it is. -/
  cell : String
  /-- The present values. -/
  values : Values
  /-- The functions that can be called. -/
  functions : Registry

namespace Context

/-- Whether a range covers the cell whose formula is evaluated. -/
def isCovered (ctx : Context) (r : Range) : Bool :=
  match Address.parse ctx.cell with
  | .ok a => r.contains a
  | .error _ => false

/-- The value of a range: its values row by row, unless it covers the cell. -/
def rangeValue (ctx : Context) (r : Range) : Value :=
  if ctx.isCovered r then .fault (.selfReference ctx.cell)
  else .array (r.rows.map fun row ↦ row.map fun a ↦ ctx.values.get a.key)

end Context

namespace Expr

mutual

/-- The value of an expression. -/
def eval (ctx : Context) : Expr → Value
  | .number x => .number x
  | .text s => .text s
  | .cell a => ctx.values.get a.key
  | .range r => ctx.rangeValue r
  | .call name args =>
    match ctx.functions.get? name with
    | some f => f (evalArgs ctx args)
    | none => .fault (.unknownFunction name)
  | .failure message => .error message

/-- The values of arguments, from left to right. -/
def evalArgs (ctx : Context) : List Expr → List Value
  | [] => []
  | arg :: args => arg.eval ctx :: evalArgs ctx args

end

/-- The value of a formula, which for an empty cell is none. -/
def evalFormula (ctx : Context) : Option Expr → Value
  | some e => e.eval ctx
  | none => .empty

end Expr

end FormulaSheet
