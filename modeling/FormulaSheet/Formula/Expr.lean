import FormulaSheet.Grid.Range
import FormulaSheet.Number.Layout
import FormulaSheet.Text.Upper

/-!
# Expressions

An expression is a number, a text, a reference to a cell, a range of cells, or a call of a named
function on expressions. A text that is no formula is kept as an expression too: the message of its
fault.

## Canonical text

`render` writes an expression as formula text, with one space between the parts of a call. A failure
is marked as such and is not meant to be read again.

## Names

Functions are known by their names in capitals. `Expr.named` makes a call from a name in any case;
the constructor takes the name as it is.
-/

namespace FormulaSheet

/-- A formula. -/
inductive Expr where
  /-- A number. -/
  | number (x : Float)
  /-- A text. -/
  | text (s : String)
  /-- The cell at an address. -/
  | cell (a : Address)
  /-- The cells of a range. -/
  | range (r : Range)
  /-- A function applied to arguments. -/
  | call (name : String) (args : List Expr)
  /-- A text that was no formula, by the message of its fault. -/
  | failure (message : String)

namespace Expr

/-- A call of the function with the given name, in any case. -/
def named (name : String) (args : List Expr) : Expr := .call (upper name) args

/-- Whether the expression stands for a text that was no formula. -/
def isFailure : Expr → Bool
  | .failure _ => true
  | _ => false

/-! ## Canonical text -/

mutual

/-- The canonical text of an expression. -/
def render : Expr → String
  | .number x => NumberFormat.plain.write x
  | .text s => "\"" ++ s ++ "\""
  | .cell a => a.key
  | .range r => r.text
  | .call name args => "(" ++ name ++ renderArgs args ++ ")"
  | .failure message => "#ERROR: " ++ message

/-- Arguments, each behind a space. -/
def renderArgs : List Expr → String
  | [] => ""
  | arg :: args => " " ++ arg.render ++ renderArgs args

end

/-! ## Equality -/

mutual

/-- Equality of expressions, with numbers compared as numbers: zero equals negative zero, and what
is no number equals nothing. -/
def same : Expr → Expr → Bool
  | .number x, .number y => x == y
  | .text s, .text t => s == t
  | .cell a, .cell b => a == b
  | .range r, .range q => r == q
  | .call name args, .call name' args' => name == name' && sameArgs args args'
  | .failure m, .failure m' => m == m'
  | _, _ => false

/-- Equality of lists of arguments. -/
def sameArgs : List Expr → List Expr → Bool
  | [], [] => true
  | arg :: args, arg' :: args' => arg.same arg' && sameArgs args args'
  | _, _ => false

end

end Expr

end FormulaSheet
