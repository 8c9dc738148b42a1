import FormulaSheet.Formula.Expr
import FormulaSheet.Formula.Value
import FormulaSheet.Report.Json
import FormulaSheet.Report.Outline

/-!
# Expressions and values as data

The forms in which expressions and values are handed to other programs and shown to readers.
-/

namespace FormulaSheet

/-! ## Addresses -/

/-- An address as data. -/
def Address.toJson (a : Address) : Json :=
  .record [("col", .natural a.col.toNat), ("row", .natural a.row.toNat)]

/-- An address as it is shown. -/
def Address.outline (a : Address) : Outline :=
  .record "CellAddress" [("col", .leaf (Nat.repr a.col.toNat)), ("row", .leaf (Nat.repr a.row.toNat))]

/-- A range as data. -/
def Range.toJson (r : Range) : Json := .record [("start", r.first.toJson), ("end", r.last.toJson)]

/-- A range as it is shown. -/
def Range.outline (r : Range) : Outline :=
  .record "CellRange" [("start", r.first.outline), ("end", r.last.outline)]

/-! ## Expressions -/

namespace Expr

mutual

/-- An expression as data; the member `type` tells the kind. -/
def toJson : Expr → Json
  | .number x => .record [("type", .text "number"), ("value", .number x)]
  | .text s => .record [("type", .text "string"), ("value", .text s)]
  | .cell a => .record [("type", .text "cellReference"), ("cell", a.toJson)]
  | .range r => .record [("type", .text "cellRange"), ("range", r.toJson)]
  | .call name args =>
    .record [("type", .text "function"), ("name", .text name), ("arguments", .list (toJsonArgs args))]
  | .failure message => .record [("type", .text "error"), ("message", .text message)]

/-- Arguments as data. -/
def toJsonArgs : List Expr → List Json
  | [] => []
  | arg :: args => arg.toJson :: toJsonArgs args

end

mutual

/-- An expression as it is shown. -/
def outline : Expr → Outline
  | .number x => .record "Number" [("value", .leaf (NumberFormat.pointed.write x))]
  | .text s => .record "String" [("value", .leaf (Literal.quote s))]
  | .cell a => .record "CellReference" [("cell", a.outline)]
  | .range r => .record "CellRange" [("range", r.outline)]
  | .call name args =>
    .record "Function" [("name", .leaf (Literal.quote name)), ("arguments", .list (outlineArgs args))]
  | .failure message => .record "Error" [("message", .leaf (Literal.quote message))]

/-- Arguments as they are shown. -/
def outlineArgs : List Expr → List Outline
  | [] => []
  | arg :: args => arg.outline :: outlineArgs args

end

end Expr

/-! ## Values -/

namespace Value

mutual

/-- A value as data, under the name of its kind. -/
def toJson : Value → Json
  | .number x => .record [("Number", .number x)]
  | .text s => .record [("String", .text s)]
  | .error message => .record [("Error", .record [("message", .text message)])]
  | .empty => .text "Empty"
  | .array rows => .record [("Array", .list (toJsonRows rows))]

/-- The values of a row as data. -/
def toJsonRow : List Value → List Json
  | [] => []
  | v :: row => v.toJson :: toJsonRow row

/-- Rows as data. -/
def toJsonRows : List (List Value) → List Json
  | [] => []
  | row :: rows => .list (toJsonRow row) :: toJsonRows rows

end

end Value

end FormulaSheet
