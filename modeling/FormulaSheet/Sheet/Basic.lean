import FormulaSheet.Dependency.Index
import FormulaSheet.Formula.Eval
import FormulaSheet.Formula.Parser
import FormulaSheet.Functions.Arithmetic

/-!
# Sheets

A sheet keeps the formulas of cells, their present values, and the index of which cell reads which.
A text goes in at a cell; the formula is stored, its edges replace those that the cell had, and the
cell and all that depend on it are evaluated anew.

## Cells without edges

Two kinds of formula are stored without the edges they ask for. One that reads its own cell has them
dropped for good. One that would close a cycle through other cells is *refused*: the cell is given
an error for a value, and what the formula asked for is remembered. Whenever formulas change, the
refused cells are gone through by key, and the first whose edges no longer close a cycle gets them,
again and again until none is left that can.

## Failures

A formula with a range above the limit changes nothing, or, if the options say so, is stored as the
message of its failure.

## Names

Cells go by any text. Texts that are addresses are brought to their canonical spelling at every
operation and every question, so that all spellings of an address name one cell.
-/

namespace FormulaSheet

/-- How a sheet treats formulas. -/
structure SheetOptions where
  /-- Whether a failed update becomes the error of its cell instead of changing nothing. -/
  surfaceFailures : Bool := false
  /-- The largest number of cells that one range may have. -/
  maxRangeCells : UInt64 := 1000000
deriving DecidableEq

/-- Formulas of cells, their values, and what is needed to keep the values up to date. -/
structure Sheet where
  /-- How formulas are treated. -/
  options : SheetOptions
  /-- The functions that formulas can call. -/
  functions : Registry
  /-- The formulas, by key. A cell that is not listed is empty. -/
  expressions : Std.ExtTreeMap String Expr
  /-- The values, by key. -/
  values : Values
  /-- Which cell reads which. -/
  index : DependencyIndex
  /-- The refused cells, each with the cells that its formula asked for. -/
  refused : Links

namespace Sheet

/-- A sheet of empty cells. -/
def fresh (functions : Registry) (options : SheetOptions) : Sheet where
  options := options
  functions := functions
  expressions := ∅
  values := ∅
  index := .empty
  refused := ∅

/-! ## Evaluation -/

/-- What the formula of a cell comes to against the present values, as the value of a cell: an array
is an error. -/
def formulaValue (s : Sheet) (key : String) : Value :=
  let value := Expr.evalFormula ⟨key, s.values, s.functions⟩ s.expressions[key]?
  if value.isArray then .fault .rangeAsValue else value

/-- Files a value under a key; an empty cell is not listed. -/
def store (values : Values) (key : String) (value : Value) : Values :=
  if value.isEmpty then values.erase key else values.insert key value

/-- Evaluates one cell. -/
def settle (s : Sheet) (key : String) : Sheet :=
  { s with values := store s.values key (s.formulaValue key) }

/-- Evaluates cells one after the other. -/
def settleAll (s : Sheet) (keys : List String) : Sheet := keys.foldl settle s

/-- Evaluates all cells that depend on a cell, directly or through others. -/
def settleDependents (s : Sheet) (key : String) : Sheet := s.settleAll (s.index.recalcOrder key)

/-- Evaluates the cell filed under a key and all that depend on it. -/
def recalculateKey (s : Sheet) (key : String) : Sheet := (s.settle key).settleDependents key

/-- Evaluates a cell and all that depend on it. -/
def recalculate (s : Sheet) (cell : String) : Sheet := s.recalculateKey (Address.canonicalKey cell)

/-! ### Evaluation touches values only -/

theorem refused_settleAll (s : Sheet) (keys : List String) :
    (s.settleAll keys).refused = s.refused := by
  induction keys generalizing s with
  | nil => rfl
  | cons key keys ih => exact ih (s.settle key)

theorem refused_recalculateKey (s : Sheet) (key : String) :
    (s.recalculateKey key).refused = s.refused :=
  refused_settleAll (s.settle key) _

/-! ## Refused cells -/

/-- The first refused cell, by key, whose edges would no longer close a cycle, with those edges. -/
def restorable? (s : Sheet) : Option (String × Keys) :=
  s.refused.toList.find? fun (key, keys) ↦ !s.index.wouldCycle key keys

theorem getElem?_refused_of_restorable {s : Sheet} {key : String} {keys : Keys}
    (h : s.restorable? = some (key, keys)) : s.refused[key]? = some keys :=
  Std.ExtTreeMap.mem_toList_iff_getElem?_eq_some.1 (List.mem_of_find?_eq_some h)

theorem mem_refused_of_restorable {s : Sheet} {key : String} {keys : Keys}
    (h : s.restorable? = some (key, keys)) : key ∈ s.refused := by
  rw [Std.ExtTreeMap.mem_iff_isSome_getElem?, getElem?_refused_of_restorable h]
  rfl

theorem wouldCycle_of_restorable {s : Sheet} {key : String} {keys : Keys}
    (h : s.restorable? = some (key, keys)) : s.index.wouldCycle key keys = false := by
  simpa using List.find?_some h

/-- Gives a refused cell its edges and evaluates it and all that depend on it. -/
def restore (s : Sheet) (key : String) (keys : Keys) : Sheet :=
  { s with refused := s.refused.erase key, index := s.index.replace key keys }.recalculateKey key

/-- Restores refused cells as long as there is one that can be. -/
def restoreRefused (s : Sheet) : Sheet :=
  match _h : s.restorable? with
  | none => s
  | some (key, keys) => (s.restore key keys).restoreRefused
termination_by s.refused.size
decreasing_by
  rw [restore, refused_recalculateKey]
  exact Links.size_erase_lt (getElem?_refused_of_restorable _h)

theorem restoreRefused_of_none {s : Sheet} (h : s.restorable? = none) :
    s.restoreRefused = s := by
  rw [restoreRefused]
  split
  next => rfl
  next hsome =>
    rw [h] at hsome
    cases hsome

theorem restoreRefused_of_some {s : Sheet} {key : String} {keys : Keys}
    (h : s.restorable? = some (key, keys)) :
    s.restoreRefused = (s.restore key keys).restoreRefused := by
  rw [restoreRefused]
  split
  next hnone =>
    rw [h] at hnone
    cases hnone
  next hsome =>
    rw [h] at hsome
    cases hsome
    rfl

/-! ## Updates -/

/-- The formulas with that of one cell replaced. -/
def withExpression (expressions : Std.ExtTreeMap String Expr) (key : String) :
    Option Expr → Std.ExtTreeMap String Expr
  | some e => expressions.insert key e
  | none => expressions.erase key

/-- Stores a formula that asks for the cells `wanted`, and evaluates what depends on it. -/
def install (s : Sheet) (key : String) (e : Option Expr) (wanted : Keys) : Sheet :=
  let others := s.refused.erase key
  let expressions := withExpression s.expressions key e
  if s.index.wouldCycle key wanted then
    ({ s with
        expressions
        index := s.index.replace key ∅
        refused := others.insert key wanted
        values := s.values.insert key (.fault (.circularReference key)) }.settleDependents
      key).restoreRefused
  else
    ({ s with
        expressions
        index := s.index.replace key wanted
        refused := others }.recalculateKey key).restoreRefused

/-- Stores a failure as the formula of a cell, and evaluates what depends on it. -/
def recordFailure (s : Sheet) (key message : String) : Sheet :=
  ({ s with
      expressions := s.expressions.insert key (.failure message)
      index := s.index.clear key
      refused := s.refused.erase key }.recalculateKey key).restoreRefused

/-- Puts a text into a cell, unless its formula has a range above the limit. A formula that reads
its own cell is stored without edges. -/
def tryUpdate (s : Sheet) (cell text : String) : Except OversizedRange Sheet :=
  let key := Address.canonicalKey cell
  let e := Expr.parse text
  match Expr.formulaKeys s.options.maxRangeCells e with
  | .error oversized => .error oversized
  | .ok keys => .ok (s.install key e (if keys.contains key then ∅ else keys))

theorem tryUpdate_of_keys {s : Sheet} {cell text : String} {keys : Keys}
    (h : Expr.formulaKeys s.options.maxRangeCells (Expr.parse text) = .ok keys) :
    s.tryUpdate cell text = .ok (s.install (Address.canonicalKey cell) (Expr.parse text)
      (if keys.contains (Address.canonicalKey cell) then ∅ else keys)) := by
  simp only [tryUpdate, h]

theorem tryUpdate_of_oversized {s : Sheet} {cell text : String} {oversized : OversizedRange}
    (h : Expr.formulaKeys s.options.maxRangeCells (Expr.parse text) = .error oversized) :
    s.tryUpdate cell text = .error oversized := by
  simp only [tryUpdate, h]

/-- Puts a text into a cell. A range above the limit is treated as the options say. -/
def update (s : Sheet) (cell text : String) : Sheet :=
  let key := Address.canonicalKey cell
  match s.tryUpdate key text with
  | .ok s => s
  | .error oversized =>
    if s.options.surfaceFailures then s.recordFailure key oversized.message else s

/-- Puts texts into cells one after the other. -/
def updateAll (s : Sheet) (updates : List (String × String)) : Sheet :=
  updates.foldl (fun s (cell, text) ↦ s.update cell text) s

/-! ## Questions -/

/-- The value of a cell. -/
def value (s : Sheet) (cell : String) : Value := s.values.get (Address.canonicalKey cell)

/-- The formula of a cell. -/
def expression? (s : Sheet) (cell : String) : Option Expr :=
  s.expressions[Address.canonicalKey cell]?

/-- The cells whose formulas read a cell, by increasing key. -/
def dependents (s : Sheet) (cell : String) : List String :=
  (s.index.dependents (Address.canonicalKey cell)).toList

/-- The cells that the formula of a cell reads, by increasing key. -/
def precedents (s : Sheet) (cell : String) : List String :=
  (s.index.precedents (Address.canonicalKey cell)).toList

/-- The refused cells, by increasing key. -/
def refusedCells (s : Sheet) : List String := s.refused.keys

/-- The cells with a formula or a value, by increasing key. -/
def cells (s : Sheet) : List String :=
  ((Std.ExtTreeSet.ofList s.expressions.keys).insertMany s.values.keys).toList

end Sheet

end FormulaSheet
