import FormulaSheet.Functions.Registry

/-!
# Arithmetic

The four operations on the numbers among the arguments. Arrays count as their values, row by row, at
any depth; texts and empty cells are passed over; the first error among the arguments is the answer,
whatever else there is.

Sums start from negative zero, which changes no number added to it, so that the sum of nothing is
negative zero; products start from one. Both run from left to right.
-/

namespace FormulaSheet.Arithmetic

mutual

/-- The numbers of a row behind those `found` so far, the latest first, or the first error. -/
def gather (found : List Float) : List Value → Except Value (List Float)
  | [] => .ok found
  | .number x :: row => gather (x :: found) row
  | .error message :: _ => .error (.error message)
  | .array rows :: row =>
    match gatherRows found rows with
    | .ok found => gather found row
    | .error e => .error e
  | .text _ :: row => gather found row
  | .empty :: row => gather found row

/-- The numbers of rows behind those `found` so far, or the first error. -/
def gatherRows (found : List Float) : List (List Value) → Except Value (List Float)
  | [] => .ok found
  | row :: rows =>
    match gather found row with
    | .ok found => gatherRows found rows
    | .error e => .error e

end

/-- The numbers among the arguments in order, or the first error. -/
def numbers (args : List Value) : Except Value (List Float) := (gather [] args).map List.reverse

/-- A function of the numbers among its arguments, which passes on the first error. -/
def onNumbers (f : List Float → Value) : Function := fun args ↦
  match numbers args with
  | .ok xs => f xs
  | .error e => e

/-- Divides by one number after another, unless one of them is zero. -/
def divideBy (x : Float) : List Float → Value
  | [] => .number x
  | y :: ys => if y == 0 then .fault .divisionByZero else divideBy (x / y) ys

/-- The sum. -/
def add : Function := onNumbers fun xs ↦ .number (xs.foldl (· + ·) (-0.0))

/-- The first number less all others. -/
def minus : Function := onNumbers fun
  | [] => .fault (.missingNumber "MINUS")
  | x :: xs => .number (xs.foldl (· - ·) x)

/-- The product. -/
def times : Function := onNumbers fun xs ↦ .number (xs.foldl (· * ·) 1.0)

/-- The first number divided by all others in turn. -/
def divide : Function := onNumbers fun
  | [] => .fault (.missingNumber "DIVIDE")
  | x :: xs => divideBy x xs

end FormulaSheet.Arithmetic

namespace FormulaSheet.Registry

/-- The functions that are always there, each under all its names. -/
def builtin : Registry :=
  [("ADD", Arithmetic.add), ("SUM", Arithmetic.add), ("+", Arithmetic.add),
    ("MINUS", Arithmetic.minus), ("-", Arithmetic.minus),
    ("TIMES", Arithmetic.times), ("PRODUCT", Arithmetic.times), ("*", Arithmetic.times),
    ("X", Arithmetic.times),
    ("DIVIDE", Arithmetic.divide), ("/", Arithmetic.divide)].foldl
    (fun r (name, f) ↦ r.register name f) empty

end FormulaSheet.Registry
