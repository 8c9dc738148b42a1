import FormulaSheet.Formula.Expr
import Std.Data.ExtTreeSet

/-!
# What a formula reads

A formula reads the cells it refers to and all cells of its ranges, whether or not evaluation gets
to them. They are named by their keys.

Since a range of a few letters can cover billions of cells, there is a limit to the number of cells
of one range. Of several ranges above the limit the leftmost is the one refused, and its cells are
never listed.
-/

namespace FormulaSheet

/-- A finite set of keys of cells. -/
abbrev Keys := Std.ExtTreeSet String

namespace Keys

theorem mem_insert {keys : Keys} {a b : String} : b ∈ keys.insert a ↔ b = a ∨ b ∈ keys := by
  rw [Std.ExtTreeSet.mem_insert, Std.compare_eq_iff_eq, eq_comm]

theorem mem_singleton {a b : String} : b ∈ ({a} : Keys) ↔ b = a := by
  rw [Std.ExtTreeSet.singleton_eq_insert, mem_insert]
  exact or_iff_left Std.ExtTreeSet.not_mem_empty

theorem mem_erase {keys : Keys} {a b : String} : b ∈ keys.erase a ↔ b ≠ a ∧ b ∈ keys := by
  rw [Std.ExtTreeSet.mem_erase, ne_eq, Std.compare_eq_iff_eq, ne_eq, eq_comm]

end Keys

/-- A range with more cells than the limit allows. -/
structure OversizedRange where
  /-- The range. -/
  range : Range
  /-- The limit. -/
  limit : UInt64
deriving DecidableEq

/-- The wording of the refusal. -/
def OversizedRange.message (o : OversizedRange) : String :=
  "Range " ++ o.range.text ++ " covers " ++ Nat.repr o.range.cellCount.toNat
    ++ " cells, more than the limit of " ++ Nat.repr o.limit.toNat

namespace Expr

mutual

/-- Adds the cells that an expression reads. -/
def addKeys (limit : UInt64) (keys : Keys) : Expr → Except OversizedRange Keys
  | .cell a => .ok (keys.insert a.key)
  | .range r =>
    if limit < r.cellCount then .error ⟨r, limit⟩
    else .ok (keys.insertMany (r.cells.map Address.key))
  | .call _ args => addArgKeys limit keys args
  | .number _ => .ok keys
  | .text _ => .ok keys
  | .failure _ => .ok keys

/-- Adds the cells that arguments read, from left to right. -/
def addArgKeys (limit : UInt64) (keys : Keys) : List Expr → Except OversizedRange Keys
  | [] => .ok keys
  | arg :: args =>
    match arg.addKeys limit keys with
    | .ok keys => addArgKeys limit keys args
    | .error o => .error o

end

/-- The cells that an expression reads. -/
def keys (limit : UInt64) (e : Expr) : Except OversizedRange Keys := e.addKeys limit ∅

/-- The cells that a formula reads; that of an empty cell reads none. -/
def formulaKeys (limit : UInt64) : Option Expr → Except OversizedRange Keys
  | some e => e.keys limit
  | none => .ok ∅

end Expr

end FormulaSheet
