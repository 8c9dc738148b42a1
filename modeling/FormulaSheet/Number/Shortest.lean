import FormulaSheet.Number.Binary64

/-!
# Shortest decimals

The shortest decimal of a double is the one of fewest digits that reads back as the same double, and
of those the nearest to it.

## The descent

Decimals whose last digit has the weight `10 ^ e` form a grid. On each grid only the two neighbours
of the double can be nearest to it, so they are the only candidates. The search starts on a grid
coarser than the double itself and descends one power of ten at a time; the first grid with a
candidate that reads back has the fewest digits. The descent ends at the latest on the grid of `10 ^
(-1074)`, which holds every double exactly, because `10 ^ 1074` is a multiple of `2 ^ 1074`.
-/

namespace FormulaSheet

/-- The number `digits * 10 ^ exponent`. -/
structure Decimal where
  /-- The digits, read as one number. -/
  digits : Nat
  /-- The weight of the last digit, as a power of ten. -/
  exponent : Int
deriving DecidableEq

/-- What is done when two shortest decimals are equally near. -/
inductive TieRule where
  /-- The larger one is taken. -/
  | up
  /-- The one with the even last digit is taken. -/
  | toEven
deriving DecidableEq

namespace Decimal

/-- The pattern of the double nearest to a decimal. -/
def pattern (d : Decimal) : Nat :=
  Binary64.nearest (d.digits * Nat.pow 10 d.exponent.toNat) (Nat.pow 10 (-d.exponent).toNat)

/-- The better of the two neighbours of a double on the grid of `10 ^ e`, if one reads back. -/
def onGrid (tie : TieRule) (bits : Nat) (e : Int) : Option Decimal :=
  let num := Binary64.units bits * Nat.pow 10 (-e).toNat
  let den := Nat.pow 2 1074 * Nat.pow 10 e.toNat
  let low := num / den
  let twice := 2 * (num % den)
  let up := den < twice || (twice == den && (tie == .up || low % 2 == 1))
  let candidates := if up then [low + 1, low] else [low, low + 1]
  (candidates.map fun digits ↦ ⟨digits, e⟩).find? fun d ↦ d.pattern == bits

/-- Descends from the grid of `10 ^ (n - 1074)` to the finest. -/
def descend (tie : TieRule) (bits : Nat) : Nat → Decimal
  | 0 => ⟨Binary64.units bits * Nat.pow 5 1074, -1074⟩
  | n + 1 => (onGrid tie bits ((n + 1 : Nat) - 1074)).getD (descend tie bits n)

/-- A grid coarser than the double: its unit is more than the double and at most a thousand times as
much. The factor is the logarithm of two, a little above its true value. -/
def startGrid (bits : Nat) : Int :=
  ((Binary64.units bits).log2 - 1074 : Int) * 30103 / 100000 + 2

/-- The shortest decimal of a finite nonnegative pattern. -/
def shortest (tie : TieRule) (bits : Nat) : Decimal :=
  descend tie bits (startGrid bits + 1074).toNat

end Decimal

end FormulaSheet
