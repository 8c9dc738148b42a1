/-!
# Doubles as multiples of their least step

Every finite double is a whole multiple of `2 ^ (-1074)`, the least positive one. Measured in that
unit a nonnegative double is a natural number, `units`, and rounding to the nearest double is
rounding of one quotient of natural numbers. Nothing here goes through floating-point arithmetic, so
all of it can be reasoned about in `Nat`.

## The layout of the bits

Below the sign stand eleven bits of exponent and fifty-two of fraction. Read as one number the two
fields count the nonnegative doubles in increasing order from zero: adding one to the number passes
to the next double, also where the fraction runs over into the exponent. The pattern `infinity`
stands above all finite ones, and above it stand the patterns that are no number.

## Rounding

`nearest num den` is the pattern of the double nearest to `num / den`; of two equally near, the one
with the even pattern. The quotient is first brought to the spacing that doubles have there: `shift`
is the number of places by which it outgrows fifty-three bits.
-/

namespace FormulaSheet.Binary64

/-- The pattern of positive infinity. -/
def infinity : Nat := 2047 * Nat.pow 2 52

/-- The value of a finite nonnegative pattern, in units of `2 ^ (-1074)`. -/
def units (pattern : Nat) : Nat :=
  let exponent := pattern / Nat.pow 2 52
  let fraction := pattern % Nat.pow 2 52
  if exponent = 0 then fraction else (Nat.pow 2 52 + fraction) * Nat.pow 2 (exponent - 1)

/-- The whole number nearest to a quotient; a half goes to the even neighbour. -/
def roundQuotient (num den : Nat) : Nat :=
  let quotient := num / den
  let twice := 2 * (num % den)
  if twice < den then quotient
  else if den < twice then quotient + 1
  else quotient + quotient % 2

/-- The pattern of the double nearest to `num / den`, infinity when it is too large. -/
def nearest (num den : Nat) : Nat :=
  let scaled := num * Nat.pow 2 1074
  let shift := Nat.log2 (scaled / den) - 52
  min infinity (shift * Nat.pow 2 52 + roundQuotient scaled (den * Nat.pow 2 shift))

/-! ## Doubles -/

/-- The pattern of a double without its sign. -/
def pattern (x : Float) : Nat := x.toBits.toNat % Nat.pow 2 63

/-- Whether the sign bit is set, which it is for negative zero too. -/
def isNegative (x : Float) : Bool := Nat.pow 2 63 ≤ x.toBits.toNat

/-- The double nearest to a natural number, infinity when it is too large. -/
def ofNat (n : Nat) : Float := Float.ofBits (UInt64.ofNat (nearest n 1))

end FormulaSheet.Binary64
