import FormulaSheet.Number.Shortest

/-!
# Numbers as text

A double is written by its shortest decimal, either with all its places in full or as a mantissa and
a power of ten. `NumberFormat` gathers what distinguishes one way of writing from another; the three
that this library uses follow.
-/

namespace FormulaSheet

/-- A way of writing doubles. -/
structure NumberFormat where
  /-- Which powers of ten of the leading digit are written with all places in full. -/
  inFull : Int → Bool
  /-- What follows a whole number written in full. -/
  afterWhole : String
  /-- What stands before an exponent that is not negative. -/
  exponentSign : String
  /-- Which of two equally near shortest decimals is taken. -/
  tie : TieRule
  /-- The text of positive infinity. -/
  infinity : String
  /-- The text of negative infinity. -/
  negativeInfinity : String
  /-- The text of what is no number. -/
  notNumber : String

namespace Decimal

/-- The power of ten of the leading digit. -/
def leading (d : Decimal) : Int := ((Nat.repr d.digits).length : Int) - 1 + d.exponent

/-- All places in full, a whole number followed by `afterWhole`. -/
def inFull (afterWhole : String) (d : Decimal) : String :=
  if 0 ≤ d.exponent then Nat.repr (d.digits * Nat.pow 10 d.exponent.toNat) ++ afterWhole
  else
    let places := (-d.exponent).toNat
    let digits := Nat.toDigits 10 d.digits
    let padded := List.replicate (places + 1 - digits.length) '0' ++ digits
    String.ofList (padded.take (padded.length - places) ++ '.' :: padded.drop (padded.length - places))

/-- A mantissa with one digit before the point, and a power of ten. -/
def scientific (exponentSign : String) (d : Decimal) : String :=
  let mantissa := match Nat.toDigits 10 d.digits with
    | [] => []
    | [digit] => [digit]
    | digit :: rest => digit :: '.' :: rest
  let power := if 0 ≤ d.leading then exponentSign ++ Nat.repr d.leading.toNat
    else "-" ++ Nat.repr (-d.leading).toNat
  String.ofList mantissa ++ "e" ++ power

end Decimal

namespace NumberFormat

/-- The text of a finite nonnegative pattern. -/
def magnitude (f : NumberFormat) (bits : Nat) : String :=
  if bits = 0 then "0" ++ f.afterWhole
  else
    let d := Decimal.shortest f.tie bits
    if f.inFull d.leading then d.inFull f.afterWhole else d.scientific f.exponentSign

/-- The text of a double. The sign of zero is shown. -/
def write (f : NumberFormat) (x : Float) : String :=
  let bits := Binary64.pattern x
  if Binary64.infinity < bits then f.notNumber
  else if bits = Binary64.infinity then
    if Binary64.isNegative x then f.negativeInfinity else f.infinity
  else if Binary64.isNegative x then "-" ++ f.magnitude bits
  else f.magnitude bits

/-- Every place in full, whatever the size; a whole number has no point. -/
def plain : NumberFormat where
  inFull _ := true
  afterWhole := ""
  exponentSign := ""
  tie := .up
  infinity := "inf"
  negativeInfinity := "-inf"
  notNumber := "NaN"

/-- The format of outlines: always with a point or a power of ten, and in full from `0.0001` up to
sixteen places before the point. -/
def pointed : NumberFormat where
  inFull e := -4 ≤ e && e < 16
  afterWhole := ".0"
  exponentSign := ""
  tie := .up
  infinity := "inf"
  negativeInfinity := "-inf"
  notNumber := "NaN"

/-- The format of exchanged data: like `pointed`, in full from `0.00001` on, with a sign on each
exponent, and with `null` for what is not finite. -/
def exchange : NumberFormat where
  inFull e := -5 ≤ e && e < 16
  afterWhole := ".0"
  exponentSign := "+"
  tie := .toEven
  infinity := "null"
  negativeInfinity := "null"
  notNumber := "null"

end NumberFormat

end FormulaSheet
