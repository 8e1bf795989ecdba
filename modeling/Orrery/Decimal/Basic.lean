/-!
# Decimal numerals

A `Decimal` is a whole number of units of a power of ten.  It is the common form of a number that has
been read from text and of a number about to be written, and `Decimal.toFloat` is its meaning: the
binary64 number nearest to it, ties to the even mantissa.

`Fraction` holds the exact magnitude of a finite binary64 number as a quotient of natural numbers, so
that every comparison made while digits are chosen is a comparison of natural numbers.
-/

namespace Orrery

/-- `digits · 10 ^ exponent`. -/
structure Decimal where
  /-- The digits, read as one natural number. -/
  digits : Nat
  /-- The power of ten that the last digit counts. -/
  exponent : Int
  deriving DecidableEq, Repr, Inhabited

namespace Decimal

/-- How many digits a natural number is written with. -/
def digitCount (n : Nat) : Nat := (Nat.toDigits 10 n).length

/-- The nearest binary64 number; beyond the largest finite one this is infinity.  A number of `10 ^ 309`
or more is beyond it, and one below `10 ^ -324` is nearest to zero; deciding these two first keeps the
arithmetic small when an exponent is absurd. -/
def toFloat (d : Decimal) : Float :=
  let places : Int := digitCount d.digits + d.exponent
  if d.digits = 0 then 0.0
  else if 309 < places then 1.0 / 0.0
  else if places < -323 then 0.0
  else
    match d.exponent with
    | .ofNat e => Float.ofScientific d.digits false e
    | .negSucc e => Float.ofScientific d.digits true (e + 1)

end Decimal

/-- A positive quotient of natural numbers. -/
structure Fraction where
  /-- The part above the line. -/
  num : Nat
  /-- The part below the line. -/
  den : Nat
  deriving DecidableEq, Repr, Inhabited

namespace Fraction

/-- The magnitude of a finite binary64 number: an 11-bit exponent field and a 52-bit mantissa field
stand for `m · 2 ^ q`, where the smallest exponent field leaves out the leading bit. -/
def ofFloat (x : Float) : Fraction :=
  let bits := x.toBits.toNat
  let mantissaField := bits % 4503599627370496
  let exponentField := bits / 4503599627370496 % 2048
  let mantissa := if exponentField = 0 then mantissaField else mantissaField + 4503599627370496
  let shift := max exponentField 1
  if 1075 ≤ shift then ⟨mantissa <<< (shift - 1075), 1⟩ else ⟨mantissa, 1 <<< (1075 - shift)⟩

/-- Divide by a power of ten. -/
def scale (v : Fraction) (exponent : Int) : Fraction :=
  match exponent with
  | .ofNat e => ⟨v.num, v.den * Nat.pow 10 e⟩
  | .negSucc e => ⟨v.num * Nat.pow 10 (e + 1), v.den⟩

/-- The power of ten that the first digit counts: the `e` with `10 ^ e ≤ v < 10 ^ (e + 1)`, for a
positive `v`.  The digit counts of the two parts leave two candidates. -/
def leadingExponent (v : Fraction) : Int :=
  let e : Int := (Decimal.digitCount v.num : Int) - Decimal.digitCount v.den
  let w := v.scale e
  if w.den ≤ w.num then e else e - 1

end Fraction

/-- Whether the sign bit is set, which tells `-0` from `0`. -/
def Float.signBit (x : Float) : Bool := 9223372036854775808 ≤ x.toBits.toNat

end Orrery
