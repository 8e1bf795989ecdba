import Orrery.Value.Basic
import Orrery.Decimal.Basic

/-!
# Numerals

The parts of a number as they are written, and the number they denote.  A numeral without point and
exponent denotes a whole number as long as 64 bits hold it; `-0` is the exception, for only binary64
has a negative zero.  Every other numeral denotes the nearest binary64 number, and a numeral beyond
the largest finite one denotes nothing.
-/

namespace Orrery

/-- The parts of a written number. -/
structure Numeral where
  /-- A minus sign stands in front. -/
  negative : Bool
  /-- All digits, those after the point included, as one number. -/
  digits : Nat
  /-- How many digits stand after the point. -/
  places : Nat
  /-- The exponent that is written. -/
  exponent : Int
  /-- Neither point nor exponent is written. -/
  whole : Bool
  deriving Repr

namespace Numeral

/-- The natural number that decimal digits spell. -/
def ofDigits (ds : List Char) : Nat := ds.foldl (fun n c => 10 * n + (c.toNat - 48)) 0

/-- The nearest binary64 number, possibly infinite. -/
def toFloat (n : Numeral) : Float :=
  let magnitude := Decimal.toFloat ⟨n.digits, n.exponent - n.places⟩
  if n.negative then -magnitude else magnitude

/-- The number a numeral denotes. -/
def number? (n : Numeral) : Option Number :=
  let whole? : Option Number :=
    if n.whole then
      if n.negative then if n.digits = 0 then none else Number.ofInt? (-(n.digits : Int))
      else Number.ofInt? n.digits
    else none
  match whole? with
  | some i => some i
  | none => Number.ofFloat? n.toFloat

end Numeral

end Orrery
