import Orrery.Decimal.Basic

/-!
# The fewest digits that read back

A finite binary64 number is written with as few decimal digits as identify it.  For each digit count,
starting at one, the two decimals of that length that enclose the number are tried; the first length
at which one of them reads back as the number wins, and of two that do the nearer is taken.  When both
are equally near, the format decides (`Tie`).

Only the two enclosing decimals need a look: the numbers that read back as `x` form an interval around
`x`, so if any decimal of some length lies in it, one of the two neighbours of `x` does.

Seventeen digits always suffice; the exact value stands behind them so that the search is total and its
result reads back whatever the search does.
-/

namespace Orrery

/-- Which of two equally near decimals is written. -/
inductive Tie where
  /-- The one with the even last digit. -/
  | even
  /-- The larger one. -/
  | up
  deriving DecidableEq, Repr

namespace Decimal

/-- The enclosing decimal of `v` on the grid of `10 ^ grid` that is written for it, if one reads back
as `x`. -/
def onGrid? (tie : Tie) (x : Float) (v : Fraction) (grid : Int) : Option Decimal :=
  let w := v.scale grid
  let below := w.num / w.den
  let twice := 2 * (w.num % w.den)
  let low : Decimal := ⟨below, grid⟩
  let high : Decimal := ⟨below + 1, grid⟩
  let lowFits := decide (low.toFloat.toBits = x.toBits)
  let highFits := decide (high.toFloat.toBits = x.toBits)
  if lowFits && highFits then
    if twice < w.den then some low
    else if w.den < twice then some high
    else match tie with
      | .even => if below % 2 = 0 then some low else some high
      | .up => some high
  else if lowFits then some low
  else if highFits then some high
  else none

/-- The exact value of a magnitude: a power of two below the line turns into a power of five above. -/
def exact (v : Fraction) : Decimal :=
  let places := v.den.log2
  ⟨v.num * Nat.pow 5 places, -(places : Int)⟩

/-- Try the grids from `lead` down, one digit more each time. -/
def search (tie : Tie) (x : Float) (v : Fraction) (grid : Int) : Nat → Option Decimal
  | 0 => none
  | n + 1 =>
    match onGrid? tie x v grid with
    | some d => some d
    | none => search tie x v (grid - 1) n

/-- Drop the zeros at the end of the digits, counting each in the exponent. -/
def trimmed (d : Decimal) : Decimal := go d.digits d.exponent (digitCount d.digits)
where
  /-- Divide by ten while the digits allow it, at most as often as there are digits. -/
  go (digits : Nat) (exponent : Int) : Nat → Decimal
    | 0 => ⟨digits, exponent⟩
    | n + 1 =>
      if digits ≠ 0 ∧ digits % 10 = 0 then go (digits / 10) (exponent + 1) n
      else ⟨digits, exponent⟩

/-- The shortest decimal of the magnitude of a finite number; zero has the single digit `0`. -/
def shortest (tie : Tie) (x : Float) : Decimal :=
  let magnitude := Float.ofBits (x.toBits &&& 0x7FFFFFFFFFFFFFFF)
  let v := Fraction.ofFloat magnitude
  if v.num = 0 then ⟨0, 0⟩
  else ((search tie magnitude v v.leadingExponent 17).getD (exact v)).trimmed

end Decimal

end Orrery
