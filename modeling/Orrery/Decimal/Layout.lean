import Orrery.Decimal.Shortest

/-!
# Writing numbers

Digits and their place are one question (`Decimal.shortest`), the shape of the text another.  A
`Layout` holds the decisions of one text format, and the simulator uses two:

* `Layout.data` for numbers inside data: `0.00001` and `1000000000000000.0` are written out, smaller
  and larger ones carry a signed exponent, and a whole number keeps its `.0` so that it reads back as
  binary64;
* `Layout.message` for numbers inside sentences: never an exponent, and no `.0`.
-/

namespace Orrery

/-- The decisions of one way of writing binary64 numbers. -/
structure Layout where
  /-- Exponents of the first digit that are written out in full; none: all of them. -/
  plain : Option (Int × Int)
  /-- Whole numbers keep a point and a zero. -/
  keepPoint : Bool
  /-- Which of two equally near shortest decimals is taken. -/
  tie : Tie
  deriving Repr

namespace Layout

/-- Numbers inside data. -/
def data : Layout := ⟨some (-5, 15), true, .even⟩

/-- Numbers inside sentences. -/
def message : Layout := ⟨none, false, .up⟩

/-- Write digits in full, given the power of ten of the last digit. -/
def written (l : Layout) (digits : List Char) (exponent : Int) : List Char :=
  match exponent with
  | .ofNat e => digits ++ List.replicate e '0' ++ (if l.keepPoint then ['.', '0'] else [])
  | .negSucc e =>
    let places := e + 1
    if places < digits.length then
      digits.take (digits.length - places) ++ '.' :: digits.drop (digits.length - places)
    else '0' :: '.' :: List.replicate (places - digits.length) '0' ++ digits

/-- Write one digit before the point, and the power of ten with its sign. -/
def scientific (digits : List Char) (lead : Int) : List Char :=
  let mantissa := match digits with
    | [] => []
    | [d] => [d]
    | d :: rest => d :: '.' :: rest
  let sign := if lead < 0 then '-' else '+'
  mantissa ++ 'e' :: sign :: Nat.toDigits 10 lead.natAbs

/-- The text of a magnitude. -/
def magnitude (l : Layout) (x : Float) : List Char :=
  let d := Decimal.shortest l.tie x
  let digits := Nat.toDigits 10 d.digits
  let lead := d.exponent + (digits.length : Int) - 1
  match l.plain with
  | none => l.written digits d.exponent
  | some (least, most) =>
    if least ≤ lead ∧ lead ≤ most then l.written digits d.exponent else scientific digits lead

/-- The text of a binary64 number; the special ones have names. -/
def text (l : Layout) (x : Float) : String :=
  if x.isNaN then "NaN"
  else
    let sign := if Float.signBit x then ['-'] else []
    if x.isInf then String.ofList (sign ++ ['i', 'n', 'f'])
    else String.ofList (sign ++ l.magnitude x)

end Layout

end Orrery
