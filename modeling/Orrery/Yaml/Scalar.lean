import Orrery.Value.Numeral
import Orrery.Value.Tree
import Orrery.Yaml.Token.Quoted

/-!
# What plain scalars stand for

A scalar is a text.  Where a number or a truth value is asked for, or where any data may stand, a plain
scalar is looked at more closely; the rules are in this file, one function for each kind of scalar.

Whole numbers are decimal, or have a base mark after the sign.  A decimal number with a leading zero is
no number when any data may stand.  A whole number beyond 64 bits but within 128 is refused rather than
rounded; one that is larger still is a binary64 number like any other numeral.
-/

namespace Orrery

namespace Yaml

namespace Scalar

/-- The ways to write nothing, other than not to write anything. -/
def isNull (s : String) : Bool := s = "null" || s = "Null" || s = "NULL" || s = "~"

/-- The ways to write a truth value. -/
def bool? (s : String) : Option Bool :=
  if s = "true" || s = "True" || s = "TRUE" then some true
  else if s = "false" || s = "False" || s = "FALSE" then some false
  else none

/-! ## Whole numbers -/

/-- A digit of a base up to sixteen. -/
def digit? (base : Nat) (c : Char) : Option Nat :=
  (Quoted.digitValue? c).filter (· < base)

/-- The natural number that at least one digit spells. -/
def natural? (base : Nat) (ds : List Char) : Option Nat :=
  if ds.isEmpty then none
  else ds.foldl (fun n d => do return base * (← n) + (← digit? base d)) (some 0)

/-- The base that a letter after a leading zero marks. -/
def base? : List Char → Option (Nat × List Char)
  | '0' :: 'x' :: ds => some (16, ds)
  | '0' :: 'o' :: ds => some (8, ds)
  | '0' :: 'b' :: ds => some (2, ds)
  | _ => none

/-- Digits with a leading zero, after a sign or none. -/
def hasLeadingZero (cs : List Char) : Bool :=
  let cs := match cs with
    | '+' :: rest | '-' :: rest => rest
    | cs => cs
  match cs with
  | '0' :: c :: rest => (c :: rest).all Char.isDigit
  | _ => false

/-- Without one plus sign. -/
def unsigned : List Char → List Char
  | '+' :: rest => rest
  | cs => cs

/-- A number without a minus sign, below a bound. -/
def below? (bound : Nat) (cs : List Char) : Option Nat :=
  let digits := unsigned cs
  let based := (base? digits).bind fun (base, ds) => (natural? base ds).filter (· < bound)
  match based with
  | some n => some n
  | none => if hasLeadingZero cs then none else (natural? 10 digits).filter (· < bound)

/-- A number with a minus sign, not below the negative of a bound. -/
def negative? (bound : Nat) : List Char → Option Int
  | '-' :: cs =>
    let based := (base? cs).bind fun (base, ds) => (natural? base ds).filter (· ≤ bound)
    match based with
    | some n => some (-(n : Int))
    | none =>
      if hasLeadingZero cs then none
      else ((natural? 10 cs).filter (· ≤ bound)).map fun n => -(n : Int)
  | _ => none

/-- A natural number of 64 bits. -/
def word? (s : String) : Option UInt64 := (below? 18446744073709551616 s.toList).map (·.toUInt64)

/-- A whole number as a leaf.  The outer option says whether it is a whole number, the inner one is empty
if it is too large to be data. -/
def integer? (s : String) : Option (Option Tree) :=
  let cs := s.toList
  match below? 18446744073709551616 cs with
  | some n => some ((Number.ofInt? n).map .number)
  | none =>
    match negative? 9223372036854775808 cs with
    | some n => if n = 0 then some (some .minusZero) else some ((Number.ofInt? n).map .number)
    | none =>
      if (below? (1 <<< 128) cs).isSome || (negative? (1 <<< 127) cs).isSome then some none else none

/-! ## Binary64 numbers -/

/-- Digits with an optional point, at least one digit in all. -/
def mantissa? (cs : List Char) : Option (List Char × List Char × List Char) :=
  let whole := cs.takeWhile Char.isDigit
  let rest := cs.dropWhile Char.isDigit
  let (places, rest) := match rest with
    | '.' :: rest => (rest.takeWhile Char.isDigit, rest.dropWhile Char.isDigit)
    | rest => ([], rest)
  if whole.isEmpty && places.isEmpty then none else some (whole, places, rest)

/-- An optional exponent, and nothing after it. -/
def exponent? : List Char → Option Int
  | [] => some 0
  | c :: rest =>
    if c = 'e' || c = 'E' then
      let (negative, ds) := match rest with
        | '-' :: ds => (true, ds)
        | '+' :: ds => (false, ds)
        | ds => (false, ds)
      (natural? 10 ds).map fun n => if negative then -(n : Int) else n
    else none

/-- A numeral, with a sign or none. -/
def numeral? (cs : List Char) : Option Numeral :=
  let (negative, cs) := match cs with
    | '-' :: cs => (true, cs)
    | '+' :: cs => (false, cs)
    | cs => (false, cs)
  match mantissa? cs with
  | none => none
  | some (whole, places, rest) =>
    (exponent? rest).map fun e =>
      ⟨negative, Numeral.ofDigits (whole ++ places), places.length, e, false⟩

/-- A binary64 number; the infinities and the number that is none have names, and a numeral must be
finite. -/
def float? (s : String) : Option Float :=
  if s = ".nan" || s = ".NaN" || s = ".NAN" then some (0.0 / 0.0)
  else if s = "-.inf" || s = "-.Inf" || s = "-.INF" then some (-1.0 / 0.0)
  else
    match s.toList with
    | '+' :: '+' :: _ | '+' :: '-' :: _ => none
    | cs =>
      let u := String.ofList (unsigned cs)
      if u = ".inf" || u = ".Inf" || u = ".INF" then some (1.0 / 0.0)
      else ((numeral? cs).map Numeral.toFloat).filter Float.isFinite

/-! ## Any data -/

/-- A binary64 number as a leaf. -/
def leaf (x : Float) : Tree :=
  match Number.ofFloat? x with
  | some n => .number n
  | none => .nonFinite

/-- The leaf that a plain scalar without a tag stands for. -/
def plain? (s : String) : Option Tree :=
  if s = "" || isNull s then some .null
  else
    match bool? s with
    | some b => some (.bool b)
    | none =>
      match integer? s with
      | some t => t
      | none =>
        if hasLeadingZero s.toList then some (.text s)
        else
          match float? s with
          | some x => some (leaf x)
          | none => some (.text s)

/-- The tag of one of the standard types. -/
def standardTag (name : String) : Tag := "tag:yaml.org,2002:".toList ++ name.toList

/-- A tag that begins with an exclamation mark. -/
def isLocal (t : Tag) : Bool := t.head? = some '!'

/-- A tag of one's own: a local one that can be read. -/
def isOwn (t : Tag) : Bool := isLocal t && (Text.decode? (t.drop 1)).isSome

/-- The leaf that a scalar stands for where any data may stand.  A tag of a standard type demands that
the text is of that type; a tag of one's own is refused, and a local one that cannot be read leaves a
plain scalar as it is; any other makes the scalar a text. -/
def tree? (tag : Option Tag) (text : String) (isPlain : Bool) : Option Tree :=
  match tag with
  | some t =>
    if t = standardTag "bool" then (bool? text).map .bool
    else if t = standardTag "int" then (integer? text).bind id
    else if t = standardTag "float" then (float? text).map leaf
    else if t = standardTag "null" then if isNull text then some .null else none
    else if isOwn t then none
    else if isLocal t && isPlain then plain? text
    else some (.text text)
  | none => if isPlain then plain? text else some (.text text)

end Scalar

end Yaml

end Orrery
