import Orrery.Value.Tree
import Orrery.Value.Numeral

/-!
# Reading JSON text

The grammar is strict: four kinds of blanks, no comments, no text after the value, no raw control
character inside quotes.  What the grammar admits becomes a `Tree`; whether a leaf can be *read* is a
later question, so a numeral beyond binary64 and half of a surrogate pair give `Tree.unreadable`
instead of an error.

The reader walks the characters once.  Nesting makes it recursive through lists and mappings, and each
step takes one from a count that starts at twice the length of the text; every second step consumes a
character, so the count never runs out first.
-/

namespace Orrery

namespace Tree

namespace Reader

/-- The blanks between tokens. -/
def isBlank (c : Char) : Bool := c = ' ' || c = '\t' || c = '\n' || c = '\r'

/-- Drop blanks in front. -/
def skipBlanks (cs : List Char) : List Char := cs.dropWhile isBlank

/-- The value of a hexadecimal digit. -/
def hexValue? (c : Char) : Option Nat :=
  if '0' ≤ c ∧ c ≤ '9' then some (c.toNat - 48)
  else if 'a' ≤ c ∧ c ≤ 'f' then some (c.toNat - 87)
  else if 'A' ≤ c ∧ c ≤ 'F' then some (c.toNat - 55)
  else none

/-- The value of four hexadecimal digits. -/
def hex4? (a b c d : Char) : Option Nat := do
  let a ← hexValue? a
  let b ← hexValue? b
  let c ← hexValue? c
  let d ← hexValue? d
  return ((a * 16 + b) * 16 + c) * 16 + d

/-- What a backslash and one character stand for. -/
def simpleEscape? (c : Char) : Option Char :=
  if c = '"' ∨ c = '\\' ∨ c = '/' then some c
  else if c = 'b' then some '\x08'
  else if c = 'f' then some '\x0c'
  else if c = 'n' then some '\n'
  else if c = 'r' then some '\r'
  else if c = 't' then some '\t'
  else none

/-- The first half of a surrogate pair. -/
def isHighHalf (n : Nat) : Bool := 0xD800 ≤ n && n < 0xDC00

/-- The second half of a surrogate pair. -/
def isLowHalf (n : Nat) : Bool := 0xDC00 ≤ n && n < 0xE000

/-- The character of a surrogate pair. -/
def joined (high low : Nat) : Char := Char.ofNat (0x10000 + (high - 0xD800) * 0x400 + (low - 0xDC00))

/-- The text after an opening quote, up to its closing quote.  Characters gather in reverse; `spoiled`
is set by half of a surrogate pair. -/
def quoted (spoiled : Bool) (gathered : List Char) : List Char → Option (Tree × List Char)
  | [] => none
  | '"' :: rest =>
    some (if spoiled then .unreadable else .text (String.ofList gathered.reverse), rest)
  | '\\' :: 'u' :: a :: b :: c :: d :: '\\' :: 'u' :: e :: f :: g :: h :: rest =>
    match hex4? a b c d, hex4? e f g h with
    | some n, some m =>
      if isHighHalf n && isLowHalf m then quoted spoiled (joined n m :: gathered) rest
      else if isHighHalf n || isLowHalf n then
        quoted true gathered ('\\' :: 'u' :: e :: f :: g :: h :: rest)
      else quoted spoiled (Char.ofNat n :: gathered) ('\\' :: 'u' :: e :: f :: g :: h :: rest)
    | _, _ => none
  | '\\' :: 'u' :: a :: b :: c :: d :: rest =>
    match hex4? a b c d with
    | some n =>
      if isHighHalf n || isLowHalf n then quoted true gathered rest
      else quoted spoiled (Char.ofNat n :: gathered) rest
    | none => none
  | '\\' :: c :: rest =>
    match simpleEscape? c with
    | some c' => quoted spoiled (c' :: gathered) rest
    | none => none
  | c :: rest => if c.toNat < 32 then none else quoted spoiled (c :: gathered) rest
termination_by cs => cs.length

/-- At least one digit, and what follows. -/
def digits? (cs : List Char) : Option (List Char × List Char) :=
  let ds := cs.takeWhile Char.isDigit
  if ds.isEmpty then none else some (ds, cs.dropWhile Char.isDigit)

/-- The digits before the point: a zero stands alone. -/
def wholePart? : List Char → Option (List Char × List Char)
  | '0' :: rest => some (['0'], rest)
  | cs => digits? cs

/-- The digits after the point, if there is one. -/
def placesPart? : List Char → Option (Option (List Char) × List Char)
  | '.' :: rest => (digits? rest).map fun (ds, rest) => (some ds, rest)
  | cs => some (none, cs)

/-- A whole number that may have a sign. -/
def signed? : List Char → Option (Int × List Char)
  | '-' :: rest => (digits? rest).map fun (ds, rest) => (-(Numeral.ofDigits ds : Int), rest)
  | '+' :: rest => (digits? rest).map fun (ds, rest) => ((Numeral.ofDigits ds : Int), rest)
  | rest => (digits? rest).map fun (ds, rest) => ((Numeral.ofDigits ds : Int), rest)

/-- The exponent, if there is one. -/
def exponentPart? : List Char → Option (Option Int × List Char)
  | c :: rest =>
    if c = 'e' ∨ c = 'E' then (signed? rest).map fun (e, rest) => (some e, rest)
    else some (none, c :: rest)
  | [] => some (none, [])

/-- A numeral after its sign, and what follows. -/
def unsigned? (negative : Bool) (cs : List Char) : Option (Numeral × List Char) := do
  let (ds, cs) ← wholePart? cs
  let (places, cs) ← placesPart? cs
  let (exponent, cs) ← exponentPart? cs
  let places' := places.getD []
  return (⟨negative, Numeral.ofDigits (ds ++ places'), places'.length, exponent.getD 0,
    places.isNone && exponent.isNone⟩, cs)

/-- A numeral and what follows. -/
def numeral? : List Char → Option (Numeral × List Char)
  | '-' :: rest => unsigned? true rest
  | cs => unsigned? false cs

/-- A word that stands for a value. -/
def word? (word : List Char) (t : Tree) (cs : List Char) : Option (Tree × List Char) :=
  if word.isPrefixOf cs then some (t, cs.drop word.length) else none

mutual

/-- A value and what follows. -/
def value? (fuel : Nat) (cs : List Char) : Option (Tree × List Char) :=
  match fuel with
  | 0 => none
  | n + 1 =>
    match skipBlanks cs with
    | [] => none
    | c :: rest =>
      if c = '"' then quoted false [] rest
      else if c = '[' then
        match skipBlanks rest with
        | ']' :: rest => some (.list [], rest)
        | rest => items? n [] rest
      else if c = '\x7b' then
        match skipBlanks rest with
        | '\x7d' :: rest => some (.mapping [], rest)
        | rest => fields? n [] rest
      else if c = 'n' then word? "null".toList .null (c :: rest)
      else if c = 't' then word? "true".toList (.bool true) (c :: rest)
      else if c = 'f' then word? "false".toList (.bool false) (c :: rest)
      else if c = '-' ∨ c.isDigit then
        match numeral? (c :: rest) with
        | some (numeral, rest) =>
          match numeral.number? with
          | some found => some (.number found, rest)
          | none => some (.unreadable, rest)
        | none => none
      else none

/-- The items of a list after its bracket, gathered in reverse. -/
def items? (fuel : Nat) (gathered : List Tree) (cs : List Char) : Option (Tree × List Char) :=
  match fuel with
  | 0 => none
  | n + 1 =>
    match value? n cs with
    | none => none
    | some (t, rest) =>
      match skipBlanks rest with
      | ',' :: rest => items? n (t :: gathered) rest
      | ']' :: rest => some (.list (t :: gathered).reverse, rest)
      | _ => none

/-- The fields of a mapping after its brace, gathered in reverse. -/
def fields? (fuel : Nat) (gathered : List (Tree × Tree)) (cs : List Char) :
    Option (Tree × List Char) :=
  match fuel with
  | 0 => none
  | n + 1 =>
    match skipBlanks cs with
    | '"' :: rest =>
      match quoted false [] rest with
      | none => none
      | some (name, rest) =>
        match skipBlanks rest with
        | ':' :: rest =>
          match value? n rest with
          | none => none
          | some (t, rest) =>
            match skipBlanks rest with
            | ',' :: rest => fields? n ((name, t) :: gathered) rest
            | '\x7d' :: rest => some (.mapping ((name, t) :: gathered).reverse, rest)
            | _ => none
        | _ => none
    | _ => none

end

end Reader

/-- The tree of a JSON text. -/
def ofText? (text : String) : Option Tree :=
  let cs := text.toList
  match Reader.value? (2 * cs.length + 2) cs with
  | some (t, rest) => if (Reader.skipBlanks rest).isEmpty then some t else none
  | none => none

end Tree

/-- The value of a JSON text. -/
def Value.ofText? (text : String) : Option Value := (Tree.ofText? text).bind (Tree.value? Tree.depthLimit)

end Orrery
