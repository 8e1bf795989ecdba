import Orrery.Value.Basic
import Orrery.Decimal.Layout

/-!
# Values as text

The text of a value is JSON.  `Value.render` writes it on one line without a blank, `Value.pretty`
over several lines, two blanks a level.  Both write the fields in the order in which the mapping lists
them and every number by `Number.render`, so that a whole number has no point and a binary64 number
always has a point or an exponent: reading gives back the same kind of number.
-/

namespace Orrery

/-- The text of a number. -/
def Number.render : Number → List Char
  | .integer value _ => (toString value).toList
  | .binary value _ => (Layout.data.text value).toList

namespace Text

/-- One hexadecimal digit, in lower case. -/
def hexDigit (n : Nat) : Char := Nat.digitChar (n % 16)

/-- How one character stands inside quotes: the two characters that would end the text or start an
escape are escaped, and so are control characters, five of them by a letter. -/
def escaped (c : Char) : List Char :=
  if c = '"' then ['\\', '"']
  else if c = '\\' then ['\\', '\\']
  else if c = '\x08' then ['\\', 'b']
  else if c = '\x0c' then ['\\', 'f']
  else if c = '\n' then ['\\', 'n']
  else if c = '\r' then ['\\', 'r']
  else if c = '\t' then ['\\', 't']
  else if c.toNat < 32 then ['\\', 'u', '0', '0', hexDigit (c.toNat / 16), hexDigit c.toNat]
  else [c]

/-- A text in quotes. -/
def quoted (s : String) : List Char := '"' :: s.toList.flatMap escaped ++ ['"']

end Text

namespace Value

mutual

/-- The text of a value on one line. -/
def chars : Value → List Char
  | .null => ['n', 'u', 'l', 'l']
  | .bool true => ['t', 'r', 'u', 'e']
  | .bool false => ['f', 'a', 'l', 's', 'e']
  | .number n => n.render
  | .text s => Text.quoted s
  | .list [] => ['[', ']']
  | .list (v :: rest) => '[' :: chars v ++ itemChars rest
  | .mapping [] => ['\x7b', '\x7d']
  | .mapping ((k, v) :: rest) => '\x7b' :: Text.quoted k ++ ':' :: chars v ++ fieldChars rest

/-- What follows the first item of a list. -/
def itemChars : List Value → List Char
  | [] => [']']
  | v :: rest => ',' :: chars v ++ itemChars rest

/-- What follows the first field of a mapping. -/
def fieldChars : List (String × Value) → List Char
  | [] => ['\x7d']
  | (k, v) :: rest => ',' :: Text.quoted k ++ ':' :: chars v ++ fieldChars rest

end

/-- The text of a value on one line. -/
def render (v : Value) : String := String.ofList v.chars

/-- A line break and the blanks of a level. -/
def newline (level : Nat) : List Char := '\n' :: List.replicate (2 * level) ' '

mutual

/-- The text of a value over several lines, at a level. -/
def prettyChars (level : Nat) : Value → List Char
  | .list (v :: rest) =>
    '[' :: newline (level + 1) ++ prettyChars (level + 1) v ++ prettyItems level rest
  | .mapping ((k, v) :: rest) =>
    '\x7b' :: newline (level + 1) ++ Text.quoted k ++ ':' :: ' ' :: prettyChars (level + 1) v
      ++ prettyFields level rest
  | .null => ['n', 'u', 'l', 'l']
  | .bool true => ['t', 'r', 'u', 'e']
  | .bool false => ['f', 'a', 'l', 's', 'e']
  | .number n => n.render
  | .text s => Text.quoted s
  | .list [] => ['[', ']']
  | .mapping [] => ['\x7b', '\x7d']

/-- What follows the first item of a list at a level. -/
def prettyItems (level : Nat) : List Value → List Char
  | [] => newline level ++ [']']
  | v :: rest => ',' :: newline (level + 1) ++ prettyChars (level + 1) v ++ prettyItems level rest

/-- What follows the first field of a mapping at a level. -/
def prettyFields (level : Nat) : List (String × Value) → List Char
  | [] => newline level ++ ['\x7d']
  | (k, v) :: rest =>
    ',' :: newline (level + 1) ++ Text.quoted k ++ ':' :: ' ' :: prettyChars (level + 1) v
      ++ prettyFields level rest

end

/-- The text of a value over several lines. -/
def pretty (v : Value) : String := String.ofList (v.prettyChars 0)

end Value

end Orrery
