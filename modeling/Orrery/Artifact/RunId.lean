/-!
# Run identifiers

A run has a number of 128 bits.  It is written as 32 hexadecimal digits in five groups; reading also
accepts the digits without the hyphens, and the grouped form in braces or after `urn:uuid:`.
-/

namespace Orrery

/-- The number of a run. -/
structure RunId where
  /-- The number. -/
  value : BitVec 128
  deriving DecidableEq

namespace RunId

/-- The sizes of the groups. -/
def groups : List Nat := [8, 4, 4, 4, 12]

/-- The value of a hexadecimal digit of either case. -/
def digit? (c : Char) : Option Nat :=
  if '0' ≤ c && c ≤ '9' then some (c.toNat - 48)
  else if 'a' ≤ c && c ≤ 'f' then some (c.toNat - 87)
  else if 'A' ≤ c && c ≤ 'F' then some (c.toNat - 55)
  else none

/-- The number that 32 digits spell. -/
def ofDigits? (ds : List Char) : Option RunId :=
  if ds.length = 32 then
    (ds.foldl (fun n d => do return 16 * (← n) + (← digit? d)) (some 0)).map fun n => ⟨BitVec.ofNat 128 n⟩
  else none

/-- The digits of groups of given sizes with a hyphen between them. -/
def ungrouped? : List Nat → List Char → Option (List Char)
  | [], [] => some []
  | [], _ => none
  | [n], cs => if cs.length = n then some cs else none
  | n :: sizes, cs =>
    match cs.drop n with
    | '-' :: rest => (ungrouped? sizes rest).map (cs.take n ++ ·)
    | _ => none

/-- The grouped form. -/
def ofGroups? (cs : List Char) : Option RunId := (ungrouped? groups cs).bind ofDigits?

/-- Remove a given beginning. -/
def without? (start cs : List Char) : Option (List Char) :=
  if start.isPrefixOf cs then some (cs.drop start.length) else none

/-- The identifier that a text spells, in any of the four forms. -/
def ofText? (text : String) : Option RunId :=
  let cs := text.toList
  if cs.length = 32 then ofDigits? cs
  else if cs.length = 36 then ofGroups? cs
  else if cs.length = 38 then
    if cs.head? = some '\x7b' && cs.getLast? = some '\x7d' then ofGroups? (cs.drop 1).dropLast else none
  else (without? "urn:uuid:".toList cs).bind ofGroups?

/-- Digits of a number in base sixteen, a given count of them. -/
def digits (n : Nat) : Nat → List Char
  | 0 => []
  | count + 1 => digits (n / 16) count ++ [Nat.digitChar (n % 16)]

/-- Put digits into groups of given sizes. -/
def grouped : List Nat → List Char → List Char
  | [], cs => cs
  | [_], cs => cs
  | n :: sizes, cs => cs.take n ++ '-' :: grouped sizes (cs.drop n)

/-- The grouped form, in small letters. -/
def text (id : RunId) : String := String.ofList (grouped groups (digits id.value.toNat 32))

end RunId

end Orrery
