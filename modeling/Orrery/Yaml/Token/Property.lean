import Orrery.Yaml.Cursor
import Orrery.Yaml.Token
import Orrery.Yaml.Token.Quoted

/-!
# Names, tags and directives

The small tokens that stand in front of a node or of a document: anchors and references, tags, and the
two directives.  A tag is a handle and a suffix; `!<…>` gives the tag outright, which is a tag with an
empty handle, and a lone `!` counts as one of those too.  A tag ends before the first zero octet.
-/

namespace Orrery

namespace Yaml

namespace Property

/-! ## Anchors and references -/

/-- What may follow a name at once. -/
def endsName : List Char → Bool
  | [] => true
  | c :: _ => isGap c || c = '?' || c = ':' || c = ',' || c = ']' || c = '\x7d' || c = '%' || c = '@'
      || c = '\u0060'

/-- The name behind an anchor or reference sign. -/
def name? (c : Cursor) : Option (String × Cursor) :=
  let (name, c) := c.skip.takeWhile isWord
  if name.isEmpty || !endsName c.rest then none else some (String.ofList name, c)

/-! ## Tags -/

/-- A character that needs no escape in a tag; brackets and commas only where no list can be meant. -/
def isTagChar (everywhere : Bool) (c : Char) : Bool :=
  isWord c || (";/?:@&=+$.!~*'()".toList.contains c)
    || (everywhere && (c = ',' || c = '[' || c = ']'))

/-- How many octets a character has whose first octet is given. -/
def width? (n : Nat) : Option Nat :=
  if n < 0x80 then some 1
  else if 0xC0 ≤ n && n < 0xE0 then some 2
  else if 0xE0 ≤ n && n < 0xF0 then some 3
  else if 0xF0 ≤ n && n < 0xF8 then some 4
  else none

/-- An octet written as a percent sign and two digits. -/
def escapedOctet? : List Char → Option (Nat × List Char)
  | '%' :: a :: b :: rest => (Quoted.code? [a, b]).map fun n => (n, rest)
  | _ => none

/-- The octets after the first of an escaped character. -/
def continuation? : Nat → List Char → Option (Octets × List Char)
  | 0, cs => some ([], cs)
  | n + 1, cs =>
    match escapedOctet? cs with
    | none => none
    | some (o, cs) =>
      if 0x80 ≤ o && o < 0xC0 then (continuation? n cs).map fun (os, cs) => (Char.ofNat o :: os, cs)
      else none

/-- A character written octet by octet.  How many there are is checked, but not whether they make a
character. -/
def escapedChar? (cs : List Char) : Option (Octets × List Char) := do
  let (first, cs) ← escapedOctet? cs
  let width ← width? first
  let (more, cs) ← continuation? (width - 1) cs
  return (Char.ofNat first :: more, cs)

/-- The characters of a tag; every one of them takes a character of the text, so `fuel` need not exceed
its length. -/
def tagChars? (everywhere : Bool) (fuel : Nat) (cs : List Char) : Option (Tag × List Char) :=
  match fuel, cs with
  | 0, cs => some ([], cs)
  | _, [] => some ([], [])
  | fuel + 1, c :: rest =>
    if c = '%' then
      match escapedChar? (c :: rest) with
      | none => none
      | some (os, rest) => (tagChars? everywhere fuel rest).map fun (xs, rest) => (os ++ xs, rest)
    else if isTagChar everywhere c then
      (tagChars? everywhere fuel rest).map fun (xs, rest) => (c :: xs, rest)
    else some ([], c :: rest)

/-- The characters of a tag from a place on, and the place behind. -/
def suffix? (c : Cursor) (everywhere : Bool) : Option (Tag × Cursor) :=
  (tagChars? everywhere c.rest.length c.rest).map fun (xs, rest) =>
    (xs, c.drop (c.rest.length - rest.length))

/-- Like `suffix?`, and there is at least one character. -/
def nonemptySuffix? (c : Cursor) (everywhere : Bool) : Option (Tag × Cursor) :=
  match suffix? c everywhere with
  | some (x :: xs, c) => some (x :: xs, c)
  | _ => none

/-- An exclamation mark, a word, and perhaps another exclamation mark. -/
def handle? (c : Cursor) : Option (List Char × Cursor) :=
  match c.rest with
  | '!' :: _ =>
    let (name, c) := c.skip.takeWhile isWord
    match c.rest with
    | '!' :: _ => some ('!' :: name ++ ['!'], c.skip)
    | _ => some ('!' :: name, c)
  | _ => none

/-- The handle and the suffix of a tag. -/
def tagParts? (c : Cursor) : Option (String × Tag × Cursor) :=
  match c.rest with
  | '!' :: '<' :: _ =>
    match nonemptySuffix? (c.drop 2) true with
    | some (s, c) => if c.rest.head? = some '>' then some ("", s, c.skip) else none
    | none => none
  | _ =>
    match handle? c with
    | none => none
    | some (handle, behind) =>
      if 1 < handle.length && handle.getLast? = some '!' then
        (nonemptySuffix? behind false).map fun (s, c) => (String.ofList handle, s, c)
      else
        match suffix? behind false with
        | none => none
        | some (more, c) =>
          match handle.drop 1 ++ more with
          | [] | '\x00' :: _ => some ("", ['!'], c)
          | s => some ("!", s, c)

/-- A tag, and behind it a gap or, in a list, a comma. -/
def tag? (c : Cursor) (flow : Bool) : Option (Token × Cursor) :=
  match tagParts? c with
  | none => none
  | some (handle, suffix, c) =>
    if endsWord c.rest || (flow && c.rest.head? = some ',') then some (.tag handle suffix, c) else none

/-! ## Directives -/

/-- A number of at most nine digits. -/
def versionNumber? (c : Cursor) : Option (Nat × Cursor) :=
  let (ds, c) := c.takeWhile Char.isDigit
  if ds.isEmpty || 9 < ds.length then none
  else some (ds.foldl (fun n d => 10 * n + (d.toNat - 48)) 0, c)

/-- What a directive says, from behind its name. -/
def directiveBody? (name : List Char) (c : Cursor) : Option (Token × Cursor) :=
  let c := c.skipBlanks
  if name = "YAML".toList then
    match versionNumber? c with
    | none => none
    | some (major, c) =>
      if c.rest.head? = some '.' then
        (versionNumber? c.skip).map fun (minor, c) => (.version major minor, c)
      else none
  else if name = "TAG".toList then
    match handle? c with
    | none => none
    | some (handle, c) =>
      if handle = ['!'] || handle.getLast? = some '!' then
        match c.rest with
        | ch :: _ =>
          if isBlank ch then
            match nonemptySuffix? c.skipBlanks true with
            | some (start, c) =>
              if endsWord c.rest then some (.shorthand (String.ofList handle) start, c) else none
            | none => none
          else none
        | [] => none
      else none
  else none

/-- A directive, from its percent sign on, to the end of its line. -/
def directive? (c : Cursor) : Option (Token × Cursor) :=
  let (name, c) := c.skip.takeWhile isWord
  if name.isEmpty || !endsWord c.rest then none
  else
    match directiveBody? name c with
    | none => none
    | some (t, c) => c.skipLineEnd?.map fun c => (t, c)

end Property

end Yaml

end Orrery
