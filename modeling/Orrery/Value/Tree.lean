import Orrery.Value.Basic

/-!
# Text as written

A `Tree` is data between text and meaning.  It keeps what a `Value` forgets — the order of the fields
and a name that stands twice — because some readers must refuse a repeated field, and it keeps apart
the leaves that the grammar admits but no value can hold (`unreadable`: a number beyond binary64, a
text with half of a surrogate pair).  A reader that skips a field it does not know never looks inside
it, so such a leaf spoils only what is actually read.

A field name is a tree as well.  In JSON it is always a text; in YAML a name may be any scalar.

`Tree.value?` reads a tree as a value.  It takes the number of levels of nesting that are still
allowed, since text nested more deeply than `Tree.depthLimit` is refused.
-/

namespace Orrery

/-- Data as a text presents it. -/
inductive Tree where
  /-- Nothing, said explicitly. -/
  | null
  /-- A truth value. -/
  | bool (b : Bool)
  /-- A number. -/
  | number (n : Number)
  /-- A text. -/
  | text (s : String)
  /-- A number that is infinite or none, which JSON cannot express; as data it is `null`. -/
  | nonFinite
  /-- A whole zero with a minus sign, which JSON cannot express; as data it is zero. -/
  | minusZero
  /-- A leaf that may be skipped but not read. -/
  | unreadable
  /-- A list. -/
  | list (items : List Tree)
  /-- A mapping, fields in the order written. -/
  | mapping (fields : List (Tree × Tree))
  deriving Inhabited

namespace Tree

/-- Nesting of lists and mappings that a reader follows. -/
def depthLimit : Nat := 127

/-- The text of a leaf. -/
def text? : Tree → Option String
  | .text s => some s
  | _ => none

/-- The number of a leaf, as binary64. -/
def float? : Tree → Option Float
  | .number n => some n.toFloat
  | _ => none

mutual

/-- Read a tree as a value; of two fields with one name the later stays. -/
def value? (depth : Nat) : Tree → Option Value
  | .null => some .null
  | .bool b => some (.bool b)
  | .number n => some (.number n)
  | .text s => some (.text s)
  | .nonFinite => some .null
  | .minusZero => some (.number (.ofUInt64 0))
  | .unreadable => none
  | .list items =>
    match depth with
    | 0 => none
    | d + 1 => (values? d items).map .list
  | .mapping fields =>
    match depth with
    | 0 => none
    | d + 1 => (fieldValues? d fields []).map .mapping

/-- Read every item. -/
def values? (depth : Nat) : List Tree → Option (List Value)
  | [] => some []
  | t :: rest =>
    match value? depth t with
    | some v => (values? depth rest).map (v :: ·)
    | none => none

/-- Read every field into the fields gathered so far. -/
def fieldValues? (depth : Nat) : List (Tree × Tree) → Entries Value → Option (Entries Value)
  | [], gathered => some gathered
  | (name, t) :: rest, gathered =>
    match name, value? depth t with
    | .text k, some v => fieldValues? depth rest (Entries.insert k v gathered)
    | _, _ => none

end

/-- Read a mapping as a table of states. -/
def states? (depth : Nat) (t : Tree) : Option States :=
  match t, depth with
  | .mapping fields, d + 1 => go d fields Table.empty
  | _, _ => none
where
  /-- Read every field into the states gathered so far. -/
  go (depth : Nat) : List (Tree × Tree) → States → Option States
    | [], gathered => some gathered
    | (name, t) :: rest, gathered =>
      match name, value? depth t with
      | .text k, some v => go depth rest (gathered.insert k v)
      | _, _ => none

mutual

/-- A value as a tree. -/
def ofValue : Value → Tree
  | .null => .null
  | .bool b => .bool b
  | .number n => .number n
  | .text s => .text s
  | .list items => .list (ofValues items)
  | .mapping fields => .mapping (ofFields fields)

/-- Values as trees. -/
def ofValues : List Value → List Tree
  | [] => []
  | v :: rest => ofValue v :: ofValues rest

/-- Fields as trees. -/
def ofFields : List (String × Value) → List (Tree × Tree)
  | [] => []
  | (k, v) :: rest => (.text k, ofValue v) :: ofFields rest

end

/-- Every value under a field name, in the order written. -/
def named (fields : List (Tree × Tree)) (name : String) : List Tree :=
  fields.filterMap fun f =>
    match f.1 with
    | .text k => if k = name then some f.2 else none
    | _ => none

/-- Whether every name of a mapping is a text that can be read. -/
def namesReadable (fields : List (Tree × Tree)) : Bool :=
  fields.all fun f => f.1.text?.isSome

end Tree

end Orrery
