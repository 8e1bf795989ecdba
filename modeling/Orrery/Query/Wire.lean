import Orrery.Query.Basic
import Orrery.Value.Tree

/-!
# Queries as data

A query travels as a mapping with the field `kind`, the name of its outermost node, and the field
`content`, what stands below that node; `Root` has no content.  `Query.wire` writes this form and
`Query.ofTree?` reads it.

Reading is more generous than writing.  The two fields come in either order and other fields are
skipped; a list of the two, kind first, does as well; in a mapping the kind may also be given as a
mapping from its name to nothing; and a field may be named by its position, which only YAML can express.
It is strict where two readings would be possible: neither field may stand twice, and every kind but
`Root` needs content of exactly its own shape.

How generous depends on what is known when the reader comes to a query, its `Source`.  Where only a query
can stand it is read as it comes, and kinds have names.  Where something else could stand as well, the
data was gathered first, and a number does for the name of a kind.  When `content` stands before `kind`,
it is set aside before its shape is known, so everything inside it has to be readable, skipped fields
included (`Tree.readable`); inside of it a kind may also be a mapping from its name to an empty mapping.

Each list and mapping that is entered takes one from the nesting still allowed, and the reader recurses
on that number.
-/

namespace Orrery

namespace Tree

mutual

/-- No leaf below is unreadable, and nesting stays within a depth. -/
def readable (depth : Nat) : Tree → Bool
  | .unreadable => false
  | .list items =>
    match depth with
    | 0 => false
    | d + 1 => readableItems d items
  | .mapping fields =>
    match depth with
    | 0 => false
    | d + 1 => readableFields d fields
  | .null | .bool _ | .number _ | .nonFinite | .minusZero | .text _ => true

/-- Every item is readable. -/
def readableItems (depth : Nat) : List Tree → Bool
  | [] => true
  | t :: rest => readable depth t && readableItems depth rest

/-- Every name and every value is readable. -/
def readableFields (depth : Nat) : List (Tree × Tree) → Bool
  | [] => true
  | (name, t) :: rest => readable depth name && (readable depth t && readableFields depth rest)

end

/-- Whether a field name is a text or a position. -/
def isName : Tree → Bool
  | .text _ => true
  | .number (.integer i _) => decide (0 ≤ i)
  | _ => false

/-- Whether a field name is the given one, or its position. -/
def isNamed (name : String) (position : Nat) : Tree → Bool
  | .text s => s == name
  | .number (.integer i _) => decide (i = position)
  | _ => false

end Tree

namespace Query

open Orrery.Tree

/-- What is known of the data when a query is read from it. -/
inductive Source where
  /-- Only a query can stand here, and it is read as it comes. -/
  | direct
  /-- Something else could stand here, so the data was gathered first. -/
  | gathered
  /-- The data was set aside until its kind was known. -/
  | setAside
  deriving DecidableEq

/-- The kind with a name, or with a number if the data was gathered before. -/
def kindNamed? (source : Source) : Tree → Option Kind
  | .text s => Kind.ofName? s
  | .number (.integer i _) => if source = .direct || i < 0 then none else Kind.all[i.toNat]?
  | _ => none

/-- What stands below the name of a kind in place of content: nothing. -/
def isVoid (source : Source) : Tree → Bool
  | .null => true
  | .mapping [] => source = .setAside
  | _ => false

/-- The kind that the field `kind` of a mapping gives. -/
def kindOfTree? (source : Source) (depth : Nat) : Tree → Option Kind
  | .text s => Kind.ofName? s
  | .mapping [(name, t)] => if 0 < depth && isVoid source t then kindNamed? source name else none
  | _ => none

/-- The only value under a name of a mapping whose names can all be read. -/
def only? (fields : List (Tree × Tree)) (name : String) (position : Nat) : Option Tree :=
  match fields.filter fun f => isNamed name position f.1 with
  | [f] => some f.2
  | _ => none

/-- The kind and the content that the fields of a mapping give, and whether the content stands first. -/
def parts? (fields : List (Tree × Tree)) : Option (Tree × Option Tree × Bool) :=
  if fields.all fun f => isName f.1 then
    let isKind := fun f : Tree × Tree => isNamed "kind" 0 f.1
    let isContent := fun f : Tree × Tree => isNamed "content" 1 f.1
    match fields.filter fun f => isKind f || isContent f with
    | [k] => if isKind k then some (k.2, none, false) else none
    | [a, b] =>
      if isKind a && isContent b then some (a.2, some b.2, false)
      else if isContent a && isKind b then some (b.2, some a.2, true)
      else none
    | _ => none
  else none

/-- Read every tree of a list. -/
def readAll? (read : Tree → Option Query) : List Tree → Option (List Query)
  | [] => some []
  | t :: rest =>
    match read t with
    | some q => (readAll? read rest).map (q :: ·)
    | none => none

/-- The container and the field of an access. -/
def accessParts? (fields : List (Tree × Tree)) : Option (Tree × String) :=
  if fields.all fun f => isName f.1 then
    match only? fields "base" 0, only? fields "field" 1 with
    | some container, some (.text field) => some (container, field)
    | _, _ => none
  else none

/-- Read the wire form within a depth. -/
def ofTree? : Source → Nat → Tree → Option Query
  | _, 0, _ => none
  | source, depth + 1, t =>
    let content? (source : Source) (kind : Kind) (c : Tree) : Option Query :=
      match kind, c with
      | .prev, c => (ofTree? source depth c).map .prev
      | .root, .null => some .root
      | .agent, .text s => some (.agent s)
      | .base, .text s => some (.base s)
      | .access, .mapping fields =>
        match depth with
        | 0 => none
        | inner + 1 =>
          match accessParts? fields with
          | some (container, field) => (ofTree? source inner container).map (.access · field)
          | none => none
      | .tuple, .list items =>
        match depth with
        | 0 => none
        | inner + 1 => (readAll? (ofTree? source inner) items).map .tuple
      | _, _ => none
    match t with
    | .list [k, c] =>
      match kindNamed? source k with
      | some kind => content? source kind c
      | none => none
    | .mapping fields =>
      match parts? fields with
      | none => none
      | some (k, c, contentFirst) =>
        match kindOfTree? source depth k, c with
        | some .root, none => some .root
        | some kind, some c =>
          if contentFirst then if c.readable depth then content? .setAside kind c else none
          else content? source kind c
        | _, _ => none
    | _ => none

mutual

/-- Write the wire form. -/
def wire : Query → Value
  | .prev inner => .mapping [("content", wire inner), ("kind", .text "Prev")]
  | .root => .mapping [("kind", .text "Root")]
  | .agent name => .mapping [("content", .text name), ("kind", .text "Agent")]
  | .access container field =>
    .mapping [("content", .mapping [("base", wire container), ("field", .text field)]),
      ("kind", .text "Access")]
  | .base field => .mapping [("content", .text field), ("kind", .text "Base")]
  | .tuple items => .mapping [("content", .list (wireItems items)), ("kind", .text "Tuple")]

/-- Write every item. -/
def wireItems : List Query → List Value
  | [] => []
  | q :: rest => wire q :: wireItems rest

end

end Query

end Orrery
