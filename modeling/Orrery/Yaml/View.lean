import Orrery.Config.Schema
import Orrery.Text.Space
import Orrery.Yaml.Node
import Orrery.Yaml.Scalar
import Orrery.Yaml.Token.Scan

/-!
# Reading YAML documents

A document is looked at from a place in it.  References are followed on the way, and only where the
reader goes: what it skips may be as wild as it likes.  Two bounds keep the reading finite even if
references go in circles: collections are entered to a depth of 128, and a hundred references are
followed for every node of the document.

A text is any scalar, taken as it stands.  Numbers and truth values are plain scalars of their kind.
Where a collection is expected, nothing at all counts as an empty one.
-/

namespace Orrery

namespace Yaml

/-- A place in a document. -/
structure Place where
  /-- The document. -/
  document : Document
  /-- The node. -/
  node : Node
  /-- How many collections may still be entered. -/
  depth : Nat

namespace Document

/-- Nesting of collections that is followed. -/
def depthLimit : Nat := 128

/-- References that are followed in all. -/
def referenceLimit (d : Document) : Nat := 100 * d.size

/-- The node that a node stands for. -/
def follow (d : Document) : Node → Reading Node
  | .alias i => fun left =>
    match left, d.node? i with
    | left + 1, some n => some (n, left)
    | _, _ => none
  | n => pure n

/-- A tag of one's own. -/
def isOwnTag (tag : Option Tag) : Bool := tag.any Scalar.isOwn

/-- A name as it stands: any scalar. -/
def name (d : Document) (n : Node) : Reading String := do
  match ← d.follow n with
  | .scalar _ text _ => return text
  | _ => failure

/-- Any data within a depth; the names of a mapping are data as well, or else texts as they stand. -/
def tree (d : Document) (namesAreData : Bool) (depth : Nat) (n : Node) : Reading Tree := do
  match ← d.follow n, depth with
  | .scalar p text style, _ =>
    match Scalar.tree? p.tag text (style = .plain) with
    | some t => return t
    | none => failure
  | .list p items, depth + 1 =>
    if isOwnTag p.tag then failure
    return .list (← items.mapM (d.tree namesAreData depth))
  | .mapping p fields, depth + 1 =>
    if isOwnTag p.tag then failure
    return .mapping (← fields.mapM fun (k, v) => do
      let k ← if namesAreData then d.tree namesAreData depth k else .text <$> d.name k
      let v ← d.tree namesAreData depth v
      return (k, v))
  | _, _ => failure

end Document

namespace Place

/-- The node that stands at a place. -/
def content (p : Place) : Reading Node := p.document.follow p.node

/-- A place one collection further in. -/
def inside (p : Place) (depth : Nat) (n : Node) : Place := { p with node := n, depth }

/-- A scalar as it stands. -/
def text (p : Place) : Reading String := p.document.name p.node

/-- A scalar of a kind: a plain one, or a literal one whose tag says so. -/
def typed {α : Type} (kind : String) (read : String → Option α) (p : Place) : Reading α := do
  match ← p.content with
  | .scalar q text style =>
    if style = .plain || (style = .literal && q.tag = some (Scalar.standardTag kind)) then
      match read text with
      | some a => return a
      | none => failure
    else failure
  | _ => failure

/-- Nothing is written here. -/
def isNothing : Node → Bool
  | .scalar _ text style => text = "" && style = .plain
  | _ => false

/-- The items of a list. -/
def items (p : Place) : Reading (List Place) := do
  let n ← p.content
  if isNothing n then return []
  match n, p.depth with
  | .list _ items, depth + 1 => return items.map (p.inside depth)
  | _, _ => failure

/-- The entries of a mapping. -/
def entries (p : Place) : Reading (List (String × Place)) := do
  let n ← p.content
  if isNothing n then return []
  match n, p.depth with
  | .mapping _ fields, depth + 1 =>
    fields.mapM fun (k, v) => do return (← p.document.name k, p.inside depth v)
  | _, _ => failure

/-- Any data. -/
def value (p : Place) : Reading Value := do
  let t ← p.document.tree false p.depth p.node
  match t.value? (Document.depthLimit + 1) with
  | some v => return v
  | none => failure

/-- YAML as a view of data. -/
def view : View Place where
  text := text
  word := typed "int" Scalar.word?
  float := typed "float" Scalar.float?
  flag := typed "bool" Scalar.bool?
  value := value
  tree p := p.document.tree true p.depth p.node
  items := items
  entries := entries
  positions _ := none

end Place

/-- The document of a text. -/
def Document.ofText (text : String) : Except Fault Document :=
  (orMalformed (Token.ofText? text)).bind Document.ofTokens

end Yaml

/-! ## Configurations as text -/

namespace Config

/-- The configuration that a document is. -/
def ofDocument? (d : Yaml.Document) : Option Config :=
  (Yaml.Place.view.config ⟨d, d.root, Yaml.Document.depthLimit⟩ d.referenceLimit).map (·.1)

/-- A configuration given as YAML. -/
def ofYaml (text : String) : Except ConfigError Config :=
  match Yaml.Document.ofText text with
  | .ok d => (ofDocument? d).elim (.error .malformed) .ok
  | .error .malformed => .error .malformed
  | .error .overflow => .error .overflow

/-- Another program that reads expressions, if one is given. -/
def withParser (c : Config) : Option String → Config
  | some command => { c with parser.command := command }
  | none => c

/-- Read a configuration, let the environment name the program that reads expressions, and check the
whole. -/
def parse (text : String) (command : Option String) : Except ConfigError Config := do
  let c ← if Text.isSilent text then .ok standard else ofYaml text
  let c := c.withParser command
  c.validate
  return c

end Config

end Orrery
