import Orrery.Text.Utf8

/-!
# YAML tokens

A YAML text is read in two steps.  The first finds the tokens and turns indentation into brackets, so
that block and flow notation look alike; the second (`Document.ofTokens`) is a grammar over tokens.  This
file holds the tokens; the modules below it read each kind of them.

A scalar is gathered in a buffer, and a gap in it can be too wide for that (`Orrery.Yaml.Buffer`).  Then
the first step ends with the token `overflow`, and the whole text is given up where the grammar arrives
at that token.
-/

namespace Orrery

namespace Yaml

/-- Why a text gives no document. -/
inductive Fault where
  /-- It is not well formed. -/
  | malformed
  /-- A gap of a scalar does not fit into the buffer. -/
  | overflow
  deriving DecidableEq, Repr

/-- A value, or the fault of a text that is not well formed. -/
def orMalformed {α : Type} : Option α → Except Fault α
  | some a => .ok a
  | none => .error .malformed

/-- How a scalar is written. -/
inductive Style where
  /-- Without quotes. -/
  | plain
  /-- Between quotes, single or double. -/
  | quoted
  /-- Indented, line by line. -/
  | literal
  /-- Indented, lines joined. -/
  | folded
  deriving DecidableEq, Repr

/-- The type of a node; the escapes in it can spell any octets. -/
abbrev Tag := Octets

/-- What a text consists of. -/
inductive Token where
  /-- The version of YAML. -/
  | version (major minor : Nat)
  /-- A shorthand for tags. -/
  | shorthand (handle : String) (start : Tag)
  /-- A document starts. -/
  | documentStart
  /-- A document ends. -/
  | documentEnd
  /-- An indented list starts. -/
  | blockList
  /-- An indented mapping starts. -/
  | blockMapping
  /-- An indented list or mapping ends. -/
  | blockEnd
  /-- A bracketed list starts. -/
  | flowList
  /-- A bracketed list ends. -/
  | flowListEnd
  /-- A braced mapping starts. -/
  | flowMapping
  /-- A braced mapping ends. -/
  | flowMappingEnd
  /-- An item of an indented list follows. -/
  | blockEntry
  /-- Another item follows. -/
  | flowEntry
  /-- A key follows. -/
  | key
  /-- A value follows. -/
  | value
  /-- A reference to a node. -/
  | alias (name : String)
  /-- The node that follows can be referred to. -/
  | anchor (name : String)
  /-- The type of the node that follows. -/
  | tag (handle : String) (suffix : Tag)
  /-- A scalar. -/
  | scalar (text : String) (style : Style)
  /-- A scalar that could not be gathered. -/
  | overflow
  deriving DecidableEq, Repr

end Yaml

end Orrery
