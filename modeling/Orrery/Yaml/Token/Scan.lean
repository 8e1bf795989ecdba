import Orrery.Yaml.Token.Block
import Orrery.Yaml.Token.Plain
import Orrery.Yaml.Token.Property
import Orrery.Yaml.Token.Quoted

/-!
# From text to tokens

The scanner turns indentation into tokens and finds keys that nothing announces.

*Indentation.*  In block notation the columns of the enclosing collections form a stack.  A list entry
or a key further to the right opens a collection, and a token further to the left closes all that are
deeper than its column.  Inside brackets columns mean nothing.

*Keys.*  That a scalar is a key is known only when a colon follows.  So the place of anything that could
be a key is remembered, one place for every level of brackets, and the colon inserts the `key` token
there, and the token that opens a mapping before it if the column asks for one.  A place is forgotten
once the line is left or 1024 bytes have passed.  Where a mapping must go on with a key, in the
column of the mapping itself, forgetting it is an error.
-/

namespace Orrery

namespace Yaml

/-- A place where a key may start. -/
structure KeyPlace where
  /-- The mapping cannot go on without a key here. -/
  required : Bool
  /-- How many tokens stand before it. -/
  token : Nat
  /-- Its line. -/
  line : Nat
  /-- Its column. -/
  column : Nat
  /-- Its position in the text. -/
  index : Nat

/-- The state of a scan. -/
structure Scanner where
  /-- The place reached. -/
  cursor : Cursor
  /-- The tokens found. -/
  tokens : Array Token
  /-- The column of the innermost block collection; −1 outside of all. -/
  indent : Int
  /-- The columns of those around it. -/
  indents : List Int
  /-- Whether a key may start here. -/
  keyAllowed : Bool
  /-- The place where a key may start, at this level of brackets. -/
  key : Option KeyPlace
  /-- The places at the levels around it; as many as there are brackets open. -/
  outer : List (Option KeyPlace)

namespace Scanner

/-- The scan of a text before its first token. -/
def start (c : Cursor) : Scanner := ⟨c, #[], -1, [], true, none, []⟩

/-- Inside brackets. -/
def inFlow (s : Scanner) : Bool := !s.outer.isEmpty

/-- Add a token. -/
def push (s : Scanner) (t : Token) : Scanner := { s with tokens := s.tokens.push t }

/-- Add a token and move to the place behind it. -/
def take (s : Scanner) (t : Token) (c : Cursor) : Scanner := { s.push t with cursor := c }

/-! ## Gaps between tokens -/

/-- Move over blanks, comments and line ends.  A tab counts as a blank only where no indentation is
expected; a byte order mark may start a line. -/
def skipGap (s : Scanner) (c : Cursor) : List Char → Scanner
  | [] => { s with cursor := { c with rest := [] } }
  | ch :: rest =>
    let here : Cursor := { c with rest := ch :: rest }
    let next := here.after ch rest
    if ch = ' ' || (ch = '\t' && (s.inFlow || !s.keyAllowed)) then skipGap s next rest
    else if ch = '\ufeff' && here.column = 0 then skipGap s next rest
    else if ch = '#' then inComment s next rest
    else if isBreak ch then skipGap { s with keyAllowed := s.keyAllowed || !s.inFlow } next rest
    else { s with cursor := here }
where
  /-- Move over the rest of a comment. -/
  inComment (s : Scanner) (c : Cursor) : List Char → Scanner
    | [] => { s with cursor := { c with rest := [] } }
    | ch :: rest =>
      let next := { c with rest := ch :: rest : Cursor }.after ch rest
      if isBreak ch then skipGap { s with keyAllowed := s.keyAllowed || !s.inFlow } next rest
      else inComment s next rest

/-! ## Places of keys -/

/-- A place that has been left behind. -/
def isStale (c : Cursor) (k : KeyPlace) : Bool := k.line < c.line || k.index + 1024 < c.index

/-- Forget a place that has been left behind. -/
def refresh? (c : Cursor) : Option KeyPlace → Option (Option KeyPlace)
  | none => some none
  | some k =>
    if isStale c k then if k.required then none else some none
    else some (some k)

/-- Forget all places that have been left behind. -/
def refreshKeys? (s : Scanner) : Option Scanner := do
  let key ← refresh? s.cursor s.key
  let outer ← s.outer.mapM (refresh? s.cursor)
  return { s with key, outer }

/-- Forget the place of this level. -/
def dropKey? (s : Scanner) : Option Scanner :=
  match s.key with
  | some k => if k.required then none else some { s with key := none }
  | none => some s

/-- Remember that a key may start here. -/
def saveKey? (s : Scanner) : Option Scanner :=
  if s.keyAllowed then
    let c := s.cursor
    let required := !s.inFlow && s.indent = (c.column : Int)
    s.dropKey?.map fun s => { s with key := some ⟨required, s.tokens.size, c.line, c.column, c.index⟩ }
  else some s

/-! ## Indentation -/

/-- Open a block collection at a column, its token before the one with the given number. -/
def openAt (s : Scanner) (column : Nat) (number : Nat) (t : Token) : Scanner :=
  if !s.inFlow && s.indent < (column : Int) then
    { s with
      indents := s.indent :: s.indents
      indent := column
      tokens := s.tokens.insertIdxIfInBounds number t }
  else s

/-- Open a block collection here. -/
def openHere (s : Scanner) (t : Token) : Scanner := s.openAt s.cursor.column s.tokens.size t

/-- Close block collections that are deeper than a column. -/
def closeTo (s : Scanner) (column : Int) : Scanner :=
  if s.inFlow then s else go s s.indents
where
  /-- Close while deeper, along the stack. -/
  go (s : Scanner) : List Int → Scanner
    | [] => s
    | outer :: rest =>
      if column < s.indent then go { s.push .blockEnd with indent := outer, indents := rest } rest
      else s

/-! ## One token -/

/-- A token that starts a line of its own, outside of all collections. -/
def takeAtMargin? (s : Scanner) (t : Token) (c : Cursor) : Option Scanner :=
  (s.closeTo (-1)).dropKey?.map fun s => { s with keyAllowed := false }.take t c

/-- A token that a key can start with. -/
def takeNode? (s : Scanner) (t : Token) (c : Cursor) : Option Scanner :=
  s.saveKey?.map fun s => { s with keyAllowed := false }.take t c

/-- An opening bracket. -/
def openFlow? (s : Scanner) (t : Token) : Option Scanner :=
  s.saveKey?.map fun s =>
    { s with outer := s.key :: s.outer, key := none, keyAllowed := true }.take t s.cursor.skip

/-- A closing bracket. -/
def closeFlow? (s : Scanner) (t : Token) : Option Scanner :=
  s.dropKey?.map fun s =>
    let s := match s.outer with
      | k :: outer => { s with key := k, outer }
      | [] => s
    { s with keyAllowed := false }.take t s.cursor.skip

/-- A comma between brackets. -/
def flowEntry? (s : Scanner) : Option Scanner :=
  s.dropKey?.map fun s => { s with keyAllowed := true }.take .flowEntry s.cursor.skip

/-- In block notation a collection can start or go on here only where a key could. -/
def openBlock? (s : Scanner) (t : Token) : Option Scanner :=
  if s.inFlow then some s else if s.keyAllowed then some (s.openHere t) else none

/-- A dash that announces an item. -/
def blockEntry? (s : Scanner) : Option Scanner := do
  let s ← s.openBlock? .blockList
  let s ← s.dropKey?
  return { s with keyAllowed := true }.take .blockEntry s.cursor.skip

/-- A question mark that announces a key. -/
def explicitKey? (s : Scanner) : Option Scanner := do
  let s ← s.openBlock? .blockMapping
  let s ← s.dropKey?
  return { s with keyAllowed := !s.inFlow }.take .key s.cursor.skip

/-- A colon that announces a value; what stands before it may turn out to be a key. -/
def valueMark? (s : Scanner) : Option Scanner :=
  match s.key with
  | some k =>
    let s := { s with tokens := s.tokens.insertIdxIfInBounds k.token .key, key := none }
    let s := s.openAt k.column k.token .blockMapping
    some ({ s with keyAllowed := false }.take .value s.cursor.skip)
  | none =>
    (s.openBlock? .blockMapping).map fun s =>
      { s with keyAllowed := !s.inFlow }.take .value s.cursor.skip

/-- A block scalar. -/
def blockScalar (s : Scanner) (folded : Bool) : Except Fault Scanner := do
  let s ← orMalformed s.dropKey?
  let (text, c) ← Block.scan s.cursor folded s.indent
  return { s with keyAllowed := true }.take (.scalar text (if folded then .folded else .literal)) c

/-- A quoted scalar. -/
def quotedScalar (s : Scanner) (double : Bool) : Except Fault Scanner := do
  let s ← orMalformed s.saveKey?
  let (text, c) ← Quoted.scan s.cursor double
  return { s with keyAllowed := false }.take (.scalar text .quoted) c

/-- A plain scalar; behind a line end a key may start again. -/
def plainScalar (s : Scanner) : Except Fault Scanner := do
  let s ← orMalformed s.saveKey?
  let (text, broken, c) ← Plain.scan s.cursor s.inFlow s.indent
  return { s with keyAllowed := broken }.take (.scalar text .plain) c

/-- The token that starts here, if it is no scalar. -/
def mark? (s : Scanner) : Option (Option Scanner) :=
  let c := s.cursor
  match c.rest with
  | [] => none
  | ch :: rest =>
    if c.column = 0 && ch = '%' then
      some ((Property.directive? c).bind fun (t, c) => s.takeAtMargin? t c)
    else if c.atMarker '-' then some (s.takeAtMargin? .documentStart (c.drop 3))
    else if c.atMarker '.' then some (s.takeAtMargin? .documentEnd (c.drop 3))
    else if ch = '[' then some (s.openFlow? .flowList)
    else if ch = '\x7b' then some (s.openFlow? .flowMapping)
    else if ch = ']' then some (s.closeFlow? .flowListEnd)
    else if ch = '\x7d' then some (s.closeFlow? .flowMappingEnd)
    else if ch = ',' then some s.flowEntry?
    else if ch = '-' && endsWord rest then some s.blockEntry?
    else if ch = '?' && (s.inFlow || endsWord rest) then some s.explicitKey?
    else if ch = ':' && (s.inFlow || endsWord rest) then some s.valueMark?
    else if ch = '*' then some ((Property.name? c).bind fun (n, c) => s.takeNode? (.alias n) c)
    else if ch = '&' then some ((Property.name? c).bind fun (n, c) => s.takeNode? (.anchor n) c)
    else if ch = '!' then some ((Property.tag? c s.inFlow).bind fun (t, c) => s.takeNode? t c)
    else none

/-- The scalar that starts here. -/
def scalar (s : Scanner) : Except Fault Scanner :=
  match s.cursor.rest with
  | [] => .error .malformed
  | ch :: _ =>
    if ch = '|' && !s.inFlow then s.blockScalar false
    else if ch = '>' && !s.inFlow then s.blockScalar true
    else if ch = '\'' then s.quotedScalar false
    else if ch = '"' then s.quotedScalar true
    else if Plain.starts s.inFlow s.cursor.rest then s.plainScalar
    else .error .malformed

/-- The token that starts here. -/
def token (s : Scanner) : Except Fault Scanner :=
  match s.mark? with
  | some s => orMalformed s
  | none => s.scalar

/-- All tokens that are left.  Every token takes a character of the text, so `fuel` need not exceed its
length by more than one. -/
def run (s : Scanner) : Nat → Option (List Token)
  | 0 => none
  | fuel + 1 => do
    let s ← (s.skipGap s.cursor s.cursor.rest).refreshKeys?
    let s := s.closeTo s.cursor.column
    if s.cursor.rest.isEmpty then
      let s ← (s.closeTo (-1)).dropKey?
      return s.tokens.toList
    else
      match s.token with
      | .ok s => s.run fuel
      | .error .malformed => none
      | .error .overflow => some (s.tokens.push .overflow).toList

end Scanner

/-- The tokens of a text. -/
def Token.ofText? (text : String) : Option (List Token) := do
  let c ← Cursor.ofText? text
  (Scanner.start c).run (c.rest.length + 1)

end Yaml

end Orrery
