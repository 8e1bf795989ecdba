import Orrery.Text.Utf8

/-!
# Places in a YAML text

YAML is sensitive to columns, so a reader of it moves a `Cursor`: what is left of the text, and the
line, column and position of its first character.  Line breaks are made uniform before anything else
(`Cursor.ofText?`), after which a break is one character: a line feed, or one of the two Unicode
separators, which a scalar keeps.

Loops over a text are written as recursions on the list of characters that is left, with the column
carried along, and give back the cursor where they stop.
-/

namespace Orrery

namespace Yaml

/-! ## Kinds of characters -/

/-- A line break, once breaks are uniform. -/
def isBreak (c : Char) : Bool := c = '\n' || c = '\u2028' || c = '\u2029'

/-- A space or a tab. -/
def isBlank (c : Char) : Bool := c = ' ' || c = '\t'

/-- A blank or a break. -/
def isGap (c : Char) : Bool := isBlank c || isBreak c

/-- A character of a name. -/
def isWord (c : Char) : Bool := c.isAlphanum || c = '_' || c = '-'

/-- A gap follows, or nothing. -/
def endsWord : List Char → Bool
  | [] => true
  | c :: _ => isGap c

/-- A character that may stand in a text at all. -/
def isAdmitted (c : Char) : Bool :=
  let n := c.toNat
  n = 0x09 || n = 0x0A || n = 0x0D || (0x20 ≤ n && n ≤ 0x7E) || n = 0x85
    || (0xA0 ≤ n && n ≤ 0xFFFD) || 0x10000 ≤ n

/-- One line feed for each of the four usual line breaks. -/
def uniform : List Char → List Char
  | '\r' :: '\n' :: rest => '\n' :: uniform rest
  | '\r' :: rest => '\n' :: uniform rest
  | '\u0085' :: rest => '\n' :: uniform rest
  | c :: rest => c :: uniform rest
  | [] => []

/-! ## Cursors -/

/-- A place in a text. -/
structure Cursor where
  /-- What is left. -/
  rest : List Char
  /-- The line, from zero. -/
  line : Nat
  /-- The column, from zero. -/
  column : Nat
  /-- The number of bytes before. -/
  index : Nat

namespace Cursor

/-- The beginning of a text, if all its characters are admitted. -/
def ofText? (text : String) : Option Cursor :=
  if text.toList.all isAdmitted then some ⟨uniform text.toList, 0, 0, 0⟩ else none

/-- The place behind one character. -/
def after (c : Cursor) (ch : Char) (rest : List Char) : Cursor :=
  if isBreak ch then ⟨rest, c.line + 1, 0, c.index + ch.utf8Size⟩
  else ⟨rest, c.line, c.column + 1, c.index + ch.utf8Size⟩

/-- Move over one character. -/
def skip (c : Cursor) : Cursor :=
  match c.rest with
  | [] => c
  | ch :: rest => c.after ch rest

/-- Move over characters of one line. -/
def drop (c : Cursor) (n : Nat) : Cursor :=
  ⟨c.rest.drop n, c.line, c.column + n, c.index + Text.octetCount (c.rest.take n)⟩

/-- The characters up to the first that fails a test, none of them a break, and the place behind. -/
def takeWhile (c : Cursor) (p : Char → Bool) : List Char × Cursor :=
  let taken := c.rest.takeWhile fun ch => p ch && !isBreak ch
  (taken, c.drop taken.length)

/-- Move over characters of one line that pass a test. -/
def skipWhile (c : Cursor) (p : Char → Bool) : Cursor := (c.takeWhile p).2

/-- Move over blanks. -/
def skipBlanks (c : Cursor) : Cursor := c.skipWhile isBlank

/-- Move over a comment, if one starts here. -/
def skipComment (c : Cursor) : Cursor :=
  match c.rest with
  | '#' :: _ => c.skipWhile fun _ => true
  | _ => c

/-- Blanks, a comment, and then the end of the line, which is moved over. -/
def skipLineEnd? (c : Cursor) : Option Cursor :=
  let c := c.skipBlanks.skipComment
  match c.rest with
  | [] => some c
  | ch :: _ => if isBreak ch then some c.skip else none

/-- A line that starts with three given characters and a gap separates documents. -/
def atMarker (c : Cursor) (mark : Char) : Bool :=
  c.column = 0 && match c.rest with
    | x :: y :: z :: rest => x = mark && y = mark && z = mark && endsWord rest
    | _ => false

/-- A line that separates documents starts here. -/
def atSeparator (c : Cursor) : Bool := c.atMarker '-' || c.atMarker '.'

end Cursor

/-! ## Gaps in a scalar -/

/-- The blanks and breaks between two words of a scalar. -/
inductive Gap where
  /-- Blanks of one line. -/
  | blanks (cs : List Char)
  /-- A break that counts, or one that was escaped, and the breaks after it. -/
  | lines (first : Option Char) (more : List Char)

namespace Gap

/-- No gap. -/
def none : Gap := .blanks []

/-- Whether there is a gap. -/
def isSome : Gap → Bool
  | .blanks cs => !cs.isEmpty
  | .lines .. => true

/-- Whether the gap goes over a line end. -/
def isLines : Gap → Bool
  | .blanks _ => false
  | .lines .. => true

/-- One more blank or break; blanks at either side of a line end are dropped. -/
def push (g : Gap) (c : Char) : Gap :=
  match g, isBreak c with
  | .blanks cs, false => .blanks (cs ++ [c])
  | .blanks _, true => .lines (some c) []
  | .lines first more, false => .lines first more
  | .lines first more, true => .lines first (more ++ [c])

end Gap

end Yaml

end Orrery
