import Orrery.Yaml.Cursor

/-!
# The text of a scalar while it is read

A scalar is gathered in a buffer of bounded room.  The room is sixteen bytes at first.  Before a
character is added it is doubled unless more than five bytes are free, so characters always fit.  A gap
is added as it is, in one piece or, at a line end that stays, in two; a piece that is wider than what is
free does not fit, and the reading is given up (`Fault.overflow`).
-/

namespace Orrery

namespace Yaml

/-- The text of a scalar while it is read. -/
structure Buffer where
  /-- The text so far, last character first. -/
  reversed : List Char
  /-- How many bytes it has. -/
  used : Nat
  /-- How many bytes there is room for. -/
  room : Nat

namespace Buffer

/-- The buffer before the first character. -/
def empty : Buffer := ⟨[], 0, 16⟩

/-- The text gathered. -/
def text (b : Buffer) : String := String.ofList b.reversed.reverse

/-- Make room for a character. -/
def grow (b : Buffer) : Buffer := if b.used + 5 < b.room then b else { b with room := 2 * b.room }

/-- Add a character. -/
def push (b : Buffer) (c : Char) : Buffer :=
  let b := b.grow
  { b with reversed := c :: b.reversed, used := b.used + c.utf8Size }

/-- Add a piece of a gap; nothing if it does not fit. -/
def join? (b : Buffer) (piece : List Char) : Option Buffer :=
  let width := Text.octetCount piece
  if b.room - b.used < width then none
  else some { b with reversed := piece.reverse ++ b.reversed, used := b.used + width }

/-- Add a gap: one line feed is a space, and of several the first is dropped; nothing if the gap does
not fit. -/
def pushGap? (b : Buffer) : Gap → Option Buffer
  | .blanks cs => b.join? cs
  | .lines (some '\n') [] => some (b.push ' ')
  | .lines (some '\n') more => b.join? more
  | .lines (some c) more => (b.join? [c]).bind fun b => b.join? more
  | .lines none more => b.join? more

end Buffer

end Yaml

end Orrery
