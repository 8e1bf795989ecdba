import Orrery.Text.Shown

/-!
# Names in messages

A list of names is shown in brackets, each name between quotes.  Quotes, backslashes and the usual
controls are escaped by a letter, and a character that would not be seen as itself by its code.
-/

namespace Orrery

namespace Text

/-- A character between quotes. -/
def shownChar (c : Char) : List Char :=
  match c with
  | '"' => ['\\', '"']
  | '\\' => ['\\', '\\']
  | '\n' => ['\\', 'n']
  | '\r' => ['\\', 'r']
  | '\t' => ['\\', 't']
  | '\x00' => ['\\', '0']
  | c => if isShown c then [c] else ['\\', 'u', '\x7b'] ++ Nat.toDigits 16 c.toNat ++ ['\x7d']

/-- A name between quotes. -/
def shownName (name : String) : String :=
  String.ofList ('"' :: name.toList.flatMap shownChar ++ ['"'])

/-- Names between brackets. -/
def shownNames (names : List String) : String :=
  "[" ++ ", ".intercalate (names.map shownName) ++ "]"

end Text

end Orrery
