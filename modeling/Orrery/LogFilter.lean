import Orrery.LogFilter.Pattern
import Orrery.Text.Letter
import Orrery.Text.Space

/-!
# Log filters

Which events are logged is said by a list of directives, separated by commas.  A directive is a level;
or a target, or a span in brackets, possibly with fields in braces, or both, followed by `=` and a level
or by nothing.  Only whether a filter is well formed matters here: the events themselves are not part of
this library.

A directive is read character by character with the position where its present part began, in bytes.
White space around it is skipped while its characters are looked at but not when a part is cut out, so
that a level with white space beside it is no level.  For the same reason a cut can fall inside a
character; then the filter is torn, and the program that reads it comes to an end.
-/

namespace Orrery

namespace LogFilter

/-- The names of levels. -/
def levelNames : List String := ["off", "error", "warn", "info", "debug", "trace"]

/-- A level: a name in any case, or a number up to five. -/
def isLevel (cs : List Char) : Bool :=
  let digits := match cs with
    | '+' :: ds => ds
    | ds => ds
  let number := !digits.isEmpty && digits.all Char.isDigit
    && digits.foldl (fun n d => 10 * n + (d.toNat - 48)) 0 ≤ 5
  number || levelNames.contains (String.ofList (cs.map Char.toLower))

/-- A level, or nothing in place of one. -/
def isLevelOrNone (cs : List Char) : Bool := cs.isEmpty || isLevel cs

/-! ## Cuts -/

/-- Why a filter is not accepted. -/
inductive Fault where
  /-- It is not well formed. -/
  | refused
  /-- A cut falls inside a character. -/
  | torn
  deriving DecidableEq

/-- What stands before and behind a number of bytes, if no character is cut. -/
def cut? : Nat → List Char → Option (List Char × List Char)
  | 0, cs => some ([], cs)
  | _, [] => none
  | n, c :: cs =>
    if c.utf8Size ≤ n then (cut? (n - c.utf8Size) cs).map fun (front, back) => (c :: front, back)
    else none

/-- The part of a text between two positions. -/
def slice (text : List Char) (first last : Nat) : Except Fault (List Char) :=
  match (cut? last text).bind fun (front, _) => cut? first front with
  | some (_, part) => .ok part
  | none => .error .torn

/-- The part of a text from a position on. -/
def tail (text : List Char) (first : Nat) : Except Fault (List Char) :=
  match cut? first text with
  | some (_, part) => .ok part
  | none => .error .torn

/-! ## Directives -/

/-- Where the reader of a directive is. -/
inductive Part where
  /-- Before the first character. -/
  | start
  /-- In a level or a target. -/
  | levelOrTarget
  /-- In a span that begins at a position. -/
  | span (first : Nat)
  /-- In a field that begins at a position. -/
  | field (first : Nat)
  /-- Behind the fields. -/
  | fields
  /-- Behind a span. -/
  | target
  /-- In a level that begins at a position. -/
  | level (first : Nat)

/-- A character that a target can start with. -/
def startsTarget (c : Char) : Bool := c = '-' || c = ':' || c = '_' || Text.isLetterOrNumber c

/-- Whether a field is well formed: a name, and what its value is compared with, if anything. -/
def isField (cs : List Char) : Bool :=
  match cs.splitOn '=' with
  | _ :: value :: _ => Pattern.isValid value
  | _ => !cs.isEmpty

/-- One character further in a directive. -/
def advance (text : List Char) (index : Nat) (c : Char) : Part → Except Fault Part
  | .start =>
    if c = '[' then .ok (.span (index + 1))
    else if startsTarget c then .ok .levelOrTarget
    else .error .refused
  | .levelOrTarget =>
    if c = '=' then (slice text 0 index).map fun _ => .level (index + 1)
    else if c = '[' then (slice text 0 index).map fun _ => .span (index + 1)
    else .ok .levelOrTarget
  | .span first =>
    if c = ']' then (slice text first index).map fun _ => .target
    else if c = '\x7b' then (slice text first index).map fun _ => .field (index + 1)
    else .ok (.span first)
  | .field first =>
    if c = '\x7d' then
      (slice text first index).bind fun field => if isField field then .ok .fields else .error .refused
    else .ok (.field first)
  | .fields => if c = ']' then .ok .target else .error .refused
  | .target => if c = '=' then .ok (.level (index + 1)) else .error .refused
  | .level first => .ok (.level first)

/-- Read the characters of a directive from a position on. -/
def read (text : List Char) (index : Nat) (part : Part) : List Char → Except Fault Part
  | [] => .ok part
  | c :: rest => (advance text index c part).bind fun part => read text (index + c.utf8Size) part rest

/-- Check a directive. -/
def checkDirective (text : List Char) : Except Fault Unit := do
  match ← read text 0 .start (Text.trimmed text) with
  | .levelOrTarget | .target => return
  | .level first => if isLevelOrNone (← tail text first) then return else throw .refused
  | _ => throw .refused

/-- Check a filter: the first directive at fault decides. -/
def check (filter : String) : Except Fault Unit :=
  ((filter.toList.splitOn ',').filter fun d => !d.isEmpty).forM checkDirective

end LogFilter

end Orrery
