import Orrery.Yaml.Buffer
import Orrery.Yaml.Token

/-!
# Block scalars

A block scalar is a header and the lines that are indented at least as far as its first line with
text, or as far as the header says.  A literal scalar keeps its line ends; a folded one joins
neighbouring lines, unless one of them starts with a blank.  The header also says what becomes of the
line ends after the last line: by default one of them stays.
-/

namespace Orrery

namespace Yaml

namespace Block

/-- What becomes of the line ends after the last line. -/
inductive Ending where
  /-- None stays. -/
  | strip
  /-- One stays. -/
  | clip
  /-- All stay. -/
  | keep
  deriving DecidableEq

/-- What a header says. -/
structure Header where
  /-- What becomes of the line ends after the last line. -/
  ending : Ending
  /-- Indentation over what encloses the scalar, if given. -/
  increment : Option Nat

/-- The sign for an ending. -/
def ending? : List Char → Option (Ending × List Char)
  | '+' :: rest => some (.keep, rest)
  | '-' :: rest => some (.strip, rest)
  | _ => none

/-- A digit from one to nine, if any digit stands there. -/
def increment? : List Char → Option (Option Nat × List Char)
  | c :: rest =>
    if c.isDigit then if c = '0' then none else some (some (c.toNat - 48), rest)
    else some (none, c :: rest)
  | [] => some (none, [])

/-- The sign and the digit, in either order. -/
def header? (cs : List Char) : Option (Header × List Char) :=
  match ending? cs with
  | some (e, cs) => (increment? cs).map fun (n, cs) => (⟨e, n⟩, cs)
  | none =>
    match increment? cs with
    | none => none
    | some (some n, cs) =>
      match ending? cs with
      | some (e, cs) => some (⟨e, some n⟩, cs)
      | none => some (⟨.clip, some n⟩, cs)
    | some (none, cs) => some (⟨.clip, none⟩, cs)

/-- Empty lines: move to the indentation, if it is known, or else to the first character that is no
space, and gather the line ends; `widest` is the largest column reached. -/
def emptyLines (indent : Option Nat) (c : Cursor) (breaks : List Char) (widest : Nat) :
    List Char → Option (List Char × Nat × Cursor)
  | [] => some (breaks, max widest c.column, { c with rest := [] })
  | ch :: rest =>
    let here : Cursor := { c with rest := ch :: rest }
    let inside := match indent with
      | none => true
      | some n => decide (here.column < n)
    if inside && ch = ' ' then emptyLines indent (here.after ch rest) breaks widest rest
    else if inside && ch = '\t' then none
    else if isBreak ch then
      emptyLines indent (here.after ch rest) (breaks ++ [ch]) (max widest here.column) rest
    else some (breaks, max widest here.column, here)

/-- The indentation that is found: never less than what encloses the scalar demands. -/
def foundIndent (enclosing : Int) (widest : Nat) : Nat :=
  max (max widest (enclosing + 1).toNat) 1

/-- Add what stands between two lines, the line end of the first and the empty lines after it; nothing
if it does not fit. -/
def join? (out : Buffer) (folded leadingBlank trailingBlank : Bool) (lineEnd breaks : List Char) :
    Option Buffer :=
  if folded && lineEnd.head? = some '\n' && !leadingBlank && !trailingBlank then
    if breaks.isEmpty then some (out.push ' ') else out.join? breaks
  else (out.join? lineEnd).bind fun out => out.join? breaks

/-- Add what stays of the line ends after the last line. -/
def finish? (out : Buffer) (lineEnd breaks : List Char) : Ending → Option Buffer
  | .strip => some out
  | .clip => out.join? lineEnd
  | .keep => (out.join? lineEnd).bind fun out => out.join? breaks

/-- Lines from the given indentation on: `out` is the text up to the last line, `lineEnd` its end,
`breaks` the empty lines after that.  Every line takes a character, so `fuel` need not exceed the
length of the text. -/
def lines (folded : Bool) (ending : Ending) (indent : Nat) (fuel : Nat) (c : Cursor) (out : Buffer)
    (lineEnd breaks : List Char) (leadingBlank : Bool) : Except Fault (Buffer × Cursor) :=
  let finished : Except Fault (Buffer × Cursor) :=
    match finish? out lineEnd breaks ending with
    | some out => .ok (out, c)
    | none => .error .overflow
  match fuel, c.rest with
  | _, [] => finished
  | 0, _ => finished
  | fuel + 1, ch :: _ =>
    if c.column = indent then
      let blank := isBlank ch
      match join? out folded leadingBlank blank lineEnd breaks with
      | none => .error .overflow
      | some out =>
        let (line, c) := c.takeWhile fun _ => true
        let (lineEnd, c) := match c.rest with
          | [] => ([], c)
          | b :: _ => ([b], c.skip)
        match emptyLines (some indent) c [] 0 c.rest with
        | none => .error .malformed
        | some (breaks, _, c) =>
          lines folded ending indent fuel c (line.foldl Buffer.push out) lineEnd breaks blank
    else finished

/-- A block scalar, from its indicator on; `enclosing` is the indentation of what encloses it. -/
def scan (c : Cursor) (folded : Bool) (enclosing : Int) : Except Fault (String × Cursor) := do
  let c := c.skip
  let (header, behind) ← orMalformed (header? c.rest)
  let c ← orMalformed (c.drop (c.rest.length - behind.length)).skipLineEnd?
  let given := header.increment.map fun n => if 0 ≤ enclosing then enclosing.toNat + n else n
  let (breaks, widest, c) ← orMalformed (emptyLines given c [] 0 c.rest)
  let indent := given.getD (foundIndent enclosing widest)
  let (b, c) ← lines folded header.ending indent (c.rest.length + 1) c .empty [] breaks false
  return (b.text, c)

end Block

end Yaml

end Orrery
