import Orrery.Filter.Regular
import Orrery.Filter.Utility

/-!
# Editing lines

`sed` carries out a list of instructions for every line.  The line lies in a workspace, which is printed
at the end unless an option says otherwise; a second space keeps text from line to line.  Before an
instruction an address can say for which lines it counts.
-/

namespace Orrery

namespace Edit

/-- Which line is meant. -/
inductive Address where
  /-- The line with a number. -/
  | number (n : Nat)
  /-- The last line. -/
  | last
  /-- A line in which an expression is found. -/
  | found (r : Regular) (caseless : Bool)

/-- For which lines an instruction counts. -/
inductive Scope where
  /-- For all. -/
  | all
  /-- For one. -/
  | one (a : Address)
  /-- From one to another. -/
  | span (a b : Address)

/-- How a substitution is done. -/
structure Replacement where
  /-- What is replaced. -/
  pattern : Regular
  /-- Upper and lower case count as one. -/
  caseless : Bool
  /-- What takes its place, as it is written. -/
  text : List Char
  /-- Which find is the first to be replaced. -/
  firstFind : Nat
  /-- Whether all that follow are replaced too. -/
  global : Bool
  /-- Whether the line is printed if something was replaced. -/
  prints : Bool

/-- What is done. -/
inductive Action where
  /-- Replace finds. -/
  | substitute (r : Replacement)
  /-- Replace octets. -/
  | translate (source target : Octets)
  /-- Something that a letter says. -/
  | letter (c : Char)
  /-- Print a text behind, before or in place of the line. -/
  | text (c : Char) (text : Octets)
  /-- Carry out a block. -/
  | block (body : List (Scope × Bool × Action))

/-- An instruction: for which lines it counts, or does not, and what is done. -/
abbrev Instruction := Scope × Bool × Action

/-! ## Reading -/

/-- A text up to a delimiter, which a backslash protects.  Before an `n` the backslash stays. -/
def upTo (delimiter : Char) : List Char → Option (List Char × List Char)
  | [] => none
  | '\\' :: c :: rest =>
    (upTo delimiter rest).map fun (t, rest) =>
      if c = delimiter && c ≠ '\\' then (c :: t, rest) else ('\\' :: c :: t, rest)
  | c :: rest => if c = delimiter then some ([], rest) else (upTo delimiter rest).map fun (t, rest) => (c :: t, rest)

/-- An address in front, if there is one. -/
def address? (extended : Bool) (cs : List Char) : Option (Option Address × List Char) :=
  let regular (delimiter : Char) (rest : List Char) : Option (Option Address × List Char) := do
    let (t, rest) ← upTo delimiter rest
    let r ← Regular.ofText? extended t
    match rest with
    | 'I' :: rest => return (some (.found r true), rest)
    | rest => return (some (.found r false), rest)
  match cs with
  | '$' :: rest => some (some .last, rest)
  | '/' :: rest => regular '/' rest
  | '\\' :: d :: rest => regular d rest
  | cs =>
    match cs.takeWhile Char.isDigit with
    | [] => some (none, cs)
    | ds => some (some (.number (Format.number 10 ds)), cs.drop ds.length)

/-- Without blanks in front. -/
def trimmed (cs : List Char) : List Char := cs.dropWhile fun c => c = ' ' || c = '\t'

/-- Without blanks, semicolons and line ends in front. -/
def separated (cs : List Char) : List Char :=
  cs.dropWhile fun c => c = ' ' || c = '\t' || c = ';' || c = '\n'

/-- The second address, behind a first one and a comma. -/
def secondAddress? (extended hasFirst : Bool) : List Char → Option (Option Address × List Char)
  | ',' :: rest =>
    if hasFirst then (address? extended (trimmed rest)).filter fun a => a.1.isSome
    else some (none, ',' :: rest)
  | cs => some (none, cs)

/-- The flags of a substitution. -/
def substitution? (r : Regular) (text : List Char) (cs : List Char) : Option (Replacement × List Char) :=
  let flags := cs.takeWhile fun c => c.isDigit || c = 'g' || c = 'p' || c = 'i' || c = 'I'
  let ds := flags.filter Char.isDigit
  let first := if ds.isEmpty then 1 else Format.number 10 ds
  some (⟨r, flags.contains 'i' || flags.contains 'I', text, first, flags.contains 'g', flags.contains 'p'⟩,
    cs.drop flags.length)

/-- An action.  Blocks are read by `block`. -/
def action? (extended : Bool) (block : List Char → Option (List Instruction × List Char)) :
    List Char → Option (Action × List Char)
  | 's' :: d :: rest => do
    let (pattern, rest) ← upTo d rest
    let (text, rest) ← upTo d rest
    let r ← Regular.ofText? extended pattern
    let (r, rest) ← substitution? r text rest
    return (.substitute r, rest)
  | 'y' :: d :: rest => do
    let (source, rest) ← upTo d rest
    let (target, rest) ← upTo d rest
    if source.length = target.length then return (.translate source target, rest) else none
  | '\x7b' :: rest => (block rest).map fun (body, rest) => (.block body, rest)
  | c :: rest =>
    if c = 'a' || c = 'i' || c = 'c' then
      let text := match trimmed rest with
        | '\\' :: '\n' :: text => text
        | '\\' :: text => text
        | text => text
      let line := text.takeWhile (· ≠ '\n')
      some (.text c line, text.drop line.length)
    else if "pdqQ=nNhHgGxPD".toList.contains c then some (.letter c, rest)
    else none
  | [] => none

/-- The instructions up to the end, or inside of a block up to its closing brace.  Every instruction
takes an octet, so `fuel` need not exceed the length by more than one. -/
def instructions? (extended inBlock : Bool) : Nat → List Char → Option (List Instruction × List Char)
  | 0, _ => none
  | fuel + 1, cs =>
    match separated cs with
    | [] => if inBlock then none else some ([], [])
    | '#' :: rest => instructions? extended inBlock fuel (rest.dropWhile (· ≠ '\n'))
    | '\x7d' :: rest => if inBlock then some ([], rest) else none
    | cs => do
      let (first, cs) ← address? extended cs
      let (second, cs) ← secondAddress? extended first.isSome (trimmed cs)
      let scope := match first, second with
        | none, _ => Scope.all
        | some a, none => .one a
        | some a, some b => .span a b
      let (negated, cs) := match trimmed cs with
        | '!' :: rest => (true, trimmed rest)
        | cs => (false, cs)
      let (action, cs) ← action? extended (instructions? extended true fuel) cs
      let (more, cs) ← instructions? extended inBlock fuel cs
      return ((scope, negated, action) :: more, cs)

/-! ## Carrying out -/

/-- The state between instructions. -/
structure State where
  /-- The workspace. -/
  work : Octets
  /-- The second space. -/
  hold : Octets
  /-- The number of the line. -/
  number : Nat
  /-- Whether the line has an end. -/
  isClosed : Bool
  /-- The lines that are left. -/
  left : List Octets
  /-- What was printed. -/
  output : Octets
  /-- What is printed behind the line. -/
  behind : Octets
  /-- The instructions that are in the middle of a span. -/
  spans : List Nat
  /-- Nothing more is done for this line. -/
  done : Bool
  /-- The line is not printed at the end. -/
  silent : Bool
  /-- No line follows. -/
  quit : Bool

/-- Whether an address means this line. -/
def Address.isMet (s : State) : Address → Bool
  | .number n => s.number = n
  | .last => s.left.isEmpty
  | .found r caseless => (Regular.first? caseless r none s.work).isSome

/-- Whether an instruction counts for this line, and the state in which its span is kept. -/
def Scope.isMet (s : State) (place : Nat) : Scope → Bool × State
  | .all => (true, s)
  | .one a => (a.isMet s, s)
  | .span a b =>
    let others := s.spans.filter (· ≠ place)
    if s.spans.contains place then
      match b with
      | .number n => (true, if n ≤ s.number then { s with spans := others } else s)
      | b => (true, if b.isMet s then { s with spans := others } else s)
    else if a.isMet s then
      match b with
      | .number n => (true, if n ≤ s.number then s else { s with spans := place :: others })
      | _ => (true, { s with spans := place :: others })
    else (false, s)

/-- What takes the place of a find. -/
def replacement (found : Octets) (p : Regular.Place) : List Char → Octets
  | '\\' :: c :: rest =>
    let piece : Octets :=
      if c.isDigit then if c = '0' then found else p.group (c.toNat - 48)
      else if c = 'n' then ['\n'] else if c = 't' then ['\t'] else [c]
    piece ++ replacement found p rest
  | '&' :: rest => found ++ replacement found p rest
  | c :: rest => c :: replacement found p rest
  | [] => []

/-- Replace finds from the `count`th on; the answer says whether anything was replaced.  Every find takes
an octet or moves one further, so `fuel` need not exceed the length by more than one. -/
def substitute (r : Replacement) : Nat → Nat → Option Char → Octets → Octets × Bool
  | 0, _, _, line => (line, false)
  | fuel + 1, count, before, line =>
    match Regular.first? r.caseless r.pattern before line with
    | none => (line, false)
    | some (skipped, found, p) =>
      let isWanted := count = r.firstFind || (r.global && r.firstFind ≤ count)
      let piece := if isWanted then replacement found p r.text else found
      if isWanted && !r.global then (skipped ++ piece ++ p.rest, true)
      else
        match found, p.rest with
        | [], c :: rest =>
          let (more, changed) := substitute r fuel (count + 1) (some c) rest
          (skipped ++ piece ++ c :: more, isWanted || changed)
        | [], [] => (skipped ++ piece, isWanted)
        | _, rest =>
          let (more, changed) := match rest with
            | [] => ([], false)
            | rest => substitute r fuel (count + 1) p.before rest
          (skipped ++ piece ++ more, isWanted || changed)

/-- Print a text and an end of line. -/
def State.print (s : State) (text : Octets) : State := { s with output := s.output ++ text ++ ['\n'] }

/-- Take the next line into the workspace. -/
def State.next? (s : State) (join : Bool) : Option State :=
  match s.left with
  | [] => none
  | l :: left =>
    let text := Utility.bare l
    some { s with
      work := if join then s.work ++ '\n' :: text else text
      number := s.number + 1
      isClosed := l.getLast? = some '\n'
      left }

/-- Carry out a letter. -/
def State.perform (s : State) (quiet : Bool) : Char → State
  | 'p' => s.print s.work
  | 'P' => s.print (s.work.takeWhile (· ≠ '\n'))
  | 'd' => { s with done := true, silent := true }
  | 'D' => { s with done := true, silent := true }
  | 'q' => { s with done := true, quit := true }
  | 'Q' => { s with done := true, quit := true, silent := true }
  | '=' => s.print (Nat.toDigits 10 s.number)
  | 'h' => { s with hold := s.work }
  | 'H' => { s with hold := s.hold ++ '\n' :: s.work }
  | 'g' => { s with work := s.hold }
  | 'G' => { s with work := s.work ++ '\n' :: s.hold }
  | 'x' => { s with work := s.hold, hold := s.work }
  | 'n' =>
    match (if quiet then s else s.print s.work).next? false with
    | some s => s
    | none => { s with done := true, quit := true }
  | 'N' =>
    match s.next? true with
    | some s => s
    | none => { s with done := true, quit := true }
  | _ => s

/-- Carry out instructions, of which the first has the given place among all. -/
def carryOut (quiet : Bool) : Nat → Nat → List Instruction → State → State
  | 0, _, _, s => s
  | _, _, [], s => s
  | fuel + 1, place, (scope, negated, action) :: rest, s =>
    if s.done then s
    else
      let (isMet, s) := scope.isMet s place
      let s := if isMet = negated then s
        else match action with
          | .substitute r =>
            let (work, changed) := substitute r (s.work.length + 2) 1 none s.work
            let s := { s with work }
            if changed && r.prints then s.print work else s
          | .translate source target =>
            { s with work := s.work.map fun c =>
                match source.idxOf? c with
                | some i => target.getD i c
                | none => c }
          | .letter c => s.perform quiet c
          | .text 'i' text => s.print text
          | .text 'a' text => { s with behind := s.behind ++ text ++ ['\n'] }
          | .text _ text => { s.print text with done := true, silent := true }
          | .block body => carryOut quiet fuel (place + 1000) body s
      carryOut quiet fuel (place + 1) rest s

/-- Edit the lines that are left. -/
def cycles (quiet : Bool) (program : List Instruction) : Nat → State → Octets
  | 0, s => s.output
  | fuel + 1, s =>
    if s.quit then s.output
    else
      match s.next? false with
      | none => s.output
      | some s =>
        let s := carryOut quiet 100000 0 program { s with done := false, silent := false, behind := [] }
        let shown := if quiet || s.silent then [] else s.work ++ (if s.isClosed then ['\n'] else [])
        cycles quiet program fuel { s with output := s.output ++ shown ++ s.behind }

end Edit

namespace Utility

/-- Edit the input line by line. -/
def sed : Program := fun s =>
  s.parsed "nErsu" "e" 1 fun os operands =>
    let given := os.filterMap fun o => if o.1 = 'e' then some o.2 else none
    let (script, files) := match given, operands with
      | [], script :: files => (some script, files)
      | [], [] => (none, [])
      | given, files => (some (['\n'].intercalate given), files)
    match script with
    | none => s.misuse 1 "no script specified"
    | some script =>
      let extended := isGiven os 'E' || isGiven os 'r'
      match Edit.instructions? extended false (script.length + 2) script with
      | none => s.fail 1 ("-e expression #1, char " ++ toString script.length ++ ": unterminated command")
      | some (program, _) =>
        let unread (f : Octets) : String := "can't read " ++ missing f
        let r := s.over files unread fun t =>
          let ls := lines t
          Edit.cycles (isGiven os 'n') program (ls.length + 1)
            ⟨[], [], 0, true, ls, [], [], [], false, false, false⟩
        { r with status := if r.complaint.isEmpty then 0 else 2 }

end Utility

end Orrery
