import Orrery.Filter.Glob

/-!
# Regular expressions

The expressions of `grep` and `sed`, in their basic and their extended form.  The two differ in which
signs need a backslash to mean something.  `Regular.ofText?` reads either, and `Regular.first?` finds the
first place in a line where an expression fits.

An expression is matched by trying: repetition takes as much as it can and gives back what the rest
needs.  What was matched by a group is kept, since the expression itself or a replacement may use it.
-/

namespace Orrery

/-- A regular expression over octets. -/
inductive Regular where
  /-- Nothing. -/
  | nothing
  /-- Any octet. -/
  | any
  /-- An octet. -/
  | octet (c : Char)
  /-- An octet of a set, or one that is not in it. -/
  | set (negated : Bool) (members : List Glob.Member)
  /-- An octet of a word, or one that is not. -/
  | wordChar (negated : Bool)
  /-- The beginning of the line. -/
  | start
  /-- The end of the line. -/
  | finish
  /-- The edge of a word; of its beginning, its end, or either. -/
  | edge (beginning ending : Bool)
  /-- One behind the other. -/
  | follow (first second : Regular)
  /-- One or the other. -/
  | either (first second : Regular)
  /-- Several times. -/
  | many (least : Nat) (most : Option Nat) (body : Regular)
  /-- A group, with its number. -/
  | group (number : Nat) (body : Regular)
  /-- What a group matched. -/
  | again (number : Nat)

namespace Regular

/-! ## Reading -/

/-- The signs of an expression, once it is clear which of them mean something. -/
inductive Sign where
  /-- An octet that stands for itself. -/
  | plain (c : Char)
  /-- A whole expression. -/
  | atom (r : Regular)
  /-- A group opens. -/
  | opening
  /-- A group closes. -/
  | closing
  /-- An alternative follows. -/
  | bar
  /-- What stands before is repeated. -/
  | repeated (least : Nat) (most : Option Nat)
  /-- A caret. -/
  | caret
  /-- A dollar. -/
  | dollar

/-- Digits as a number, if there are any. -/
def digits? (ds : List Char) : Option Nat :=
  if ds.isEmpty then none else some (ds.foldl (fun n d => 10 * n + (d.toNat - 48)) 0)

/-- A count, from behind its opening brace. -/
def count? (extended : Bool) (cs : List Char) : Option (Nat × Option Nat × List Char) :=
  let least := cs.takeWhile Char.isDigit
  let cs := cs.drop least.length
  let (most, cs) := match cs with
    | ',' :: cs => (digits? (cs.takeWhile Char.isDigit), cs.dropWhile Char.isDigit)
    | cs => (digits? least, cs)
  let low := (digits? least).getD 0
  match extended, cs with
  | true, '\x7d' :: rest => some (low, most, rest)
  | false, '\\' :: '\x7d' :: rest => some (low, most, rest)
  | _, _ => none

/-- What a backslash and an octet mean. -/
def escaped? (extended : Bool) (c : Char) (rest : List Char) : Option (Sign × List Char) :=
  match c with
  | 'n' => some (.plain '\n', rest)
  | 't' => some (.plain '\t', rest)
  | 'w' => some (.atom (.wordChar false), rest)
  | 'W' => some (.atom (.wordChar true), rest)
  | 's' => some (.atom (.set false [.named "space"]), rest)
  | 'S' => some (.atom (.set true [.named "space"]), rest)
  | 'b' => some (.atom (.edge true true), rest)
  | '<' => some (.atom (.edge true false), rest)
  | '>' => some (.atom (.edge false true), rest)
  | '(' => some (if extended then .plain '(' else .opening, rest)
  | ')' => some (if extended then .plain ')' else .closing, rest)
  | '|' => some (if extended then .plain '|' else .bar, rest)
  | '+' => some (if extended then .plain '+' else .repeated 1 none, rest)
  | '?' => some (if extended then .plain '?' else .repeated 0 (some 1), rest)
  | '\x7b' =>
    if extended then some (.plain '\x7b', rest)
    else (count? false rest).map fun (low, high, rest) => (.repeated low high, rest)
  | c =>
    if c.isDigit && c ≠ '0' then some (.atom (.again (c.toNat - 48)), rest) else some (.plain c, rest)

/-- The signs of a text.  Every sign takes an octet, so `fuel` need not exceed the length. -/
def signs? (extended : Bool) : Nat → List Char → Option (List Sign)
  | _, [] => some []
  | 0, _ => none
  | fuel + 1, c :: rest =>
    let put (s : Sign) (rest : List Char) : Option (List Sign) := (signs? extended fuel rest).map (s :: ·)
    match c with
    | '\\' =>
      match rest with
      | e :: rest => (escaped? extended e rest).bind fun (s, rest) => put s rest
      | [] => none
    | '.' => put (.atom .any) rest
    | '[' =>
      let (negated, inner) := match rest with
        | '^' :: inner => (true, inner)
        | inner => (false, inner)
      match Glob.members? true (inner.length + 1) (inner.map fun c => (c, false)) with
      | some (ms, rest) => put (.atom (.set negated ms)) (rest.map (·.1))
      | none => none
    | '*' => put (.repeated 0 none) rest
    | '^' => put .caret rest
    | '$' => put .dollar rest
    | c =>
      if !extended then put (.plain c) rest
      else match c with
        | '(' => put .opening rest
        | ')' => put .closing rest
        | '|' => put .bar rest
        | '+' => put (.repeated 1 none) rest
        | '?' => put (.repeated 0 (some 1)) rest
        | '\x7b' =>
          match count? true rest with
          | some (low, high, rest) => put (.repeated low high) rest
          | none => put (.plain '\x7b') rest
        | c => put (.plain c) rest

/-- One expression behind another. -/
def andThen : Regular → Regular → Regular
  | .nothing, r => r
  | r, .nothing => r
  | r, s => .follow r s

/-- Read alternatives up to the end or a closing sign.  `done` are the alternatives before, `row` is the
one that is being read without its last part `last`; `count` is the number of groups so far. -/
def parse? (extended : Bool) : Nat → Option Regular → Regular → Option Regular → Nat → List Sign →
    Option (Regular × Nat × List Sign)
  | 0, _, _, _, _, _ => none
  | fuel + 1, done, row, last, count, signs =>
    let whole := andThen row (last.getD .nothing)
    let all := match done with
      | some d => .either d whole
      | none => whole
    let put (r : Regular) (count : Nat) (rest : List Sign) :=
      parse? extended fuel done whole (some r) count rest
    let isStart := match row, last with
      | .nothing, none => true
      | _, _ => false
    match signs with
    | [] => some (all, count, [])
    | .closing :: rest => some (all, count, .closing :: rest)
    | .bar :: rest => parse? extended fuel (some all) .nothing none count rest
    | .opening :: rest =>
      match parse? extended fuel none .nothing none (count + 1) rest with
      | some (body, inner, .closing :: rest) => put (.group (count + 1) body) inner rest
      | _ => none
    | .repeated low high :: rest =>
      match last with
      | some r => parse? extended fuel done row (some (.many low high r)) count rest
      | none => if extended then none else put (.octet '*') count rest
    | .plain c :: rest => put (.octet c) count rest
    | .atom r :: rest => put r count rest
    | .caret :: rest =>
      if extended || isStart then parse? extended fuel done (andThen whole .start) none count rest
      else put (.octet '^') count rest
    | .dollar :: rest =>
      let isEnd := match rest with
        | [] | .closing :: _ | .bar :: _ => true
        | _ => false
      if extended || isEnd then put .finish count rest else put (.octet '$') count rest

/-- The expression of a text. -/
def ofText? (extended : Bool) (text : List Char) : Option Regular := do
  let signs ← signs? extended text.length text
  match parse? extended (2 * signs.length + 2) none .nothing none 0 signs with
  | some (r, _, []) => return r
  | _ => none

/-! ## Matching -/

/-- A place in a line, and what groups have matched. -/
structure Place where
  /-- The octet before. -/
  before : Option Char
  /-- What is left of the line. -/
  rest : Octets
  /-- What groups have matched, the latest first. -/
  groups : List (Nat × Octets)

/-- What a group matched. -/
def Place.group (p : Place) (number : Nat) : Octets :=
  ((p.groups.find? fun g => g.1 = number).map (·.2)).getD []

/-- An octet of a word. -/
def isWord (c : Char) : Bool := c.isAlphanum || c = '_'

/-- One octet further, if a test admits it. -/
def Place.step? (p : Place) (test : Char → Bool) : Option Place :=
  match p.rest with
  | c :: rest => if test c then some { p with before := some c, rest } else none
  | [] => none

/-- Move over given octets. -/
def Place.over? (p : Place) (same : Char → Char → Bool) : Octets → Option Place
  | [] => some p
  | c :: cs => (p.step? (same c)).bind fun p => p.over? same cs

/-- Fit an expression at a place and go on from there. -/
def fit (caseless : Bool) : Nat → Regular → Place → (Place → Option Place) → Option Place
  | 0, _, _, _ => none
  | fuel + 1, r, p, next =>
    let same (a b : Char) : Bool := if caseless then a.toLower = b.toLower else a = b
    match r with
    | .nothing => next p
    | .any => (p.step? fun _ => true).bind next
    | .octet c => (p.step? (same c)).bind next
    | .set negated ms =>
      let contains (c : Char) : Bool :=
        ms.any (Glob.Member.contains c)
          || (caseless && (ms.any (Glob.Member.contains c.toLower) || ms.any (Glob.Member.contains c.toUpper)))
      (p.step? fun c => contains c != negated).bind next
    | .wordChar negated => (p.step? fun c => isWord c != negated).bind next
    | .start => if p.before.isNone then next p else none
    | .finish => if p.rest.isEmpty then next p else none
    | .edge beginning ending =>
      let left := p.before.any isWord
      let right := p.rest.head?.any isWord
      if (beginning && !left && right) || (ending && left && !right) then next p else none
    | .follow a b => fit caseless fuel a p fun p => fit caseless fuel b p next
    | .either a b => (fit caseless fuel a p next).orElse fun _ => fit caseless fuel b p next
    | .many low high body =>
      let enough := fun (_ : Unit) => if low = 0 then next p else none
      if high = some 0 then enough ()
      else
        (fit caseless fuel body p fun q =>
          if low = 0 && q.rest.length = p.rest.length then none
          else fit caseless fuel (.many (low - 1) (high.map (· - 1)) body) q next).orElse enough
    | .group number body =>
      fit caseless fuel body p fun q =>
        next { q with groups := (number, p.rest.take (p.rest.length - q.rest.length)) :: q.groups }
    | .again number => (p.over? same (p.group number)).bind next

/-- How much trying is allowed at one place. -/
def fuelFor (line : Octets) : Nat := 64 * line.length + 256

/-- The first place in a line, from a given one on, where an expression fits: what stands before it, what
it fits, and the place behind. -/
def first? (caseless : Bool) (r : Regular) (before : Option Char) :
    Octets → Option (Octets × Octets × Place)
  | [] => (fit caseless (fuelFor []) r ⟨before, [], []⟩ some).map fun p => ([], [], p)
  | c :: rest =>
    match fit caseless (fuelFor (c :: rest)) r ⟨before, c :: rest, []⟩ some with
    | some p => some ([], (c :: rest).take (rest.length + 1 - p.rest.length), p)
    | none => (first? caseless r (some c) rest).map fun (skipped, found, p) => (c :: skipped, found, p)

end Regular

end Orrery
