import Orrery.Text.Letter
import Orrery.Text.Space

/-!
# Patterns

The value of a field can be compared with a regular expression.  Only whether such a pattern is well
formed matters here, so a pattern is not turned into anything: the reader walks over it once and keeps
the flags in force, those of the groups around, and whether what stands last can be repeated.

A pattern stands between braces and contains no closing one.  An opening brace outside of a class thus
starts a count, a property or a code that never ends, and is always wrong.  Classes that need the
character database (properties, and digits, words and white space of all scripts), word boundaries of all
scripts and the equality of upper and lower case in all scripts are not available.  Where the flag `u` is
switched off, the first three have an ASCII meaning, but nothing may match a part of a character.
-/

namespace Orrery

namespace LogFilter

namespace Pattern

/-- The flags that decide what is well formed. -/
structure Flags where
  /-- Upper and lower case count as one. -/
  caseless : Bool
  /-- Characters of all scripts, and not bytes. -/
  unicode : Bool
  /-- White space and comments are skipped. -/
  spaced : Bool

/-- The flags in force at the beginning. -/
def Flags.start : Flags := ⟨false, true, false⟩

/-! ## Blanks -/

/-- Without the white space and the comments in front. -/
def trimmed (inComment : Bool) : List Char → List Char
  | [] => []
  | c :: rest =>
    if inComment then trimmed (c ≠ '\n') rest
    else if c = '#' then trimmed true rest
    else if Text.isSpace c then trimmed false rest
    else c :: rest

/-- Without what is skipped in front. -/
def Flags.skip (f : Flags) (cs : List Char) : List Char := if f.spaced then trimmed false cs else cs

/-! ## Escapes -/

/-- What a pattern is made of, as far as it matters. -/
inductive Atom where
  /-- A character, or a byte if it is written as one. -/
  | literal (value : Nat) (isByte : Bool)
  /-- A class that is named by a letter. -/
  | set
  /-- A place, such as the end. -/
  | place

/-- The value of a hexadecimal digit. -/
def digit? (c : Char) : Option Nat :=
  if '0' ≤ c && c ≤ '9' then some (c.toNat - 48)
  else if 'a' ≤ c && c ≤ 'f' then some (c.toNat - 87)
  else if 'A' ≤ c && c ≤ 'F' then some (c.toNat - 55)
  else none

/-- A number of exactly so many hexadecimal digits. -/
def code? (f : Flags) (value : Nat) : Nat → List Char → Option (Nat × List Char)
  | 0, cs => some (value, cs)
  | n + 1, cs =>
    match f.skip cs with
    | c :: rest => (digit? c).bind fun d => code? f (16 * value + d) n rest
    | [] => none

/-- A character that can stand for itself behind a backslash. -/
def isPunctuation (c : Char) : Bool := c.toNat < 0x80 && !c.isAlphanum && c ≠ '<' && c ≠ '>'

/-- What stands behind a backslash. -/
def escape? (f : Flags) : List Char → Option (Atom × List Char)
  | [] => none
  | c :: rest =>
    let byCode (digits : Nat) : Option (Atom × List Char) :=
      (code? f 0 digits rest).bind fun (n, rest) =>
        if n.isValidChar then some (.literal n (digits = 2), rest) else none
    if c = 'x' then byCode 2
    else if c = 'u' then byCode 4
    else if c = 'U' then byCode 8
    else if c = 'd' || c = 's' || c = 'w' then if f.unicode then none else some (.set, rest)
    else if c = 'A' || c = 'z' then some (.place, rest)
    else if c = 'b' || c = 'B' || c = '<' || c = '>' then if f.unicode then none else some (.place, rest)
    else if isPunctuation c || "aftnrv".toList.contains c then some (.literal c.toNat false, rest)
    else none

/-- A literal that can be matched. -/
def Flags.admits (f : Flags) (value : Nat) (isByte : Bool) : Bool :=
  if f.unicode then !f.caseless else !isByte || value < 0x80

/-! ## Classes -/

/-- The names of the classes that are written between colons. -/
def classNames : List String :=
  ["alnum", "alpha", "ascii", "blank", "cntrl", "digit", "graph", "lower", "print", "punct", "space",
   "upper", "word", "xdigit"]

/-- A class between colons, from behind its bracket; also whether it is negated. -/
def namedClass? : List Char → Option (Bool × List Char)
  | ':' :: cs =>
    let (negated, cs) := match cs with
      | '^' :: cs => (true, cs)
      | cs => (false, cs)
    let name := cs.takeWhile (· ≠ ':')
    match cs.drop name.length with
    | ':' :: ']' :: rest => if classNames.contains (String.ofList name) then some (negated, rest) else none
    | _ => none
  | _ => none

/-- The beginning of a class, from behind its bracket: dashes there stand for themselves, and so does a
closing bracket that comes first. -/
def openClass? (f : Flags) (cs : List Char) : Option (List Char) :=
  let start (cs : List Char) : List Char :=
    match cs with
    | '-' :: rest => rest.dropWhile fun c => c = '-' || (f.spaced && Text.isSpace c)
    | ']' :: rest => rest
    | cs => cs
  match f.skip cs with
  | '^' :: rest => if f.unicode then some (start (f.skip rest)) else none
  | cs => some (start cs)

/-- An item of a class. -/
def item? (f : Flags) : List Char → Option (Atom × List Char)
  | '\\' :: rest => escape? f rest
  | c :: rest => some (.literal c.toNat false, rest)
  | [] => none

/-- An end of a range. -/
def Flags.rangeEnd? (f : Flags) : Atom → Option Nat
  | .literal n _ => if f.unicode || n < 0x80 then some n else none
  | _ => none

/-- An item of a class or a range, and what follows. -/
def range? (f : Flags) (cs : List Char) : Option (List Char) :=
  match item? f cs with
  | none => none
  | some (first, rest) =>
    let alone : Option (List Char) := match first with
      | .place => none
      | .set => some rest
      | .literal n _ => if f.unicode || n < 0x80 then some rest else none
    match f.skip rest with
    | '-' :: behind =>
      match f.skip behind with
      | [] => none
      | c :: more =>
        if c = ']' || c = '-' then alone
        else
          match item? f (c :: more) with
          | none => none
          | some (last, rest) =>
            match f.rangeEnd? first, f.rangeEnd? last with
            | some a, some b => if a ≤ b then some rest else none
            | _, _ => none
    | _ => alone

/-- The rest of a class, inside of so many others, and what follows.  Every step takes a character, so
`fuel` need not exceed the length by more than one. -/
def class? (f : Flags) (outer : Nat) : Nat → List Char → Option (List Char)
  | 0, _ => none
  | fuel + 1, cs =>
    match f.skip cs with
    | [] => none
    | '[' :: rest =>
      match namedClass? rest with
      | some (negated, rest) => if negated && !f.unicode then none else class? f outer fuel rest
      | none => (openClass? f rest).bind (class? f (outer + 1) fuel)
    | ']' :: rest =>
      match outer with
      | 0 => some rest
      | outer + 1 => class? f outer fuel rest
    | '&' :: '&' :: rest | '-' :: '-' :: rest | '~' :: '~' :: rest => class? f outer fuel rest
    | cs => (range? f cs).bind (class? f outer fuel)

/-! ## Groups -/

/-- The flags between a question mark and a colon or a parenthesis: what is left, whether a dash was
read, whether it came last, and the letters that were read. -/
def flags? (f : Flags) (negative dangling : Bool) (seen : List Char) :
    List Char → Option (Flags × Bool × List Char)
  | [] => none
  | c :: rest =>
    if c = ':' || c = ')' then
      if dangling || (c = ')' && seen.isEmpty) then none else some (f, c = ':', rest)
    else if c = '-' then if negative then none else flags? f true true ('-' :: seen) rest
    else if seen.contains c then none
    else
      let on := !negative
      match c with
      | 'i' => flags? { f with caseless := on } negative false (c :: seen) rest
      | 'u' => flags? { f with unicode := on } negative false (c :: seen) rest
      | 'x' => flags? { f with spaced := on } negative false (c :: seen) rest
      | 'm' | 's' | 'U' | 'R' => flags? f negative false (c :: seen) rest
      | _ => none

/-- The name of a group, up to its closing angle. -/
def groupName? (cs : List Char) : Option (List Char × List Char) :=
  let name := cs.takeWhile (· ≠ '>')
  match name, cs.drop name.length with
  | c :: more, '>' :: rest =>
    let isInner (c : Char) : Bool :=
      c = '_' || c = '.' || c = '[' || c = ']' || Text.isLetterOrNumber c
    if (c = '_' || Text.isLetter c) && more.all isInner then some (name, rest) else none
  | _, _ => none

/-- What the beginning of a group says. -/
inductive Opening where
  /-- A group follows, with these flags and perhaps a name. -/
  | group (flags : Flags) (name : Option (List Char))
  /-- No group follows: these flags apply from here on. -/
  | flags (flags : Flags)

/-- The beginning of a group, from behind its parenthesis. -/
def opening? (f : Flags) (cs : List Char) : Option (Opening × List Char) :=
  let named (cs : List Char) := (groupName? cs).map fun (n, rest) => (Opening.group f (some n), rest)
  match f.skip cs with
  | '?' :: '<' :: '=' :: _ | '?' :: '<' :: '!' :: _ => none
  | '?' :: 'P' :: '<' :: rest => named rest
  | '?' :: '<' :: rest => named rest
  | '?' :: rest =>
    (flags? f false false [] rest).map fun (g, isGroup, rest) =>
      (if isGroup then .group g none else .flags g, rest)
  | cs => some (.group f none, cs)

/-! ## Whole patterns -/

/-- Walk over a pattern: `outer` holds the flags of the groups around, `names` the names of groups.
Every step takes a character, so `fuel` need not exceed the length by more than one. -/
def walk (f : Flags) (outer : List Flags) (names : List (List Char)) (repeatable : Bool) :
    Nat → List Char → Bool
  | 0, _ => false
  | fuel + 1, cs =>
    match f.skip cs with
    | [] => outer.isEmpty
    | '(' :: rest =>
      match opening? f rest with
      | none => false
      | some (.flags g, rest) => walk g outer names false fuel rest
      | some (.group g none, rest) => walk g (f :: outer) names false fuel rest
      | some (.group g (some n), rest) =>
        !names.contains n && walk g (f :: outer) (n :: names) false fuel rest
    | ')' :: rest =>
      match outer with
      | [] => false
      | g :: outer => walk g outer names true fuel rest
    | '|' :: rest => walk f outer names false fuel rest
    | '[' :: rest =>
      if f.unicode && f.caseless then false
      else
        match (openClass? f rest).bind (class? f 0 (rest.length + 1)) with
        | some rest => walk f outer names true fuel rest
        | none => false
    | '\x7b' :: _ => false
    | '.' :: rest => f.unicode && walk f outer names true fuel rest
    | '^' :: rest | '$' :: rest => walk f outer names true fuel rest
    | '\\' :: rest =>
      match escape? f rest with
      | some (.literal n isByte, rest) => f.admits n isByte && walk f outer names true fuel rest
      | some (_, rest) => walk f outer names true fuel rest
      | none => false
    | c :: rest =>
      if c = '*' || c = '+' || c = '?' then
        repeatable && walk f outer names true fuel (match rest with | '?' :: rest => rest | rest => rest)
      else f.admits c.toNat false && walk f outer names true fuel rest

/-- Whether a pattern is a well formed regular expression. -/
def isRegular (cs : List Char) : Bool := walk .start [] [] false (cs.length + 1) cs

/-- Whether a text is a number: digits with an optional point and exponent, or one of the names of what
is not finite. -/
def isNumber (cs : List Char) : Bool :=
  let cs := match cs with
    | '+' :: rest | '-' :: rest => rest
    | cs => cs
  let whole := cs.takeWhile Char.isDigit
  let rest := cs.drop whole.length
  let (places, rest) := match rest with
    | '.' :: rest => (rest.takeWhile Char.isDigit, rest.dropWhile Char.isDigit)
    | rest => ([], rest)
  let exponent := match rest with
    | [] => true
    | e :: rest =>
      let rest := match rest with
        | '+' :: rest | '-' :: rest => rest
        | rest => rest
      (e = 'e' || e = 'E') && !rest.isEmpty && rest.all Char.isDigit
  (!(whole.isEmpty && places.isEmpty) && exponent)
    || ["inf", "infinity", "nan"].contains (String.ofList (cs.map Char.toLower))

/-- Whether the value of a field can be compared with: a number as such, anything else as a pattern. -/
def isValid (cs : List Char) : Bool := isNumber cs || isRegular cs

end Pattern

end LogFilter

end Orrery
