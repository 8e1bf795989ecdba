import Orrery.Text.Utf8

/-!
# Formats

How `echo` and `printf` turn their arguments into octets.  A backslash starts an escape, and a percent
sign in a format stands for an argument.  A format is filled again as long as it takes arguments and some
are left.

There are two manners: that of a script's own commands, and that of the programs of the same names, which
know a few more escapes and word their complaints differently.
-/

namespace Orrery

namespace Format

/-- Who prints. -/
inductive Manner where
  /-- A command of a script. -/
  | command
  /-- A program. -/
  | program
  deriving DecidableEq

/-! ## Escapes -/

/-- The value of a digit, also beyond ten. -/
def digitValue (c : Char) : Nat :=
  if c.isDigit then c.toNat - 48 else if 'a' ≤ c then c.toNat - 87 else c.toNat - 55

/-- A digit of a base. -/
def isDigitOf (base : Nat) (c : Char) : Bool :=
  (c.isDigit || ('a' ≤ c && c ≤ 'f') || ('A' ≤ c && c ≤ 'F')) && digitValue c < base

/-- The number that digits of a base spell. -/
def number (base : Nat) (ds : List Char) : Nat := ds.foldl (fun n d => base * n + digitValue d) 0

/-- An octet by number, from at most so many digits. -/
def octet (base most : Nat) (cs : List Char) : Char × List Char :=
  let ds := (cs.takeWhile (isDigitOf base)).take most
  (Char.ofNat (number base ds % 256), cs.drop ds.length)

/-- The escape behind a backslash: what it stands for, and what follows; a backslash that starts none
stands for itself. -/
def escape (m : Manner) : List Char → Octets × List Char
  | 'a' :: rest => (['\x07'], rest)
  | 'b' :: rest => (['\x08'], rest)
  | 'f' :: rest => (['\x0c'], rest)
  | 'n' :: rest => (['\n'], rest)
  | 'r' :: rest => (['\r'], rest)
  | 't' :: rest => (['\t'], rest)
  | 'v' :: rest => (['\x0b'], rest)
  | '\\' :: rest => (['\\'], rest)
  | c :: rest =>
    if isDigitOf 8 c then let (o, rest) := octet 8 3 (c :: rest); ([o], rest)
    else if m = .program && c = '"' then (['"'], rest)
    else if m = .program && c = 'e' then (['\x1b'], rest)
    else if m = .program && c = 'x' && rest.head?.any (isDigitOf 16) then
      let (o, rest) := octet 16 2 rest
      ([o], rest)
    else (['\\'], c :: rest)
  | [] => (['\\'], [])

/-- Replace the escapes of a text, in which a number starts with a zero; the answer says whether an
escape ends all printing.  Every escape takes an octet, so `fuel` need not exceed the length. -/
def unescape (m : Manner) : Nat → List Char → Octets × Bool
  | _, [] => ([], false)
  | 0, cs => (cs, false)
  | fuel + 1, c :: rest =>
    if c ≠ '\\' then let (os, stop) := unescape m fuel rest; (c :: os, stop)
    else
      match rest with
      | 'c' :: _ => ([], true)
      | '0' :: rest =>
        let (o, rest) := octet 8 3 rest
        let (os, stop) := unescape m fuel rest
        (o :: os, stop)
      | rest =>
        let (piece, rest) := escape m rest
        let (os, stop) := unescape m fuel rest
        (piece ++ os, stop)

/-- Replace the escapes of a text. -/
def unescaped (m : Manner) (cs : List Char) : Octets × Bool := unescape m cs.length cs

/-! ## Numbers -/

/-- A number as an argument: its value, whether all of the argument was read, and whether any was. -/
def argument (cs : Octets) : Int × Bool × Bool :=
  match cs with
  | '\'' :: c :: _ | '"' :: c :: _ => (c.toNat, true, true)
  | _ =>
    let trimmed := cs.dropWhile fun c => c = ' ' || (0x09 ≤ c.toNat && c.toNat ≤ 0x0D)
    let (negative, ds) := match trimmed with
      | '-' :: ds => (true, ds)
      | '+' :: ds => (false, ds)
      | ds => (false, ds)
    let (base, ds) := match ds with
      | '0' :: x :: h :: rest =>
        if (x = 'x' || x = 'X') && isDigitOf 16 h then (16, h :: rest) else (8, '0' :: x :: h :: rest)
      | '0' :: rest => (8, '0' :: rest)
      | ds => (10, ds)
    let taken := ds.takeWhile (isDigitOf base)
    let value : Int := number base taken
    if taken.isEmpty then (0, cs.isEmpty, false)
    else (if negative then -value else value, (ds.drop taken.length).isEmpty, true)

/-- A number in a base, with small letters. -/
def digits (base n : Nat) : Octets := Nat.toDigits base n

/-! ## Directives -/

/-- A directive: its flags, its width, its precision and its letter. -/
structure Directive where
  /-- The flags. -/
  flags : List Char
  /-- The least width. -/
  width : Nat
  /-- The precision, if there is one. -/
  precision : Option Nat
  /-- What is printed. -/
  letter : Char

/-- Fill up to the width. -/
def Directive.pad (d : Directive) (zeros : Bool) (sign text : Octets) : Octets :=
  let missing := d.width - (sign.length + text.length)
  if d.flags.contains '-' then sign ++ text ++ List.replicate missing ' '
  else if zeros && d.flags.contains '0' then sign ++ List.replicate missing '0' ++ text
  else List.replicate missing ' ' ++ sign ++ text

/-- Print a text. -/
def Directive.text (d : Directive) (text : Octets) : Octets :=
  d.pad false [] (match d.precision with
    | some n => text.take n
    | none => text)

/-- Print a whole number. -/
def Directive.integer (d : Directive) (n : Int) : Octets :=
  let sign : Octets := if n < 0 then ['-'] else if d.flags.contains '+' then ['+']
    else if d.flags.contains ' ' then [' '] else []
  let ds := digits 10 n.natAbs
  let ds := List.replicate (d.precision.getD 0 - ds.length) '0' ++ ds
  d.pad d.precision.isNone sign ds

/-- Print a natural number of 64 bits in a base. -/
def Directive.natural (d : Directive) (base : Nat) (n : Int) : Octets :=
  let ds := digits base (n % 18446744073709551616).toNat
  let ds := if d.letter = 'X' then ds.map Char.toUpper else ds
  let ds := List.replicate (d.precision.getD 0 - ds.length) '0' ++ ds
  let mark : Octets := if d.flags.contains '#' && n ≠ 0 then
    if base = 8 then ['0'] else if base = 16 then ['0', d.letter] else [] else []
  d.pad d.precision.isNone mark ds

/-- A directive, from behind its percent sign; a star takes its number from the arguments. -/
def directive? (args : List Octets) (cs : List Char) : Option (Directive × List Octets × List Char) :=
  let flags := cs.takeWhile fun c => "#-+ 0".toList.contains c
  let cs := cs.drop flags.length
  let (width, args, cs) := match cs with
    | '*' :: cs => ((argument (args.headD [])).1, args.drop 1, cs)
    | cs => ((number 10 (cs.takeWhile Char.isDigit) : Int), args, cs.dropWhile Char.isDigit)
  let (precision, args, cs) := match cs with
    | '.' :: '*' :: cs => (some (argument (args.headD [])).1.toNat, args.drop 1, cs)
    | '.' :: cs => (some (number 10 (cs.takeWhile Char.isDigit)), args, cs.dropWhile Char.isDigit)
    | cs => (none, args, cs)
  match cs with
  | letter :: rest =>
    let flags := if width < 0 then '-' :: flags else flags
    some (⟨flags, width.natAbs, precision, letter⟩, args, rest)
  | [] => none

/-! ## Filling -/

/-- What printing leaves behind: octets, complaints, the arguments that are left, and whether it ended
early; an early end can be an error. -/
structure Printed where
  /-- What was printed. -/
  output : Octets
  /-- What was complained about, one text a line. -/
  complaints : List Octets
  /-- The arguments that are left. -/
  left : List Octets
  /-- Whether printing ended early. -/
  ended : Bool
  /-- Whether it ended because of an error. -/
  failed : Bool

/-- Put octets in front. -/
def Printed.after (os : Octets) (p : Printed) : Printed := { p with output := os ++ p.output }

/-- What is wrong with an argument that should be a number. -/
def numberFault (m : Manner) (arg : Octets) : List Octets :=
  match argument arg, m with
  | (_, true, _), _ => []
  | (_, false, false), .command => [arg ++ ": expected numeric value".toList]
  | (_, false, true), .command => [arg ++ ": not completely converted".toList]
  | (_, false, false), .program => ['\'' :: arg ++ "': expected a numeric value".toList]
  | (_, false, true), .program => ['\'' :: arg ++ "': value not completely converted".toList]

/-- Fill a format once.  Every step takes an octet, so `fuel` need not exceed the length. -/
def fill (m : Manner) : Nat → List Char → List Octets → Printed
  | _, [], args => ⟨[], [], args, false, false⟩
  | 0, _, args => ⟨[], [], args, false, false⟩
  | fuel + 1, c :: rest, args =>
    if c = '\\' then
      match m, rest with
      | .program, 'c' :: _ => ⟨[], [], args, true, false⟩
      | m, rest =>
        let (piece, rest) := escape m rest
        (fill m fuel rest args).after piece
    else if c ≠ '%' then (fill m fuel rest args).after [c]
    else
      match rest with
      | '%' :: rest => (fill m fuel rest args).after ['%']
      | rest =>
        match directive? args rest with
        | none => ⟨[], ["missing format character".toList], args, true, true⟩
        | some (d, args, rest) =>
          let arg := args.headD []
          let complain (os : Octets) : Printed :=
            let p := (fill m fuel rest (args.drop 1)).after os
            { p with complaints := numberFault m arg ++ p.complaints }
          match d.letter with
          | 's' => (fill m fuel rest (args.drop 1)).after (d.text arg)
          | 'c' => (fill m fuel rest (args.drop 1)).after (d.text (arg.take 1))
          | 'b' =>
            let (os, stop) := unescaped m arg
            if stop then ⟨d.text os, [], args.drop 1, true, false⟩
            else (fill m fuel rest (args.drop 1)).after (d.text os)
          | 'd' | 'i' => complain (d.integer (argument arg).1)
          | 'u' => complain (d.natural 10 (argument arg).1)
          | 'o' => complain (d.natural 8 (argument arg).1)
          | 'x' | 'X' => complain (d.natural 16 (argument arg).1)
          | _ =>
            let text := '%' :: rest.takeWhile fun _ => false
            ⟨[], [text ++ [d.letter] ++ ": invalid directive".toList], args, true, true⟩

/-- Fill a format as often as there are arguments for it, at least once. -/
def fillAll (m : Manner) (format : List Char) : Nat → List Octets → Printed
  | 0, args => fill m format.length format args
  | fuel + 1, args =>
    let p := fill m format.length format args
    if p.ended || p.left.isEmpty || p.left.length = args.length then p
    else
      let q := fillAll m format fuel p.left
      { q with output := p.output ++ q.output, complaints := p.complaints ++ q.complaints }

/-! ## Echo -/

/-- Words with blanks between them. -/
def spaced (words : List Octets) : Octets := [' '].intercalate words

/-- The words of an echo in a script: escapes are replaced, and a first word `-n` keeps the line open. -/
def echoed (words : List Octets) : Octets :=
  let (isOpen, words) := match words with
    | ['-', 'n'] :: words => (true, words)
    | words => (false, words)
  let (os, stop) := unescaped .command (spaced words)
  if isOpen || stop then os else os ++ ['\n']

/-- An option of the program: letters out of three behind a dash. -/
def isEchoOption : Octets → Bool
  | '-' :: c :: cs => (c :: cs).all fun c => c = 'n' || c = 'e' || c = 'E'
  | _ => false

/-- The words of the program: escapes are replaced only if an option says so. -/
def echoedByProgram (words : List Octets) : Octets :=
  let options := words.takeWhile isEchoOption
  let letters := options.flatMap (·.drop 1)
  let isOpen := letters.contains 'n'
  let isEscaped := (letters.filter fun c => c = 'e' || c = 'E').getLast? = some 'e'
  let text := spaced (words.drop options.length)
  let (os, stop) := if isEscaped then unescaped .program text else (text, false)
  if isOpen || stop then os else os ++ ['\n']

end Format

end Orrery
