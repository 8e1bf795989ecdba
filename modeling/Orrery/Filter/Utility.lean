import Orrery.Filter.Format

/-!
# Programs for lines and octets

The small programs from which filters are made.  A program is a function of its arguments, of the input
and of the files it may open; what it leaves behind is an `Outcome`.  This module holds the programs that
copy, select and rearrange; the modules below it hold those with a language of their own.

A program that looks at its input at all takes the whole of it.
-/

namespace Orrery

namespace Utility

/-- How a program ends. -/
inductive Ending where
  /-- With a status; zero is success. -/
  | status (n : Nat)
  /-- By a signal. -/
  | signal (n : Nat)
  deriving DecidableEq

/-- What a program leaves behind. -/
structure Outcome where
  /-- Its status; zero is success. -/
  status : Nat
  /-- What it printed. -/
  output : Octets
  /-- What it complained about. -/
  complaint : Octets
  /-- Whether it took the input. -/
  tookInput : Bool
  /-- The files it made. -/
  files : List (Octets × Octets)

/-- What a program finds when it starts. -/
structure Start where
  /-- The name by which it was called. -/
  name : Octets
  /-- Its arguments. -/
  args : List Octets
  /-- Its input. -/
  input : Octets
  /-- The contents of files. -/
  file? : Octets → Option Octets

/-- A program. -/
abbrev Program := Start → Outcome

/-- Success with an output, after the input was taken or not. -/
def printed (output : Octets) (tookInput : Bool) : Outcome := ⟨0, output, [], tookInput, []⟩

/-- Failure with a complaint. -/
def Start.fail (s : Start) (status : Nat) (text : String) : Outcome :=
  ⟨status, [], s.name ++ ": ".toList ++ text.toList ++ ['\n'], false, []⟩

/-- Failure because of the arguments. -/
def Start.misuse (s : Start) (status : Nat) (text : String) : Outcome :=
  s.fail status (text ++ "\nTry '" ++ String.ofList s.name ++ " --help' for more information.")

/-- A text in quotes, as complaints show it. -/
def quoted (os : Octets) : String := "'" ++ String.ofList os ++ "'"

/-- The lines of a text, each with its end; the last may have none. -/
def lines (os : Octets) : List Octets :=
  os.foldr (fun c ls =>
    match c, ls with
    | '\n', ls => ['\n'] :: ls
    | c, l :: ls => (c :: l) :: ls
    | c, [] => [[c]]) []

/-- A line without its end. -/
def bare (line : Octets) : Octets := if line.getLast? = some '\n' then line.dropLast else line

/-- A line with an end. -/
def closed (line : Octets) : Octets := bare line ++ ['\n']

/-- The number that decimal digits spell, if all are. -/
def natural? (ds : Octets) : Option Nat :=
  if ds.isEmpty || !ds.all Char.isDigit then none else some (Format.number 10 ds)

/-- The text of each file that is named, of the input for a dash or if none is named, and the complaints
about those that are not there. -/
def Start.sources (s : Start) (files : List Octets) (complaint : Octets → String) :
    List Octets × Octets × Bool :=
  let files := if files.isEmpty then [['-']] else files
  let found := files.map fun f => (f, if f = ['-'] then some s.input else s.file? f)
  (found.filterMap (·.2),
   found.flatMap fun (f, text) =>
     if text.isSome then [] else s.name ++ ": ".toList ++ (complaint f).toList ++ ['\n'],
   files.contains ['-'])

/-- A complaint about a file that is not there. -/
def missing (file : Octets) : String := String.ofList file ++ ": No such file or directory"

/-- A complaint about a file that cannot be opened. -/
def unopened (file : Octets) : String :=
  "cannot open " ++ quoted file ++ " for reading: No such file or directory"

/-- What a program makes of the text of all files together. -/
def Start.over (s : Start) (files : List Octets) (complaint : Octets → String)
    (f : Octets → Octets) : Outcome :=
  let (texts, complaints, tookInput) := s.sources files complaint
  ⟨if complaints.isEmpty then 0 else 1, f texts.flatten, complaints, tookInput, []⟩

/-- Options of one letter before the operands, some of which have a value, in the same word or the next;
an option that is not known is given back. -/
def options (simple valued : List Char) : Nat → List Octets →
    Except Char (List (Char × Octets) × List Octets)
  | 0, args => .ok ([], args)
  | fuel + 1, args =>
    match args with
    | ['-', '-'] :: rest => .ok ([], rest)
    | ('-' :: c :: more) :: rest =>
      if simple.contains c then
        let rest := if more.isEmpty then rest else ('-' :: more) :: rest
        (options simple valued fuel rest).map fun (os, operands) => ((c, []) :: os, operands)
      else if valued.contains c then
        match more, rest with
        | [], value :: rest => (options simple valued fuel rest).map fun (os, a) => ((c, value) :: os, a)
        | [], [] => .error c
        | value, rest => (options simple valued fuel rest).map fun (os, a) => ((c, value) :: os, a)
      else .error c
    | operand :: rest =>
      (options simple valued fuel rest).map fun (os, operands) => (os, operand :: operands)
    | [] => .ok ([], [])

/-- The options of a program, or its complaint. -/
def Start.parsed (s : Start) (simple valued : String) (status : Nat)
    (go : List (Char × Octets) → List Octets → Outcome) : Outcome :=
  let fuel := (s.args.map List.length).foldl (· + ·) s.args.length
  match options simple.toList valued.toList fuel s.args with
  | .ok (os, operands) => go os operands
  | .error c =>
    if valued.toList.contains c then
      s.misuse status ("option requires an argument -- '" ++ String.ofList [c] ++ "'")
    else s.misuse status ("invalid option -- '" ++ String.ofList [c] ++ "'")

/-- The value of an option; the last one counts. -/
def valueOf? (os : List (Char × Octets)) (c : Char) : Option Octets :=
  (os.reverse.find? fun o => o.1 = c).map (·.2)

/-- Whether an option is given. -/
def isGiven (os : List (Char × Octets)) (c : Char) : Bool := os.any fun o => o.1 = c

/-! ## Copying -/

/-- A number before a line, set off by a tab. -/
def numbered (n : Nat) (line : Octets) : Octets :=
  let ds := Nat.toDigits 10 n
  List.replicate (6 - ds.length) ' ' ++ ds ++ '\t' :: line

/-- Copy files and the input. -/
def cat : Program := fun s =>
  s.parsed "unbEs" "" 1 fun os files =>
    s.over files missing fun text =>
      if os.isEmpty then text
      else
        let squeezed := if isGiven os 's' then
            ((lines text).foldl (fun (acc : List Octets × Nat) l =>
              let blank := if l = ['\n'] then acc.2 + 1 else 0
              (if 1 < blank then acc.1 else l :: acc.1, blank)) ([], 0)).1.reverse
          else lines text
        let ended := if isGiven os 'E' then
            squeezed.map fun l => if l.getLast? = some '\n' then bare l ++ ['$', '\n'] else l
          else squeezed
        let all := isGiven os 'n' && !isGiven os 'b'
        if all || isGiven os 'b' then
          ((ended.foldl (fun (acc : List Octets × Nat) l =>
            let counts := all || (bare l ≠ [] && bare l ≠ ['$'])
            (if counts then (numbered acc.2 l :: acc.1, acc.2 + 1) else (l :: acc.1, acc.2)))
            ([], 1)).1.reverse).flatten
        else ended.flatten

/-- Copy the input to the output and to files. -/
def tee : Program := fun s =>
  s.parsed "ai" "" 1 fun os files =>
    let earlier (f : Octets) : Octets := if isGiven os 'a' then (s.file? f).getD [] else []
    ⟨0, s.input, [], true, files.map fun f => (f, earlier f ++ s.input)⟩

/-- How many lines or octets are taken, and from which end. -/
inductive Amount where
  /-- So many of the first, or of the last. -/
  | only (n : Nat)
  /-- All but so many of them. -/
  | except (n : Nat)

/-- Take the first. -/
def Amount.front {α : Type} (xs : List α) : Amount → List α
  | .only n => xs.take n
  | .except n => xs.take (xs.length - n)

/-- Take the last. -/
def Amount.back {α : Type} (xs : List α) : Amount → List α
  | .only n => xs.drop (xs.length - n)
  | .except n => xs.drop n

/-- An option of digits alone gives the number of lines. -/
def digitOption (args : List Octets) : List Octets :=
  match args with
  | ('-' :: ds) :: rest => if (natural? ds).isSome then ['-', 'n'] :: ds :: rest else args
  | args => args

/-- The first lines or octets. -/
def head : Program := fun s =>
  let s := { s with args := digitOption s.args }
  let amount? (text : Octets) : Option Amount := match text with
    | '-' :: ds => (natural? ds).map .except
    | '+' :: ds => (natural? ds).map .only
    | ds => (natural? ds).map .only
  s.parsed "q" "nc" 1 fun os files =>
    let read (text : Octets) (kind : String) (go : Amount → Outcome) : Outcome :=
      match amount? text with
      | some a => go a
      | none => s.fail 1 ("invalid number of " ++ kind ++ ": " ++ quoted text)
    match valueOf? os 'c', (valueOf? os 'n').getD ['1', '0'] with
    | some c, _ => read c "bytes" fun a => s.over files unopened fun t => a.front t
    | none, n => read n "lines" fun a => s.over files unopened fun t => (a.front (lines t)).flatten

/-- The last lines or octets. -/
def tail : Program := fun s =>
  let args := match digitOption s.args with
    | ('+' :: ds) :: rest => ['-', 'n'] :: ('+' :: ds) :: rest
    | args => args
  let s := { s with args }
  let amount? (text : Octets) : Option Amount := match text with
    | '+' :: ds => (natural? ds).map fun n => .except (n - 1)
    | '-' :: ds => (natural? ds).map .only
    | ds => (natural? ds).map .only
  s.parsed "qf" "nc" 1 fun os files =>
    let read (text : Octets) (kind : String) (go : Amount → Outcome) : Outcome :=
      match amount? text with
      | some a => go a
      | none => s.fail 1 ("invalid number of " ++ kind ++ ": " ++ quoted text)
    match valueOf? os 'c', (valueOf? os 'n').getD ['1', '0'] with
    | some c, _ => read c "bytes" fun a => s.over files unopened fun t => a.back t
    | none, n => read n "lines" fun a => s.over files unopened fun t => (a.back (lines t)).flatten

/-! ## Rearranging -/

/-- Each line backwards. -/
def rev : Program := fun s =>
  s.parsed "" "" 1 fun _ files =>
    s.over files missing fun t => (lines t).flatMap fun l =>
      if l.getLast? = some '\n' then (bare l).reverse ++ ['\n'] else l.reverse

/-- The lines backwards. -/
def tac : Program := fun s =>
  s.parsed "" "" 1 fun _ files => s.over files missing fun t => (lines t).reverse.flatten

/-- Whether a text comes before another, or is the same. -/
def isBefore : Octets → Octets → Bool
  | [], _ => true
  | _, [] => false
  | a :: as, b :: bs => a < b || (a = b && isBefore as bs)

/-- The number that a line starts with. -/
def leadingNumber (line : Octets) : Int :=
  let cs := line.dropWhile fun c => c = ' ' || c = '\t'
  match cs with
  | '-' :: ds => -(Format.number 10 (ds.takeWhile Char.isDigit) : Int)
  | ds => (Format.number 10 (ds.takeWhile Char.isDigit) : Int)

/-- The lines in order. -/
def sort : Program := fun s =>
  s.parsed "rnu" "" 2 fun os files =>
    s.over files missing fun t =>
      let ls := (lines t).map bare
      let byNumber (a b : Octets) : Bool :=
        leadingNumber a < leadingNumber b || (leadingNumber a = leadingNumber b && isBefore a b)
      let order := if isGiven os 'n' then byNumber else isBefore
      let sorted := ls.mergeSort fun a b => if isGiven os 'r' then order b a else order a b
      let sorted := if isGiven os 'u' then sorted.eraseReps else sorted
      sorted.flatMap (· ++ ['\n'])

/-- Neighbouring lines that are alike, once. -/
def uniq : Program := fun s =>
  s.parsed "cdu" "" 1 fun os files =>
    s.over files missing fun t =>
      let groups := ((lines t).map bare).splitBy (· = ·)
      groups.flatMap fun g =>
        let line := g.headD []
        let isWanted := (!isGiven os 'd' || 1 < g.length) && (!isGiven os 'u' || g.length = 1)
        let ds := Nat.toDigits 10 g.length
        let count := if isGiven os 'c' then List.replicate (7 - ds.length) ' ' ++ ds ++ [' '] else []
        if isWanted then count ++ line ++ ['\n'] else []

/-! ## Counting and cutting -/

/-- Whether an octet separates words. -/
def isBlank (c : Char) : Bool := c = ' ' || (0x09 ≤ c.toNat && c.toNat ≤ 0x0D)

/-- The words of a text. -/
def wordsOf (os : Octets) : List Octets :=
  (os.splitBy fun a b => isBlank a = isBlank b).filter fun w => !w.all isBlank

/-- How many lines, words and octets there are. -/
def wc : Program := fun s =>
  s.parsed "lwcm" "" 1 fun os files =>
    let counts (t : Octets) : List Nat :=
      let all := os.isEmpty
      (if all || isGiven os 'l' then [t.count '\n'] else [])
        ++ (if all || isGiven os 'w' then [(wordsOf t).length] else [])
        ++ (if all || isGiven os 'c' || isGiven os 'm' then [t.length] else [])
    let shown (t : Octets) : Octets :=
      let ns := counts t
      match ns with
      | [n] => Nat.toDigits 10 n
      | ns => [' '].intercalate (ns.map fun n =>
          let ds := Nat.toDigits 10 n
          List.replicate ((if files.isEmpty then 7 else 0) - ds.length) ' ' ++ ds)
    s.over files missing fun t =>
      shown t ++ (match files with
        | [f] => ' ' :: f
        | _ => []) ++ ['\n']

/-- The ranges of a list such as `1,3-5,7-`. -/
def ranges? (text : Octets) : Option (List (Nat × Option Nat)) :=
  (text.splitOn ',').mapM fun part =>
    match part.splitOn '-' with
    | [a] => (natural? a).map fun n => (n, some n)
    | [[], b] => (natural? b).map fun n => (1, some n)
    | [a, []] => (natural? a).map fun n => (n, none)
    | [a, b] => (natural? a).bind fun n => (natural? b).map fun m => (n, some m)
    | _ => none

/-- The items at the positions of ranges. -/
def selected {α : Type} (rs : List (Nat × Option Nat)) (xs : List α) : List α :=
  (xs.zipIdx 1).filterMap fun (x, i) =>
    if rs.any fun r => r.1 ≤ i && r.2.all fun last => i ≤ last then some x else none

/-- Parts of every line. -/
def cut : Program := fun s =>
  s.parsed "sn" "dfcb" 1 fun os files =>
    let delimiter := ((valueOf? os 'd').bind List.head?).getD '\t'
    let byFields (rs : List (Nat × Option Nat)) (l : Octets) : Octets :=
      if l.contains delimiter then [delimiter].intercalate (selected rs (l.splitOn delimiter)) ++ ['\n']
      else if isGiven os 's' then [] else l ++ ['\n']
    let byOctets (rs : List (Nat × Option Nat)) (l : Octets) : Octets := selected rs l ++ ['\n']
    let read (text : Octets) (f : List (Nat × Option Nat) → Octets → Octets) : Outcome :=
      match ranges? text with
      | some rs => s.over files missing fun t => (lines t).flatMap fun l => f rs (bare l)
      | none => s.misuse 1 "invalid field range"
    match valueOf? os 'f', (valueOf? os 'c').orElse fun _ => valueOf? os 'b' with
    | some f, _ => read f byFields
    | none, some c => read c byOctets
    | none, none => s.misuse 1 "you must specify a list of bytes, characters, or fields"

/-! ## Programs without input -/

/-- Print words. -/
def echo : Program := fun s => printed (Format.echoedByProgram s.args) false

/-- Print with a format. -/
def printf : Program := fun s =>
  let args := match s.args with
    | ['-', '-'] :: args => args
    | args => args
  match args with
  | [] => s.misuse 1 "missing operand"
  | format :: args =>
    let p := Format.fillAll .program format args.length args
    let complaint := p.complaints.flatMap fun c => s.name ++ ": ".toList ++ c ++ ['\n']
    ⟨if complaint.isEmpty then 0 else 1, p.output, complaint, false, []⟩

/-- Numbers in a row, one a line. -/
def seq : Program := fun s =>
  let run (first step last : Int) : Outcome :=
    let n : Int := if step = 0 then 0 else (last - first) / step
    let upTo := if n < 0 || step = 0 then 0 else n.toNat + 1
    printed ((List.range upTo).flatMap fun (i : Nat) => (toString (first + step * (i : Int))).toList ++ ['\n']) false
  let number? (os : Octets) : Option Int := match os with
    | '-' :: ds => (natural? ds).map fun n => -(n : Int)
    | ds => (natural? ds).map fun n => (n : Int)
  match s.args.mapM number? with
  | some [last] => run 1 1 last
  | some [first, last] => run first 1 last
  | some [first, step, last] => run first step last
  | some [] => s.misuse 1 "missing operand"
  | _ => s.misuse 1 ("invalid floating point argument: " ++ quoted (s.args.headD []))

/-- The last part of a path, without an ending that may be given. -/
def basename : Program := fun s =>
  match s.args with
  | [] => s.misuse 1 "missing operand"
  | path :: more =>
    let trimmed := (path.reverse.dropWhile (· = '/')).reverse
    let name := (trimmed.reverse.takeWhile (· ≠ '/')).reverse
    let name := if trimmed.isEmpty && !path.isEmpty then ['/'] else name
    let ending := more.headD []
    let name := if !ending.isEmpty && ending.isSuffixOf name && ending ≠ name then
        name.take (name.length - ending.length) else name
    printed (name ++ ['\n']) false

/-- A path without its last part. -/
def dirname : Program := fun s =>
  match s.args with
  | [] => s.misuse 1 "missing operand"
  | path :: _ =>
    let trimmed := (path.reverse.dropWhile (· = '/')).reverse
    let front := ((trimmed.reverse.dropWhile (· ≠ '/')).dropWhile (· = '/')).reverse
    let shown : Octets := if !front.isEmpty then front else if path.head? = some '/' then ['/'] else ['.']
    printed (shown ++ ['\n']) false

/-! ## Sixty-four letters -/

/-- The letters that stand for six bits each. -/
def alphabet : List Char :=
  "ABCDEFGHIJKLMNOPQRSTUVWXYZabcdefghijklmnopqrstuvwxyz0123456789+/".toList

/-- Three octets as four letters. -/
def encoded64 : Octets → Octets
  | a :: b :: c :: rest =>
    let n := a.toNat * 65536 + b.toNat * 256 + c.toNat
    letter (n / 262144) :: letter (n / 4096) :: letter (n / 64) :: letter n :: encoded64 rest
  | [a, b] =>
    let n := a.toNat * 65536 + b.toNat * 256
    [letter (n / 262144), letter (n / 4096), letter (n / 64), '=']
  | [a] => [letter (a.toNat * 65536 / 262144), letter (a.toNat * 65536 / 4096), '=', '=']
  | [] => []
where
  /-- The letter for the lowest six bits. -/
  letter (n : Nat) : Char := alphabet.getD (n % 64) 'A'

/-- The octets of letters, four by four. -/
def decoded64? : Octets → Option Octets
  | a :: b :: c :: d :: rest => do
    let i ← alphabet.idxOf? a
    let j ← alphabet.idxOf? b
    let octets (n : Nat) : Octets := [Char.ofNat (n / 65536 % 256), Char.ofNat (n / 256 % 256), Char.ofNat (n % 256)]
    let n := i * 262144 + j * 4096
    if c = '=' then if d = '=' && rest.isEmpty then some ((octets n).take 1) else none
    else
      let k ← alphabet.idxOf? c
      if d = '=' then if rest.isEmpty then some ((octets (n + k * 64)).take 2) else none
      else
        let l ← alphabet.idxOf? d
        return octets (n + k * 64 + l) ++ (← decoded64? rest)
  | [] => some []
  | _ => none

/-- Lines of at most so many octets. -/
def wrapped (width : Nat) : Nat → Octets → Octets
  | 0, os => os
  | fuel + 1, os =>
    if os.isEmpty then [] else os.take width ++ '\n' :: wrapped width fuel (os.drop width)

/-- Octets as letters, or back. -/
def base64 : Program := fun s =>
  s.parsed "di" "w" 1 fun os files =>
    let (texts, complaints, tookInput) := s.sources files missing
    let text := texts.flatten
    if !complaints.isEmpty then ⟨1, [], complaints, tookInput, []⟩
    else if isGiven os 'd' then
      match decoded64? (text.filter (· ≠ '\n')) with
      | some decoded => ⟨0, decoded, [], tookInput, []⟩
      | none => ⟨1, [], s.name ++ ": invalid input\n".toList, tookInput, []⟩
    else
      let letters := encoded64 text
      match (valueOf? os 'w').bind natural? with
      | some 0 => ⟨0, letters, [], tookInput, []⟩
      | some width => ⟨0, wrapped width letters.length letters, [], tookInput, []⟩
      | none => ⟨0, wrapped 76 letters.length letters, [], tookInput, []⟩

end Utility

end Orrery
