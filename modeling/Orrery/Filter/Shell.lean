import Orrery.Filter.Calculation
import Orrery.Filter.Glob
import Orrery.Filter.Script
import Orrery.Filter.Utility.Edit
import Orrery.Filter.Utility.Search
import Orrery.Filter.Utility.Test
import Orrery.Filter.Utility.Translate

/-!
# Carrying out scripts

A script is carried out on a `Shell`: parameters, the input that is left, where the outputs lead, and
what was printed so far.  A command is a function from one state to the next, so a script is a function
of its input like any other program.

Outputs are kept in numbered streams: the first is the output, the second takes the complaints, and every
pipe and every script whose output is wanted opens another for its time.  Something that runs on its own,
such as one end of a pipe, works on a copy of the state, of which streams, files and the input come back
(`Shell.rejoin`).

Everything that can go on for ever takes fuel.
-/

namespace Orrery

/-- Whether the commands that follow are carried out. -/
inductive Flow where
  /-- They are. -/
  | going
  /-- Some loops are left. -/
  | leaving (loops : Nat)
  /-- Some loops are left, and the next one out goes on. -/
  | skipping (loops : Nat)
  /-- A command of one's own is left. -/
  | returning
  /-- The script has come to its end. -/
  | ended
  /-- A signal has ended the script. -/
  | killed (signal : Nat)
  deriving DecidableEq

/-- Where an output leads. -/
inductive Sink where
  /-- To a stream. -/
  | stream (n : Nat)
  /-- To a file. -/
  | file (path : Octets)
  /-- Nowhere. -/
  | nowhere
  deriving DecidableEq

/-- The state of a script. -/
structure Shell where
  /-- The name under which it reports. -/
  name : Octets
  /-- Whether `echo` leaves backslashes as they are. -/
  plainEcho : Bool
  /-- Its arguments. -/
  args : List Octets
  /-- The variables. -/
  vars : Calculation.Bindings
  /-- The commands of its own. -/
  functions : List (Octets × Script.Command)
  /-- The input that is left. -/
  input : Octets
  /-- What was printed. -/
  streams : List Octets
  /-- Where the output leads. -/
  output : Sink
  /-- Where complaints lead. -/
  complaint : Sink
  /-- The files that were made. -/
  files : List (Octets × Octets)
  /-- The status of the last command. -/
  status : Nat
  /-- The status of the last script whose output was wanted by the present command. -/
  inner : Option Nat
  /-- Whether what follows is carried out. -/
  flow : Flow
  /-- Whether a failure ends the script. -/
  strict : Bool
  /-- Whether a variable without a value is an error. -/
  demanding : Bool

/-- A part of what a word stands for. -/
inductive Atom where
  /-- An octet; whether it was quoted, and whether the word may be split there. -/
  | octet (c : Char) (quoted soft : Bool)
  /-- A word is here even if it is empty. -/
  | mark
  /-- A word that is empty so far is none. -/
  | unmark
  /-- One word ends and another begins. -/
  | cut
  deriving DecidableEq

namespace Shell

/-! ## Reports and files -/

/-- The number under which a script can send itself signals. -/
def ownNumber : Octets := "4242".toList

/-- The state before the first command. -/
def start (name : Octets) (args : List Octets) (input : Octets) (files : List (Octets × Octets)) : Shell where
  name
  plainEcho := false
  args
  vars := []
  functions := []
  input
  streams := [[], []]
  output := .stream 0
  complaint := .stream 1
  files
  status := 0
  inner := none
  flow := .going
  strict := false
  demanding := false

/-- The contents of a file. -/
def fileOf? (files : List (Octets × Octets)) (path : Octets) : Option Octets :=
  if path = "/dev/null".toList then some [] else (files.find? fun f => f.1 = path).map (·.2)

/-- Put a text into a file. -/
def store (files : List (Octets × Octets)) (path text : Octets) : List (Octets × Octets) :=
  (path, text) :: files.filter fun f => f.1 ≠ path

/-- Print on an output. -/
def emit (s : Shell) (sink : Sink) (os : Octets) : Shell :=
  match sink with
  | .stream n => { s with streams := s.streams.modify n (· ++ os) }
  | .file path => { s with files := store s.files path ((fileOf? s.files path).getD [] ++ os) }
  | .nowhere => s

/-- Print on the output. -/
def print (s : Shell) (os : Octets) : Shell := s.emit s.output os

/-- Complain about something in a line. -/
def report (s : Shell) (line : Nat) (text : Octets) : Shell :=
  s.emit s.complaint (s.name ++ ": ".toList ++ (toString line).toList ++ ": ".toList ++ text ++ ['\n'])

/-- Complain and go on with a status. -/
def fail (s : Shell) (line status : Nat) (text : String) : Shell :=
  { s.report line text.toList with status }

/-- Complain and come to the end. -/
def abort (s : Shell) (line : Nat) (text : Octets) : Shell :=
  { s.report line text with status := 2, flow := .ended }

/-- Whether what follows is carried out. -/
def isGoing (s : Shell) : Bool := s.flow = .going

/-- The state after something ran on its own. -/
def rejoin (s own : Shell) : Shell :=
  { s with
    streams := own.streams
    files := own.files
    input := own.input
    status := own.status
    flow := match own.flow with
      | .killed n => .killed n
      | _ => s.flow }

/-- End the script after a failure that was not asked for. -/
def check (s : Shell) (tested : Bool) : Shell :=
  if s.strict && !tested && s.isGoing && s.status ≠ 0 then { s with flow := .ended } else s

/-! ## Parameters -/

/-- Set a variable. -/
def bind (s : Shell) (name value : Octets) : Shell :=
  { s with vars := (name, value) :: s.vars.filter fun v => v.1 ≠ name }

/-- Forget a variable. -/
def unbind (s : Shell) (name : Octets) : Shell := { s with vars := s.vars.filter fun v => v.1 ≠ name }

/-- The value of a parameter, if it has one. -/
def value? (s : Shell) (name : Octets) : Option Octets :=
  match name with
  | ['?'] => some (Nat.toDigits 10 s.status)
  | ['#'] => some (Nat.toDigits 10 s.args.length)
  | ['$'] => some ownNumber
  | ['-'] => some []
  | ['!'] => none
  | ['@'] | ['*'] => if s.args.isEmpty then none else some (Format.spaced s.args)
  | ['0'] => some s.name
  | c :: _ =>
    if c.isDigit then s.args[Format.number 10 name - 1]? else Calculation.lookup? s.vars name
  | [] => none

/-- The octets at which words are split. -/
def separators (s : Shell) : Octets := (Calculation.lookup? s.vars "IFS".toList).getD [' ', '\t', '\n']

/-- Octets that may not be split. -/
def firm (quoted : Bool) (os : Octets) : List Atom := os.map fun c => .octet c quoted false

/-- Octets that may be split unless they were quoted. -/
def loose (quoted : Bool) (os : Octets) : List Atom := os.map fun c => .octet c quoted (!quoted)

/-- The text that atoms make. -/
def text (as : List Atom) : Octets :=
  as.filterMap fun
    | .octet c _ _ => some c
    | .cut => some ' '
    | _ => none

/-- The pattern that atoms make. -/
def pattern (as : List Atom) : Glob.Pattern :=
  as.filterMap fun
    | .octet c quoted _ => some (c, quoted)
    | _ => none

/-- The words that atoms make: `word` is the one that is being gathered, last octet first. -/
def fields (separators : Octets) (word : Option Octets) : List Atom → List Octets
  | [] => (word.map List.reverse).toList
  | .octet c _ soft :: rest =>
    if soft && separators.contains c then
      match word with
      | some w => w.reverse :: fields separators none rest
      | none =>
        if Utility.isBlank c then fields separators none rest else [] :: fields separators none rest
    else fields separators (some (c :: word.getD [])) rest
  | .mark :: rest => fields separators (some (word.getD [])) rest
  | .unmark :: rest => fields separators (word.filter fun w => !w.isEmpty) rest
  | .cut :: rest =>
    match word with
    | some w => w.reverse :: fields separators none rest
    | none => fields separators none rest

/-- All arguments as one parameter: quoted they stay as they are, and a star makes one word of them. -/
def allArgs (s : Shell) (star quoted : Bool) : List Atom :=
  if quoted && star then firm true ((s.separators.take 1).intercalate s.args)
  else if quoted && s.args.isEmpty then [.unmark]
  else ([Atom.cut]).intercalate (s.args.map fun a => (if quoted then [.mark] else []) ++ loose quoted a)

/-! ## Commands of the language -/

/-- A line of the input, its octets with a mark if a backslash protects them; whether it had an end; and
the rest. -/
def takeLine (raw : Bool) : Octets → List (Char × Bool) × Bool × Octets
  | [] => ([], false, [])
  | '\n' :: rest => ([], true, rest)
  | '\\' :: c :: rest =>
    if raw then
      let (line, closed, rest) := takeLine raw (c :: rest)
      (('\\', false) :: line, closed, rest)
    else
      let (line, closed, rest) := takeLine raw rest
      (if c = '\n' then line else (c, true) :: line, closed, rest)
  | c :: rest =>
    let (line, closed, rest) := takeLine raw rest
    if c = '\\' && !raw then (line, closed, rest) else ((c, false) :: line, closed, rest)

/-- Put the words of a line into variables; the last takes all that is left. -/
def assign (s : Shell) (line : List (Char × Bool)) : List Octets → Shell
  | [] => s
  | [name] =>
    let blank (x : Char × Bool) : Bool := !x.2 && Utility.isBlank x.1 && s.separators.contains x.1
    let line := ((line.dropWhile blank).reverse.dropWhile blank).reverse
    s.bind name (line.map (·.1))
  | name :: names =>
    let isSeparator (x : Char × Bool) : Bool := !x.2 && s.separators.contains x.1
    let blank (x : Char × Bool) : Bool := isSeparator x && Utility.isBlank x.1
    let line := line.dropWhile blank
    let word := line.takeWhile fun x => !isSeparator x
    let rest := (line.drop word.length).dropWhile blank
    let rest := match rest with
      | x :: more => if isSeparator x then more else x :: more
      | [] => []
    assign (s.bind name (word.map (·.1))) rest names

/-- Names and numbers of signals. -/
def signals : List (String × Nat) :=
  [("HUP", 1), ("INT", 2), ("QUIT", 3), ("ILL", 4), ("TRAP", 5), ("ABRT", 6), ("BUS", 7), ("FPE", 8),
   ("KILL", 9), ("USR1", 10), ("SEGV", 11), ("USR2", 12), ("PIPE", 13), ("ALRM", 14), ("TERM", 15),
   ("STKFLT", 16), ("CHLD", 17), ("CONT", 18), ("STOP", 19), ("TSTP", 20), ("TTIN", 21), ("TTOU", 22),
   ("URG", 23), ("XCPU", 24), ("XFSZ", 25), ("VTALRM", 26), ("PROF", 27), ("WINCH", 28), ("IO", 29),
   ("PWR", 30), ("SYS", 31)]

/-- Signals that change nothing for a script. -/
def isHarmless (n : Nat) : Bool := [0, 17, 18, 19, 20, 21, 22, 23, 28].contains n

/-- The number of a signal. -/
def signal? (os : Octets) : Option Nat :=
  match Utility.natural? os with
  | some n => if n ≤ 64 then some n else none
  | none =>
    let name := String.ofList (os.map Char.toUpper)
    (signals.find? fun e => e.1 = name || "SIG" ++ e.1 = name).map (·.2)

/-- Send a signal. -/
def kill (s : Shell) (line : Nat) (args : List Octets) : Shell :=
  let send (signal : Octets) (targets : List Octets) : Shell :=
    match signal? signal with
    | none => s.fail line 2 ("kill: invalid signal number or name: " ++ String.ofList signal)
    | some n =>
      if targets.isEmpty then
        s.fail line 2 "kill: Usage: kill [-s sigspec | -signum | -sigspec] [pid | job]... or\nkill -l [exitstatus]"
      else if targets.all (· = ownNumber) then
        if isHarmless n then { s with status := 0 } else { s with flow := .killed n }
      else s.fail line 1 "kill: No such process"
  match args with
  | ['-', 's'] :: signal :: targets => send signal targets
  | ('-' :: signal) :: targets => send signal targets
  | targets => send "TERM".toList targets

/-- Take options such as `-e` and `+u`, then arguments. -/
def setOptions (s : Shell) (line : Nat) : List Octets → Shell
  | [] => { s with status := 0 }
  | ['-', '-'] :: args => { s with args, status := 0 }
  | [_, 'o'] :: _ :: rest => setOptions s line rest
  | (sign :: letters) :: rest =>
    if (sign = '-' || sign = '+') && !letters.isEmpty then
      match letters.find? fun c => !("aefmnuvxCb".toList.contains c) with
      | some c => s.abort line ("set: Illegal option ".toList ++ [sign, c])
      | none =>
        let s := if letters.contains 'e' then { s with strict := sign = '-' } else s
        let s := if letters.contains 'u' then { s with demanding := sign = '-' } else s
        setOptions s line rest
    else { s with args := (sign :: letters) :: rest, status := 0 }
  | args => { s with args, status := 0 }

/-- End with a status, which is the last one unless a number is given. -/
def leave (s : Shell) (line : Nat) (what : String) (flow : Flow) : List Octets → Shell
  | [] => { s with flow }
  | n :: _ =>
    match Utility.natural? n with
    | some n => { s with flow, status := n % 256 }
    | none => s.abort line ((what ++ ": Illegal number: ").toList ++ n)

/-- Set variables that are given as `name=value`. -/
def setGiven (s : Shell) (words : List Octets) : Shell :=
  words.foldl (fun s w =>
    let name := w.takeWhile (· ≠ '=')
    match w.drop name.length with
    | '=' :: value => s.bind name value
    | _ => s) { s with status := 0 }

/-- A test in brackets or by name. -/
def test (s : Shell) (line : Nat) (name : String) (args : List Octets) : Shell :=
  let (args, closed) := if name = "[" then (args.dropLast, decide (args.getLast? = some [']'])) else (args, true)
  if !closed then s.fail line 2 (name ++ ": missing ]")
  else
    match Test.run (fileOf? s.files) args with
    | (status, none) => { s with status }
    | (status, some text) => s.fail line status (name ++ ": " ++ String.ofList text)

/-- Print with a format. -/
def printFormat (s : Shell) (line : Nat) (args : List Octets) : Shell :=
  match args with
  | ['-', '-'] :: args | args =>
    match args with
    | [] => s.fail line 2 "printf: usage: printf format [arg ...]"
    | format :: args =>
      let p := Format.fillAll .command format args.length args
      let s := p.complaints.foldl (fun s c => s.report line ("printf: ".toList ++ c)) s
      { s.print p.output with
        status := if p.failed then 2 else if p.complaints.isEmpty then 0 else 1 }

/-- The commands that belong to the language and need no other command. -/
def builtin? (s : Shell) (line : Nat) (name : String) (args : List Octets) : Option Shell :=
  let ok := { s with status := 0 }
  match name with
  | ":" | "true" | "cd" | "wait" | "trap" | "umask" | "ulimit" | "alias" | "hash" | "times" => some ok
  | "false" => some { s with status := 1 }
  | "echo" =>
    some (ok.print (if s.plainEcho then Format.echoedByProgram args else Format.echoed args))
  | "printf" => some (s.printFormat line args)
  | "test" | "[" => some (s.test line name args)
  | "exit" => some (s.leave line name .ended args)
  | "return" => some (s.leave line name .returning args)
  | "break" => some { ok with flow := .leaving ((Utility.natural? (args.headD [])).getD 1) }
  | "continue" => some { ok with flow := .skipping ((Utility.natural? (args.headD [])).getD 1) }
  | "shift" =>
    let n := (Utility.natural? (args.headD [])).getD 1
    if s.args.length < n then some (s.abort line "shift: can't shift that many".toList)
    else some { ok with args := s.args.drop n }
  | "set" => some (s.setOptions line args)
  | "export" | "readonly" | "local" => some (s.setGiven args)
  | "unset" => some (args.foldl (fun s n => s.unbind n) ok)
  | "kill" => some (s.kill line args)
  | "read" =>
    let names := args.filter fun a => a ≠ ['-', 'r']
    if names.isEmpty then some (s.fail line 2 "read: arg count")
    else
      let (text, closed, rest) := takeLine (args.contains ['-', 'r']) s.input
      some ({ s with input := rest, status := if closed then 0 else 1 }.assign text names)
  | _ => none

/-! ## Programs -/

/-- The programs that can be started. -/
def programs : List (String × Utility.Program) :=
  [("cat", Utility.cat), ("tee", Utility.tee), ("head", Utility.head), ("tail", Utility.tail),
   ("rev", Utility.rev), ("tac", Utility.tac), ("sort", Utility.sort), ("uniq", Utility.uniq),
   ("wc", Utility.wc), ("cut", Utility.cut), ("tr", Utility.tr), ("grep", Utility.grep),
   ("sed", Utility.sed), ("echo", Utility.echo), ("printf", Utility.printf), ("seq", Utility.seq),
   ("basename", Utility.basename), ("dirname", Utility.dirname), ("base64", Utility.base64),
   ("true", fun _ => Utility.printed [] false), ("false", fun _ => ⟨1, [], [], false, []⟩),
   ("sleep", fun _ => Utility.printed [] false)]

/-- The name of a program without the directories in which programs lie. -/
def programName (name : Octets) : Octets :=
  match ["/usr/bin/", "/bin/"].find? fun d => d.toList.isPrefixOf name with
  | some d => name.drop d.length
  | none => name

/-- What a started program leaves behind. -/
structure Finished where
  /-- How it ended. -/
  ending : Utility.Ending
  /-- What it printed. -/
  output : Octets
  /-- What it complained about. -/
  complaint : Octets
  /-- The input that is left. -/
  input : Octets
  /-- The files there are. -/
  files : List (Octets × Octets)

/-- What is left when a script has come to its end. -/
def finished (s : Shell) : Finished :=
  ⟨match s.flow with
    | .killed n => .signal n
    | _ => .status s.status,
   s.streams.getD 0 [], s.streams.getD 1 [], s.input, s.files⟩

/-- The arguments of a program that starts another, without the program's own. -/
def wrapped (name : String) (args : List Octets) : List Octets :=
  match name with
  | "env" => args.dropWhile fun a => a.contains '=' || a = ['-', 'i'] || a = ['-']
  | "timeout" => (args.dropWhile fun a => a.head? = some '-').drop 1
  | "nice" => if args.head? = some ['-', 'n'] then args.drop 2 else args.dropWhile fun a => a.head? = some '-'
  | _ => args.dropWhile fun a => a.head? = some '-'

/-- The variables that `env` sets. -/
def wrappedVars (name : String) (args : List Octets) : Calculation.Bindings :=
  if name = "env" then
    ((args.takeWhile fun a => a.contains '=' || a = ['-', 'i'] || a = ['-']).filter (·.contains '=')).map
      fun a => (a.takeWhile (· ≠ '='), (a.dropWhile (· ≠ '=')).drop 1)
  else []

mutual

/-- Start a program, if there is one of that name. -/
def launch (vars : Calculation.Bindings) (files : List (Octets × Octets)) (name : Octets) :
    Nat → List Octets → Octets → Option Finished
  | 0, _, _ => none
  | fuel + 1, args, input =>
    let short := String.ofList (programName name)
    if short = "sh" || short = "dash" || short = "bash" then
      some (interpreter vars files name (short = "bash") fuel args input)
    else if short = "test" || short = "[" then
      let s := (start name [] input files).test 0 short args
      some ⟨.status s.status, [], s.streams.getD 1 [], input, files⟩
    else if ["env", "nice", "nohup", "timeout", "setsid", "stdbuf"].contains short then
      match wrapped short args with
      | [] => some ⟨.status (if short = "env" then 0 else 125), [], [], input, files⟩
      | inner :: rest =>
        match launch (wrappedVars short args ++ vars) files inner fuel rest input with
        | some r => some r
        | none =>
          let text := name ++ ": '".toList ++ inner ++ "': No such file or directory\n".toList
          some ⟨.status 127, [], text, input, files⟩
    else
      (programs.find? fun p => p.1 = short).map fun p =>
        let r := p.2 ⟨name, args, input, fileOf? files⟩
        ⟨.status r.status, r.output, r.complaint, if r.tookInput then [] else input,
         r.files.foldl (fun fs f => store fs f.1 f.2) files⟩
termination_by structural fuel _ _ => fuel

/-- The interpreter of scripts as a program: options, then a script, its name and its arguments; or a
script from the input. -/
def interpreter (vars : Calculation.Bindings) (files : List (Octets × Octets)) (name : Octets)
    (plainEcho : Bool) : Nat → List Octets → Octets → Finished
  | 0, _, input => ⟨.status 2, [], [], input, files⟩
  | fuel + 1, args, input =>
    let flags := args.takeWhile fun a => a.head? = some '-' && 1 < a.length && a ≠ ['-', '-']
    let letters := flags.flatMap (·.drop 1)
    let operands := match args.drop flags.length with
      | ['-', '-'] :: rest => rest
      | rest => rest
    let strict := letters.contains 'e'
    let demanding := letters.contains 'u'
    let fresh (name : Octets) (args : List Octets) (input : Octets) : Shell :=
      { start name args input files with vars, plainEcho, strict, demanding }
    match letters.contains 'c', operands with
    | true, script :: operands =>
      (source fuel script (fresh (operands.headD name) (operands.drop 1) input)).finished
    | true, [] =>
      ((start name [] input files).fail 0 2 "-c requires an argument").finished
    | false, file :: operands =>
      match fileOf? files file with
      | some script => (source fuel script (fresh file operands input)).finished
      | none =>
        ((start name [] input files).fail 0 2
          ("cannot open " ++ String.ofList file ++ ": No such file")).finished
    | false, [] => (source fuel input (fresh name [] [])).finished
termination_by structural fuel _ _ => fuel

/-- Carry out a script line by line. -/
def source : Nat → Octets → Shell → Shell
  | 0, _, s => { s with flow := .ended }
  | fuel + 1, script, s => lines fuel (script.count '\n') script s
termination_by structural fuel _ _ => fuel

/-- Carry out the lines that are left of a script. -/
def lines : Nat → Nat → Octets → Shell → Shell
  | 0, _, _, s => { s with flow := .ended }
  | fuel + 1, total, script, s =>
    if !s.isGoing then s
    else
      match Script.line total script with
      | .error e => s.abort e.line ("Syntax error: " ++ e.text).toList
      | .ok none => s
      | .ok (some (c, rest)) => lines fuel total rest (run fuel false c s)
termination_by structural fuel _ _ _ => fuel

/-- What a piece of a word stands for; `soft` says whether its own octets may be split. -/
def piece : Nat → Nat → Bool → Script.Piece → Shell → List Atom × Shell
  | 0, _, _, _, s => ([], { s with flow := .ended })
  | fuel + 1, line, soft, p, s =>
    match p with
    | .literal os quoted =>
      if quoted then (.mark :: firm true os, s)
      else (os.map fun c => .octet c false soft, s)
    | .output script quoted =>
      let n := s.streams.length
      let own := run fuel false script { s with streams := s.streams ++ [[]], output := .stream n }
      let os := (own.streams.getD n []).filter (· ≠ '\x00')
      let os := (os.reverse.dropWhile (· = '\n')).reverse
      let s := { s.rejoin own with streams := own.streams.take n, inner := some own.status }
      (loose quoted os, s)
    | .calculation w quoted =>
      let (as, s) := word fuel line false w s
      let expression := text as
      match Calculation.value s.vars expression with
      | .ok (n, vars) => (loose quoted (toString n).toList, { s with vars })
      | .error e =>
        let cause := match e with
          | .divisionByZero => "division by zero"
          | .wanted what => "expecting " ++ what
        ([], s.abort line (("arithmetic expression: " ++ cause ++ ": \"").toList ++ expression ++ ['"']))
    | .parameter name use w quoted =>
      let value := s.value? name
      let isThere (countsEmpty : Bool) : Bool := value.any fun v => !(countsEmpty && v.isEmpty)
      let whole : List Atom :=
        if name = ['@'] || name = ['*'] then s.allArgs (name = ['*']) quoted
        else loose quoted (value.getD [])
      let unset (s : Shell) : Shell := s.abort line (name ++ ": parameter not set".toList)
      let trim (f : Glob.Pattern → Octets → Octets) : List Atom × Shell :=
        let (as, s) := word fuel line false w s
        (loose quoted (f (pattern as) (value.getD [])), s)
      let substitute (s : Shell) : List Atom × Shell :=
        let (as, s) := word fuel line (!quoted) w s
        (if quoted then firm true (text as) else as, s)
      match use with
      | .plain =>
        if s.demanding && value.isNone && name ≠ ['@'] && name ≠ ['*'] then ([], unset s) else (whole, s)
      | .length => (loose quoted (Nat.toDigits 10 (value.getD []).length), s)
      | .fallback empty => if isThere empty then (whole, s) else substitute s
      | .instead empty => if isThere empty then substitute s else ([], s)
      | .assign empty =>
        if isThere empty then (whole, s)
        else
          let (as, s) := word fuel line false w s
          (loose quoted (text as), s.bind name (text as))
      | .demand empty =>
        if isThere empty then (whole, s)
        else
          let (as, s) := word fuel line false w s
          if w.isEmpty then ([], unset s) else ([], s.abort line (name ++ ": ".toList ++ text as))
      | .front longest => trim fun p v => Glob.dropFront p longest v
      | .back longest => trim fun p v => Glob.dropBack p longest v
termination_by structural fuel _ _ _ _ => fuel

/-- What a word stands for. -/
def word : Nat → Nat → Bool → List Script.Piece → Shell → List Atom × Shell
  | 0, _, _, _, s => ([], { s with flow := .ended })
  | _, _, _, [], s => ([], s)
  | fuel + 1, line, soft, p :: rest, s =>
    let (as, s) := piece fuel line soft p s
    let (bs, s) := word fuel line soft rest s
    (as ++ bs, s)
termination_by structural fuel _ _ _ _ => fuel

/-- The words that words stand for. -/
def expand : Nat → Nat → List (List Script.Piece) → Shell → List Octets × Shell
  | 0, _, _, s => ([], { s with flow := .ended })
  | _, _, [], s => ([], s)
  | fuel + 1, line, w :: rest, s =>
    let (as, s) := word fuel line false w s
    let (more, t) := expand fuel line rest s
    (fields s.separators none as ++ more, t)
termination_by structural fuel _ _ _ => fuel

/-- Set variables. -/
def settings : Nat → Nat → List (Octets × List Script.Piece) → Shell → Shell
  | 0, _, _, s => { s with flow := .ended }
  | _, _, [], s => s
  | fuel + 1, line, (name, w) :: rest, s =>
    let (as, s) := word fuel line false w s
    settings fuel line rest (s.bind name (text as))
termination_by structural fuel _ _ _ => fuel

/-- Lead channels elsewhere; if one cannot, the state has a status other than zero. -/
def channels : Nat → Nat → List Script.Redirection → Shell → Except Shell Shell
  | 0, _, _, s => .error { s with flow := .ended }
  | _, _, [], s => .ok s
  | fuel + 1, line, .mk channel way target :: rest, s =>
    let (as, s) := word fuel line false target s
    let path := text as
    let lead (s : Shell) (sink : Sink) : Shell :=
      if channel = 1 then { s with output := sink } else if channel = 2 then { s with complaint := sink } else s
    match way with
    | .document => channels fuel line rest { s with input := path }
    | .input =>
      match fileOf? s.files path with
      | some os => channels fuel line rest { s with input := os }
      | none => .error (s.fail line 2 ("cannot open " ++ String.ofList path ++ ": No such file"))
    | .same =>
      match path with
      | ['1'] => channels fuel line rest (lead s s.output)
      | ['2'] => channels fuel line rest (lead s s.complaint)
      | ['-'] => channels fuel line rest (if channel = 0 then { s with input := [] } else lead s .nowhere)
      | _ => channels fuel line rest s
    | .output append =>
      let name := String.ofList path
      if name = "/dev/null" then channels fuel line rest (lead s .nowhere)
      else if name = "/dev/stdout" then channels fuel line rest (lead s s.output)
      else if name = "/dev/stderr" then channels fuel line rest (lead s s.complaint)
      else if path.isEmpty || (path.contains '/' && !("/tmp/".toList.isPrefixOf path) && !("./".toList.isPrefixOf path)) then
        .error (s.fail line 2 ("cannot create " ++ name ++ ": Directory nonexistent"))
      else
        let s := if append && (fileOf? s.files path).isSome then s
          else { s with files := store s.files path [] }
        channels fuel line rest (lead s (.file path))
termination_by structural fuel _ _ _ => fuel

/-- Carry out something while channels lead elsewhere. -/
def within : Nat → Nat → List Script.Redirection → Bool → Script.Command → Shell → Shell
  | 0, _, _, _, _, s => { s with flow := .ended }
  | fuel + 1, line, rs, tested, body, s =>
    match channels fuel line rs s with
    | .error t => { t with output := s.output, complaint := s.complaint, input := s.input, status := 2 }
    | .ok t =>
      let isFed := rs.any fun
        | .mk 0 _ _ => true
        | _ => false
      let u := run fuel tested body t
      { u with output := s.output, complaint := s.complaint, input := if isFed then s.input else u.input }
termination_by structural fuel _ _ _ _ _ => fuel

/-- Carry out a command that is given by its words. -/
def invoke : Nat → Nat → List Octets → Shell → Shell
  | 0, _, _, s => { s with flow := .ended }
  | _, _, [], s => s
  | fuel + 1, line, name :: args, s =>
    let short := String.ofList name
    match s.functions.find? fun f => f.1 = name with
    | some (_, body) =>
      let t := run fuel false body { s with args }
      { t with
        args := s.args
        flow := if t.flow = .returning then .going else t.flow }
    | none =>
      match s.builtin? line short args with
      | some t => t
      | none =>
        match short with
        | "eval" => lines fuel (((Format.spaced args).count '\n')) (Format.spaced args) { s with status := 0 }
        | "command" =>
          if args.head? = some ['-', 'v'] then
            let wanted := (args.drop 1).headD []
            if (s.builtin? line (String.ofList wanted) []).isSome then { s.print (wanted ++ ['\n']) with status := 0 }
            else if programs.any fun p => p.1.toList = wanted then
              { s.print ("/usr/bin/".toList ++ wanted ++ ['\n']) with status := 0 }
            else { s with status := 127 }
          else invoke fuel line args { s with functions := [] }
        | "exec" =>
          if args.isEmpty then { s with status := 0 }
          else
            let t := invoke fuel line args { s with functions := [] }
            if t.isGoing then { t with flow := .ended } else t
        | _ =>
          match launch s.vars s.files name fuel args s.input with
          | some r =>
            let s := { s with input := r.input, files := r.files }
            let s := (s.emit s.complaint r.complaint).print r.output
            match r.ending with
            | .status n => { s with status := n }
            | .signal n => { s with status := 128 + n }
          | none => s.fail line 127 (short ++ ": not found")
termination_by structural fuel _ _ _ => fuel

/-- Carry out a command.  If its outcome is `tested`, a failure does not end a strict script. -/
def run : Nat → Bool → Script.Command → Shell → Shell
  | 0, _, _, s => { s with flow := .ended }
  | fuel + 1, tested, c, s =>
    if !s.isGoing then s
    else
      match c with
      | .nothing => s
      | .simple line sets ws rs =>
        let (words, t) := expand fuel line ws { s with inner := none }
        if !t.isGoing then t
        else if words.isEmpty then
          let t := settings fuel line sets t
          if !t.isGoing then t
          else
            let t := { t with status := t.inner.getD 0 }
            (if rs.isEmpty then t else within fuel line rs tested .nothing t).check tested
        else
          match channels fuel line rs t with
          | .error u => { u with output := s.output, complaint := s.complaint, input := s.input, status := 2 }.check tested
          | .ok u =>
            let isFed := rs.any fun
              | .mk 0 _ _ => true
              | _ => false
            let before := sets.map fun x => (x.1, Calculation.lookup? u.vars x.1)
            let v := invoke fuel line words (settings fuel line sets u)
            let v := before.foldl (fun v (name, old) =>
              match old with
              | some value => v.bind name value
              | none => v.unbind name) v
            let keepsChannels := words = ["exec".toList]
            if keepsChannels then v
            else
              { v with
                output := s.output
                complaint := s.complaint
                input := if isFed then t.input else v.input }.check tested
      | .pipe first second =>
        let n := s.streams.length
        let a := run fuel false first { s with streams := s.streams ++ [[]], output := .stream n }
        let passed := a.streams.getD n []
        let s := { s.rejoin a with streams := a.streams.take n }
        if !s.isGoing then s
        else
          let b := run fuel tested second { s with input := passed }
          { s.rejoin b with input := s.input }.check tested
      | .negated body =>
        let t := run fuel true body s
        if t.isGoing then { t with status := if t.status = 0 then 1 else 0 } else t
      | .both first second =>
        let t := run fuel true first s
        if t.isGoing && t.status = 0 then run fuel tested second t else t
      | .either first second =>
        let t := run fuel true first s
        if t.isGoing && t.status ≠ 0 then run fuel tested second t else t
      | .sequence first second => run fuel tested second (run fuel tested first s)
      | .isolated body => (s.rejoin (run fuel tested body s)).check tested
      | .redirected body rs => within fuel 1 rs tested body s
      | .choice test yes no =>
        let t := run fuel true test s
        if !t.isGoing then t
        else if t.status = 0 then run fuel tested yes t
        else match no with
          | .nothing => { t with status := 0 }
          | no => run fuel tested no t
      | .loop untilSuccess test body =>
        let t := run fuel true test s
        if !t.isGoing then t
        else if (t.status = 0) = untilSuccess then { t with status := 0 }
        else
          let u := run fuel tested body t
          match u.flow with
          | .going => run fuel tested (.loop untilSuccess test body) u
          | .leaving n => { u with flow := if n ≤ 1 then .going else .leaving (n - 1) }
          | .skipping n =>
            if n ≤ 1 then run fuel tested (.loop untilSuccess test body) { u with flow := .going }
            else { u with flow := .skipping (n - 1) }
          | _ => u
      | .each name ws body =>
        let (words, t) := match ws with
          | some ws => expand fuel 1 ws s
          | none => (s.args, s)
        if t.isGoing then each fuel tested name words body { t with status := 0 } else t
      | .cases w branches =>
        let (as, t) := word fuel 1 false w s
        if t.isGoing then choose fuel tested (text as) branches { t with status := 0 } else t
      | .definition name body =>
        { s with functions := (name, body) :: s.functions.filter fun f => f.1 ≠ name, status := 0 }
termination_by structural fuel _ _ _ => fuel

/-- Carry out a command once for every word. -/
def each : Nat → Bool → Octets → List Octets → Script.Command → Shell → Shell
  | 0, _, _, _, _, s => { s with flow := .ended }
  | _, _, _, [], _, s => s
  | fuel + 1, tested, name, w :: rest, body, s =>
    let t := run fuel tested body (s.bind name w)
    match t.flow with
    | .going => each fuel tested name rest body t
    | .leaving n => { t with flow := if n ≤ 1 then .going else .leaving (n - 1) }
    | .skipping n =>
      if n ≤ 1 then each fuel tested name rest body { t with flow := .going }
      else { t with flow := .skipping (n - 1) }
    | _ => t
termination_by structural fuel _ _ _ _ _ => fuel

/-- Carry out the first case of which a pattern fits. -/
def choose : Nat → Bool → Octets → List (List (List Script.Piece) × Script.Command) → Shell → Shell
  | 0, _, _, _, s => { s with flow := .ended }
  | _, _, _, [], s => s
  | fuel + 1, tested, subject, (patterns, body) :: rest, s =>
    let (isMet, s) := fits fuel subject patterns s
    if isMet then run fuel tested body s else choose fuel tested subject rest s
termination_by structural fuel _ _ _ _ => fuel

/-- Whether one of some patterns fits. -/
def fits : Nat → Octets → List (List Script.Piece) → Shell → Bool × Shell
  | 0, _, _, s => (false, { s with flow := .ended })
  | _, _, [], s => (false, s)
  | fuel + 1, subject, w :: rest, s =>
    let (as, s) := word fuel 1 false w s
    if Glob.isMatch (pattern as) subject then (true, s) else fits fuel subject rest s
termination_by structural fuel _ _ _ => fuel

end

end Shell

end Orrery
