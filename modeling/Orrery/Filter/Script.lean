import Orrery.Text.Utf8

/-!
# Scripts

The language in which filters are put together.  A script is read line by line, where a line goes on as
long as a construct is open; `Script.line` reads one.  What the commands do is said in
`Orrery.Filter.Shell`.

A word is made of pieces, and most of them stand for something else: a parameter, the output of a script,
a calculation.  A piece remembers whether it was quoted, because what a quoted piece stands for is never
split and never a pattern.

The readers return what is left of the text.  A fault is reported with the line in which it was found,
which is counted from the end: `total` is the number of line ends in the whole text.
-/

namespace Orrery

namespace Script

/-- What is done with the value of a parameter.  Where a colon can stand, `empty` says that it does: then
an empty value counts as none. -/
inductive Use where
  /-- It is taken as it is. -/
  | plain
  /-- Its length is taken. -/
  | length
  /-- If there is none, a word stands in for it. -/
  | fallback (empty : Bool)
  /-- If there is none, it is set to a word. -/
  | assign (empty : Bool)
  /-- If there is none, that is an error, which a word describes. -/
  | demand (empty : Bool)
  /-- If there is one, a word stands in for it. -/
  | instead (empty : Bool)
  /-- A pattern is dropped from the front, once or as much as possible. -/
  | front (longest : Bool)
  /-- A pattern is dropped from the back, once or as much as possible. -/
  | back (longest : Bool)
  deriving DecidableEq

/-- Where a channel leads. -/
inductive Way where
  /-- From a file. -/
  | input
  /-- From a text in the script. -/
  | document
  /-- Into a file, from its beginning or behind what is there. -/
  | output (append : Bool)
  /-- To where another channel leads. -/
  | same
  deriving DecidableEq

mutual

/-- A part of a word. -/
inductive Piece where
  /-- Octets that stand for themselves. -/
  | literal (text : Octets) (quoted : Bool)
  /-- A parameter. -/
  | parameter (name : Octets) (use : Use) (word : List Piece) (quoted : Bool)
  /-- The output of a script. -/
  | output (script : Command) (quoted : Bool)
  /-- The value of a calculation. -/
  | calculation (word : List Piece) (quoted : Bool)

/-- A channel that leads elsewhere for the time of a command. -/
inductive Redirection where
  /-- The number of the channel, the way, and the word that says where to. -/
  | mk (channel : Nat) (way : Way) (target : List Piece)

/-- A command. -/
inductive Command where
  /-- Nothing is done. -/
  | nothing
  /-- A line, variables that are set, words of which the first names what is done, and channels. -/
  | simple (line : Nat) (settings : List (Octets × List Piece)) (words : List (List Piece))
      (channels : List Redirection)
  /-- The output of the first is the input of the second. -/
  | pipe (first second : Command)
  /-- Success and failure change places. -/
  | negated (body : Command)
  /-- The second follows if the first succeeds. -/
  | both (first second : Command)
  /-- The second follows if the first fails. -/
  | either (first second : Command)
  /-- The second follows. -/
  | sequence (first second : Command)
  /-- What happens in it stays in it. -/
  | isolated (body : Command)
  /-- Channels lead elsewhere. -/
  | redirected (body : Command) (channels : List Redirection)
  /-- One of two, after a test. -/
  | choice (test yes no : Command)
  /-- Again and again while a test succeeds, or until it does. -/
  | loop (untilSuccess : Bool) (test body : Command)
  /-- Once for every word, or every argument. -/
  | each (name : Octets) (words : Option (List (List Piece))) (body : Command)
  /-- The first of several for which a pattern fits. -/
  | cases (word : List Piece) (branches : List (List (List Piece) × Command))
  /-- A command of one's own. -/
  | definition (name : Octets) (body : Command)

end

/-- The parts of a word. -/
abbrev Word := List Piece

/-- Why a script cannot be read. -/
structure Fault where
  /-- The line. -/
  line : Nat
  /-- What is wrong. -/
  text : String

/-! ## Small parts -/

/-- An octet of a name. -/
def isNameChar (c : Char) : Bool := c.isAlphanum || c = '_'

/-- The name in front. -/
def leadingName (cs : List Char) : Octets :=
  match cs with
  | c :: _ => if c.isDigit then [] else cs.takeWhile isNameChar
  | [] => []

/-- An octet that ends a word. -/
def endsWord (c : Char) : Bool :=
  c = ' ' || c = '\t' || c = '\n' || c = ';' || c = '&' || c = '|' || c = '<' || c = '>' || c = '('
    || c = ')'

/-- Without blanks, continued lines and a comment in front. -/
def skipBlanks (inComment : Bool) : List Char → List Char
  | [] => []
  | '\\' :: '\n' :: rest => if inComment then '\n' :: rest else skipBlanks false rest
  | c :: rest =>
    if inComment then if c = '\n' then c :: rest else skipBlanks true rest
    else if c = ' ' || c = '\t' then skipBlanks false rest
    else if c = '#' then skipBlanks true rest
    else c :: rest

/-- Without blanks in front. -/
def blanks (cs : List Char) : List Char := skipBlanks false cs

/-- Without blanks and line ends in front; every line end takes an octet. -/
def gaps : Nat → List Char → List Char
  | 0, cs => cs
  | fuel + 1, cs =>
    match blanks cs with
    | '\n' :: rest => gaps fuel rest
    | cs => cs

/-- The line of a place, given how many line ends the text has in all. -/
def lineAt (total : Nat) (rest : List Char) : Nat := total + 1 - rest.count '\n'

/-- Words that mean something where a command can start. -/
def reserved : List String :=
  ["!", "\x7b", "\x7d", "if", "then", "elif", "else", "fi", "while", "until", "do", "done", "for", "case",
   "esac"]

/-- The word in front, if it is a reserved one. -/
def reservedWord? (cs : List Char) : Option String :=
  let word := cs.takeWhile fun c => !endsWord c
  let s := String.ofList word
  if reserved.contains s then some s else none

/-- What stands in front, as a report names it. -/
def shown (cs : List Char) : String :=
  match blanks cs with
  | [] => "end of file"
  | '\n' :: _ => "newline"
  | ';' :: ';' :: _ => "\";;\""
  | '&' :: '&' :: _ => "\"&&\""
  | '|' :: '|' :: _ => "\"||\""
  | c :: rest =>
    if c = ';' || c = '&' || c = '|' || c = '(' || c = ')' then "\"" ++ String.ofList [c] ++ "\""
    else if c = '<' || c = '>' then "redirection"
    else match reservedWord? (c :: rest) with
      | some w => "\"" ++ w ++ "\""
      | none => "word"

/-- Something stands where it must not. -/
def unexpected (total : Nat) (cs : List Char) (wanted : String) : Fault :=
  ⟨lineAt total (blanks cs), shown cs ++ " unexpected" ++ wanted⟩

/-- Put an octet in front of the pieces of a word. -/
def consLiteral (c : Char) (quoted : Bool) : Word → Word
  | .literal text q :: rest =>
    if q = quoted then .literal (c :: text) q :: rest else .literal [c] quoted :: .literal text q :: rest
  | rest => .literal [c] quoted :: rest

/-- The text between two back quotes, from behind the first, with the backslashes that belong to it. -/
def backQuoted? (quoted : Bool) : List Char → Option (List Char × List Char)
  | [] => none
  | '\u0060' :: rest => some ([], rest)
  | '\\' :: c :: rest =>
    (backQuoted? quoted rest).map fun (text, rest) =>
      if c = '\\' || c = '\u0060' || c = '$' || (quoted && c = '"') then (c :: text, rest)
      else ('\\' :: c :: text, rest)
  | c :: rest => (backQuoted? quoted rest).map fun (text, rest) => (c :: text, rest)

/-- The text of a calculation, from behind its opening, up to the closing that belongs to it. -/
def calculationText? (depth : Nat) : List Char → Option (List Char × List Char)
  | [] => none
  | ')' :: ')' :: rest =>
    if depth = 0 then some ([], rest)
    else (calculationText? (depth - 1) (')' :: rest)).map fun (text, rest) => (')' :: text, rest)
  | c :: rest =>
    let depth := if c = '(' then depth + 1 else if c = ')' then depth - 1 else depth
    (calculationText? depth rest).map fun (text, rest) => (c :: text, rest)

/-- The use of a parameter from the signs behind its name. -/
def use? : List Char → Option (Use × List Char)
  | ':' :: '-' :: rest => some (.fallback true, rest)
  | ':' :: '=' :: rest => some (.assign true, rest)
  | ':' :: '?' :: rest => some (.demand true, rest)
  | ':' :: '+' :: rest => some (.instead true, rest)
  | '-' :: rest => some (.fallback false, rest)
  | '=' :: rest => some (.assign false, rest)
  | '?' :: rest => some (.demand false, rest)
  | '+' :: rest => some (.instead false, rest)
  | '#' :: '#' :: rest => some (.front true, rest)
  | '#' :: rest => some (.front false, rest)
  | '%' :: '%' :: rest => some (.back true, rest)
  | '%' :: rest => some (.back false, rest)
  | _ => none

/-- A parameter with a sign for a name. -/
def isSpecial (c : Char) : Bool := "@*#?-$!".toList.contains c

/-- The name of a parameter in front. -/
def parameterName (cs : List Char) : Octets :=
  match cs with
  | c :: _ => if c.isDigit then cs.takeWhile Char.isDigit else if isSpecial c then [c] else leadingName cs
  | [] => []

/-- The lines of a document up to one that holds nothing but its end mark; tabs in front may be
dropped. -/
def documentLines (mark : Octets) (tabs : Bool) : Nat → List Char → List Char × List Char
  | 0, cs => ([], cs)
  | _, [] => ([], [])
  | fuel + 1, cs =>
    let cs := if tabs then cs.dropWhile (· = '\t') else cs
    let line := cs.takeWhile (· ≠ '\n')
    let rest := cs.drop (line.length + 1)
    if line = mark then ([], rest)
    else
      let (more, rest) := documentLines mark tabs fuel rest
      (line ++ '\n' :: more, rest)

/-- Put commands in a row. -/
def Command.followedBy : Command → Command → Command
  | .nothing, c => c
  | c, .nothing => c
  | c, d => .sequence c d

/-- A word without quotes, as it stands. -/
def plainText? : Word → Option Octets
  | [] => some []
  | .literal text false :: rest => (plainText? rest).map (text ++ ·)
  | _ => none

/-- A word without its quotes, as it stands; also whether there were any. -/
def unquoted : Word → Octets × Bool
  | [] => ([], false)
  | .literal text q :: rest => let (more, r) := unquoted rest; (text ++ more, q || r)
  | _ :: rest => unquoted rest

/-- A word that sets a variable: its name, and the word for the value. -/
def setting? : Word → Option (Octets × Word)
  | .literal text false :: rest =>
    let name := leadingName text
    match name, text.drop name.length with
    | _ :: _, '=' :: [] => some (name, rest)
    | _ :: _, '=' :: value => some (name, .literal value false :: rest)
    | _, _ => none
  | _ => none

/-- A reserved word that must stand here. -/
def keyword (total : Nat) (name : String) (cs : List Char) : Except Fault (List Char) :=
  let cs := gaps cs.length cs
  if reservedWord? cs = some name then .ok (cs.drop name.length)
  else .error (unexpected total cs (" (expecting \"" ++ name ++ "\")"))

/-! ## The grammar -/

mutual

/-- What stands behind a dollar sign; nothing if the sign stands for itself. -/
def dollar (total : Nat) (quoted : Bool) : Nat → List Char → Except Fault (Option (Piece × List Char))
  | 0, cs => .error ⟨lineAt total cs, "too deep"⟩
  | fuel + 1, cs =>
    match cs with
    | '(' :: '(' :: rest =>
      match calculationText? 0 rest with
      | none => .error ⟨lineAt total [], "Missing '))'"⟩
      | some (text, rest) => do
        let (word, _) ← quotedPieces total false fuel text
        return some (.calculation word quoted, rest)
    | '(' :: rest => do
      let (body, rest) ← list total true fuel rest
      match blanks rest with
      | ')' :: rest => return some (.output body quoted, rest)
      | rest => throw (unexpected total rest " (expecting \")\")")
    | '\x7b' :: rest =>
      match rest with
      | '#' :: more =>
        match parameterName more with
        | [] => braced total quoted fuel rest
        | name =>
          match more.drop name.length with
          | '\x7d' :: rest => .ok (some (.parameter name .length [] quoted, rest))
          | _ => braced total quoted fuel rest
      | _ => braced total quoted fuel rest
    | c :: rest =>
      if c.isDigit || isSpecial c then .ok (some (.parameter [c] .plain [] quoted, rest))
      else
        match leadingName cs with
        | [] => .ok none
        | name => .ok (some (.parameter name .plain [] quoted, cs.drop name.length))
    | [] => .ok none
termination_by structural fuel _ => fuel

/-- A parameter in braces, from behind the opening one. -/
def braced (total : Nat) (quoted : Bool) : Nat → List Char → Except Fault (Option (Piece × List Char))
  | 0, cs => .error ⟨lineAt total cs, "too deep"⟩
  | fuel + 1, cs =>
    let name := parameterName cs
    match name, cs.drop name.length with
    | [], _ => .error ⟨lineAt total cs, "Bad substitution"⟩
    | _, '\x7d' :: rest => .ok (some (.parameter name .plain [] quoted, rest))
    | _, rest =>
      match use? rest with
      | none => .error ⟨lineAt total cs, "Bad substitution"⟩
      | some (use, rest) => do
        let (word, rest) ← pieces total true quoted fuel rest
        match rest with
        | '\x7d' :: rest => return some (.parameter name use word quoted, rest)
        | _ => throw ⟨lineAt total [], "Missing '\x7d'"⟩
termination_by structural fuel _ => fuel

/-- The pieces between double quotes, from behind the first up to the last, which is taken too; or, where
there are no quotes around them, to the end. -/
def quotedPieces (total : Nat) (closing : Bool) : Nat → List Char → Except Fault (Word × List Char)
  | 0, cs => .error ⟨lineAt total cs, "too deep"⟩
  | fuel + 1, cs =>
    match cs with
    | [] => if closing then .error ⟨lineAt total [], "Unterminated quoted string"⟩ else .ok ([], [])
    | '"' :: rest =>
      if closing then .ok ([], rest)
      else (quotedPieces total closing fuel rest).map fun (w, rest) => (consLiteral '"' true w, rest)
    | '\\' :: '\n' :: rest => quotedPieces total closing fuel rest
    | '\\' :: c :: rest =>
      let isEscape := c = '$' || c = '\u0060' || c = '\\' || (closing && c = '"')
      if isEscape then (quotedPieces total closing fuel rest).map fun (w, rest) => (consLiteral c true w, rest)
      else (quotedPieces total closing fuel (c :: rest)).map fun (w, rest) => (consLiteral '\\' true w, rest)
    | '\u0060' :: rest => do
      let (piece, rest) ← backQuote total true fuel rest
      (quotedPieces total closing fuel rest).map fun (w, rest) => (piece :: w, rest)
    | '$' :: rest => do
      match ← dollar total true fuel rest with
      | some (piece, rest) => (quotedPieces total closing fuel rest).map fun (w, rest) => (piece :: w, rest)
      | none => (quotedPieces total closing fuel rest).map fun (w, rest) => (consLiteral '$' true w, rest)
    | c :: rest => (quotedPieces total closing fuel rest).map fun (w, rest) => (consLiteral c true w, rest)
termination_by structural fuel _ => fuel

/-- A script between back quotes, from behind the first. -/
def backQuote (total : Nat) (quoted : Bool) : Nat → List Char → Except Fault (Piece × List Char)
  | 0, cs => .error ⟨lineAt total cs, "too deep"⟩
  | fuel + 1, cs =>
    match backQuoted? quoted cs with
    | none => .error ⟨lineAt total [], "EOF in backquote substitution"⟩
    | some (text, rest) => do
      let inner := text.count '\n'
      let (body, left) ← list inner true fuel text
      match gaps text.length left with
      | [] => return (.output body quoted, rest)
      | left => throw (unexpected inner left "")
termination_by structural fuel _ => fuel

/-- The pieces of a word.  In braces a word ends before the closing one and may hold blanks; there quotes
around the braces make it a quoted one. -/
def pieces (total : Nat) (inBraces quoted : Bool) : Nat → List Char → Except Fault (Word × List Char)
  | 0, cs => .error ⟨lineAt total cs, "too deep"⟩
  | fuel + 1, cs =>
    match cs with
    | [] => .ok ([], [])
    | '\\' :: '\n' :: rest => pieces total inBraces quoted fuel rest
    | '\\' :: c :: rest =>
      if quoted && !(c = '$' || c = '\u0060' || c = '\\' || c = '"' || c = '\x7d') then
        (pieces total inBraces quoted fuel (c :: rest)).map fun (w, rest) => (consLiteral '\\' true w, rest)
      else (pieces total inBraces quoted fuel rest).map fun (w, rest) => (consLiteral c true w, rest)
    | '\'' :: rest =>
      if quoted then
        (pieces total inBraces quoted fuel rest).map fun (w, rest) => (consLiteral '\'' true w, rest)
      else
        let text := rest.takeWhile (· ≠ '\'')
        match rest.drop text.length with
        | _ :: rest => (pieces total inBraces quoted fuel rest).map fun (w, rest) => (.literal text true :: w, rest)
        | [] => .error ⟨lineAt total [], "Unterminated quoted string"⟩
    | '"' :: rest => do
      let (inner, rest) ← quotedPieces total true fuel rest
      (pieces total inBraces quoted fuel rest).map fun (w, rest) => (.literal [] true :: inner ++ w, rest)
    | '\u0060' :: rest => do
      let (piece, rest) ← backQuote total quoted fuel rest
      (pieces total inBraces quoted fuel rest).map fun (w, rest) => (piece :: w, rest)
    | '$' :: rest => do
      match ← dollar total quoted fuel rest with
      | some (piece, rest) => (pieces total inBraces quoted fuel rest).map fun (w, rest) => (piece :: w, rest)
      | none => (pieces total inBraces quoted fuel rest).map fun (w, rest) => (consLiteral '$' quoted w, rest)
    | c :: rest =>
      if (inBraces && c = '\x7d') || (!inBraces && endsWord c) then .ok ([], cs)
      else (pieces total inBraces quoted fuel rest).map fun (w, rest) => (consLiteral c quoted w, rest)
termination_by structural fuel _ => fuel

/-- A word, if one stands in front. -/
def word (total : Nat) : Nat → List Char → Except Fault (Option (Word × List Char))
  | 0, cs => .error ⟨lineAt total cs, "too deep"⟩
  | fuel + 1, cs =>
    match blanks cs with
    | [] => .ok none
    | c :: rest => if endsWord c then .ok none else (pieces total false false fuel (c :: rest)).map some
termination_by structural fuel _ => fuel

/-- A channel that leads elsewhere, if one stands in front. -/
def redirection (total : Nat) : Nat → List Char → Except Fault (Option (Redirection × List Char))
  | 0, cs => .error ⟨lineAt total cs, "too deep"⟩
  | fuel + 1, cs =>
    let cs := blanks cs
    let number := cs.takeWhile Char.isDigit
    let channel (standard : Nat) : Nat :=
      if number.isEmpty then standard else number.foldl (fun n d => 10 * n + (d.toNat - 48)) 0
    let toward (standard : Nat) (way : Way) (rest : List Char) :
        Except Fault (Option (Redirection × List Char)) := do
      match ← word total fuel rest with
      | some (w, rest) => return some (.mk (channel standard) way w, rest)
      | none => throw (unexpected total rest "")
    let document (tabs : Bool) (rest : List Char) : Except Fault (Option (Redirection × List Char)) := do
      match ← word total fuel rest with
      | none => throw (unexpected total rest "")
      | some (w, rest) =>
        let (mark, isQuoted) := unquoted w
        let line := rest.takeWhile (· ≠ '\n')
        let (text, behind) := documentLines mark tabs rest.length (rest.drop (line.length + 1))
        let body ← if isQuoted then pure [Piece.literal text true]
          else (quotedPieces total false fuel text).map (·.1)
        return some (.mk (channel 0) .document body, line ++ '\n' :: behind)
    match cs.drop number.length with
    | '>' :: '>' :: rest => toward 1 (.output true) rest
    | '>' :: '&' :: rest => toward 1 .same rest
    | '>' :: '|' :: rest => toward 1 (.output false) rest
    | '>' :: rest => toward 1 (.output false) rest
    | '<' :: '<' :: '-' :: rest => document true rest
    | '<' :: '<' :: rest => document false rest
    | '<' :: '&' :: rest => toward 0 .same rest
    | '<' :: '>' :: rest => toward 0 .input rest
    | '<' :: rest => toward 0 .input rest
    | _ => .ok none
termination_by structural fuel _ => fuel

/-- All channels that stand in front. -/
def redirections (total : Nat) : Nat → List Char → Except Fault (List Redirection × List Char)
  | 0, cs => .error ⟨lineAt total cs, "too deep"⟩
  | fuel + 1, cs => do
    match ← redirection total fuel cs with
    | some (r, rest) => (redirections total fuel rest).map fun (rs, rest) => (r :: rs, rest)
    | none => return ([], cs)
termination_by structural fuel _ => fuel

/-- All words that stand in front. -/
def words (total : Nat) : Nat → List Char → Except Fault (List Word × List Char)
  | 0, cs => .error ⟨lineAt total cs, "too deep"⟩
  | fuel + 1, cs => do
    match ← word total fuel cs with
    | some (w, rest) => (words total fuel rest).map fun (ws, rest) => (w :: ws, rest)
    | none => return ([], cs)
termination_by structural fuel _ => fuel

/-- The rest of a simple command: variables, words and channels in any order, where a variable can be
set only before the first word. -/
def simple (total : Nat) (settings : List (Octets × Word)) (ws : List Word) (rs : List Redirection) :
    Nat → List Char → Except Fault ((List (Octets × Word) × List Word × List Redirection) × List Char)
  | 0, cs => .error ⟨lineAt total cs, "too deep"⟩
  | fuel + 1, cs => do
    match ← redirection total fuel cs with
    | some (r, rest) => simple total settings ws (rs ++ [r]) fuel rest
    | none =>
      match ← word total fuel cs with
      | none => return ((settings, ws, rs), cs)
      | some (w, rest) =>
        match ws, setting? w with
        | [], some s => simple total (settings ++ [s]) [] rs fuel rest
        | ws, _ => simple total settings (ws ++ [w]) rs fuel rest
termination_by structural fuel _ => fuel

/-- What follows a test: the one case, and the other, which may be another test. -/
def branches (total : Nat) : Nat → List Char → Except Fault (Command × List Char)
  | 0, cs => .error ⟨lineAt total cs, "too deep"⟩
  | fuel + 1, cs => do
    let (test, cs) ← list total true fuel cs
    let cs ← keyword total "then" cs
    let (yes, cs) ← list total true fuel cs
    let cs := gaps cs.length cs
    match reservedWord? cs with
    | some "elif" => (branches total fuel (cs.drop 4)).map fun (no, cs) => (.choice test yes no, cs)
    | some "else" =>
      let (no, cs) ← list total true fuel (cs.drop 4)
      return (.choice test yes no, ← keyword total "fi" cs)
    | _ => return (.choice test yes .nothing, ← keyword total "fi" cs)
termination_by structural fuel _ => fuel

/-- The patterns of a case, up to its parenthesis. -/
def casePatterns (total : Nat) : Nat → List Char → Except Fault (List Word × List Char)
  | 0, cs => .error ⟨lineAt total cs, "too deep"⟩
  | fuel + 1, cs => do
    match ← word total fuel cs with
    | none => throw (unexpected total cs "")
    | some (w, rest) =>
      match blanks rest with
      | '|' :: rest => (casePatterns total fuel rest).map fun (ws, rest) => (w :: ws, rest)
      | ')' :: rest => return ([w], rest)
      | rest => throw (unexpected total rest " (expecting \")\")")
termination_by structural fuel _ => fuel

/-- The cases, up to their end. -/
def caseBranches (total : Nat) : Nat → List Char → Except Fault (List (List Word × Command) × List Char)
  | 0, cs => .error ⟨lineAt total cs, "too deep"⟩
  | fuel + 1, cs => do
    let cs := gaps cs.length cs
    if reservedWord? cs = some "esac" then return ([], cs.drop 4)
    let cs := match cs with
      | '(' :: rest => rest
      | cs => cs
    let (patterns, cs) ← casePatterns total fuel cs
    let (body, cs) ← list total true fuel cs
    match gaps cs.length cs with
    | ';' :: ';' :: cs => (caseBranches total fuel cs).map fun (bs, cs) => ((patterns, body) :: bs, cs)
    | cs => return ([(patterns, body)], ← keyword total "esac" cs)
termination_by structural fuel _ => fuel

/-- A command that starts with a reserved word. -/
def compound (total : Nat) (name : String) : Nat → List Char → Except Fault (Command × List Char)
  | 0, cs => .error ⟨lineAt total cs, "too deep"⟩
  | fuel + 1, cs =>
    let behind := cs.drop name.length
    let loopBody (cs : List Char) : Except Fault (Command × List Char) := do
      let cs ← keyword total "do" cs
      let (body, cs) ← list total true fuel cs
      return (body, ← keyword total "done" cs)
    match name with
    | "\x7b" => do
      let (body, cs) ← list total true fuel behind
      return (body, ← keyword total "\x7d" cs)
    | "if" => branches total fuel behind
    | "while" | "until" => do
      let (test, cs) ← list total true fuel behind
      let (body, cs) ← loopBody cs
      return (.loop (name = "until") test body, cs)
    | "for" => do
      match ← word total fuel behind with
      | none => throw ⟨lineAt total cs, "Bad for loop variable"⟩
      | some (w, cs) =>
        match plainText? w with
        | none => throw ⟨lineAt total cs, "Bad for loop variable"⟩
        | some name =>
          if name.isEmpty || leadingName name ≠ name then throw ⟨lineAt total cs, "Bad for loop variable"⟩
          let cs := gaps cs.length cs
          if ['i', 'n'].isPrefixOf cs && (cs.drop 2).head?.all endsWord then
            let (ws, cs) ← words total fuel (cs.drop 2)
            let cs := match blanks cs with
              | ';' :: cs => cs
              | cs => cs
            let (body, cs) ← loopBody cs
            return (.each name (some ws) body, cs)
          else
            let cs := match blanks cs with
              | ';' :: cs => cs
              | cs => cs
            let (body, cs) ← loopBody cs
            return (.each name none body, cs)
    | "case" => do
      match ← word total fuel behind with
      | none => throw (unexpected total behind "")
      | some (w, cs) =>
        let cs := gaps cs.length cs
        if ['i', 'n'].isPrefixOf cs && (cs.drop 2).head?.all endsWord then
          (caseBranches total fuel (cs.drop 2)).map fun (bs, cs) => (.cases w bs, cs)
        else throw (unexpected total cs " (expecting \"in\")")
    | _ => .error (unexpected total cs "")
termination_by structural fuel _ => fuel

/-- A command. -/
def command (total : Nat) : Nat → List Char → Except Fault (Command × List Char)
  | 0, cs => .error ⟨lineAt total cs, "too deep"⟩
  | fuel + 1, cs => do
    let cs := blanks cs
    let wrap (body : Command) (cs : List Char) : Except Fault (Command × List Char) := do
      let (rs, cs) ← redirections total fuel cs
      return (if rs.isEmpty then body else .redirected body rs, cs)
    match cs, reservedWord? cs with
    | '(' :: rest, _ =>
      let (body, rest) ← list total true fuel rest
      match blanks rest with
      | ')' :: rest => wrap (.isolated body) rest
      | rest => throw (unexpected total rest " (expecting \")\")")
    | cs, some name =>
      let (body, rest) ← compound total name fuel cs
      wrap body rest
    | cs, none =>
      let line := lineAt total cs
      let ((settings, ws, rs), rest) ← simple total [] [] [] fuel cs
      match settings, ws, rs, blanks rest with
      | [], [], [], rest => throw (unexpected total rest "")
      | [], [w], [], '(' :: rest =>
        match blanks rest, plainText? w with
        | ')' :: rest, some name =>
          if leadingName name ≠ name then throw ⟨lineAt total rest, "Bad function name"⟩
          let (body, rest) ← command total fuel (gaps rest.length rest)
          return (.definition name body, rest)
        | rest, _ => throw (unexpected total rest " (expecting \")\")")
      | settings, ws, rs, rest => return (.simple line settings ws rs, rest)
termination_by structural fuel _ => fuel

/-- Commands with pipes between them. -/
def pipeline (total : Nat) : Nat → List Char → Except Fault (Command × List Char)
  | 0, cs => .error ⟨lineAt total cs, "too deep"⟩
  | fuel + 1, cs => do
    let cs := blanks cs
    if reservedWord? cs = some "!" then
      (pipeline total fuel (cs.drop 1)).map fun (c, cs) => (.negated c, cs)
    else
      let (first, cs) ← command total fuel cs
      match blanks cs with
      | '|' :: '|' :: _ => return (first, cs)
      | '|' :: rest =>
        (pipeline total fuel (gaps rest.length rest)).map fun (second, cs) => (.pipe first second, cs)
      | cs => return (first, cs)
termination_by structural fuel _ => fuel

/-- Pipelines of which the next depends on how the one before ended. -/
def chain (total : Nat) (first : Option (Bool × Command)) : Nat → List Char → Except Fault (Command × List Char)
  | 0, cs => .error ⟨lineAt total cs, "too deep"⟩
  | fuel + 1, cs => do
    let (next, cs) ← pipeline total fuel cs
    let joined := match first with
      | none => next
      | some (true, c) => .both c next
      | some (false, c) => .either c next
    match blanks cs with
    | '&' :: '&' :: rest => chain total (some (true, joined)) fuel (gaps rest.length rest)
    | '|' :: '|' :: rest => chain total (some (false, joined)) fuel (gaps rest.length rest)
    | cs => return (joined, cs)
termination_by structural fuel _ => fuel

/-- Commands in a row: to the end of the line, or, inside of another construct, up to what ends it. -/
def list (total : Nat) (inside : Bool) : Nat → List Char → Except Fault (Command × List Char)
  | 0, cs => .error ⟨lineAt total cs, "too deep"⟩
  | fuel + 1, cs => do
    let cs := if inside then gaps cs.length cs else blanks cs
    let isEnd := match cs with
      | [] | '\n' :: _ | ')' :: _ | ';' :: ';' :: _ => true
      | _ => match reservedWord? cs with
        | some w => ["\x7d", "then", "elif", "else", "fi", "do", "done", "esac"].contains w
        | none => false
    if isEnd then return (.nothing, cs)
    let (first, cs) ← chain total none fuel cs
    match blanks cs with
    | ';' :: ';' :: _ => return (first, blanks cs)
    | ';' :: rest | '&' :: rest =>
      (list total inside fuel rest).map fun (more, cs) => (first.followedBy more, cs)
    | '\n' :: rest =>
      if inside then (list total inside fuel rest).map fun (more, cs) => (first.followedBy more, cs)
      else return (first, '\n' :: rest)
    | cs => return (first, cs)
termination_by structural fuel _ => fuel

end

/-- The commands of the first line of a script, and the rest of the script; nothing at the end.  Every
part of the grammar that is entered takes an octet or is one of a dozen on the way to one. -/
def line (total : Nat) (cs : List Char) : Except Fault (Option (Command × List Char)) := do
  let cs := gaps cs.length cs
  if cs.isEmpty then return none
  let (c, rest) ← list total false (16 * cs.length + 64) cs
  match blanks rest with
  | [] => return some (c, [])
  | '\n' :: rest => return some (c, rest)
  | rest => throw (unexpected total rest "")

end Script

end Orrery
