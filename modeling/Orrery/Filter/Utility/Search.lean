import Orrery.Filter.Regular
import Orrery.Filter.Utility

/-!
# Searching lines

`grep` prints the lines in which one of its patterns is found, or those in which none is; it fails if
there are none.
-/

namespace Orrery

namespace Utility

/-- An expression that stands for a text as it is. -/
def literal (text : Octets) : Regular := text.foldr (fun c r => Regular.andThen (.octet c) r) .nothing

/-- Everything in a line that an expression fits, from left to right.  Every find takes an octet or
moves one further, so `fuel` need not exceed the length. -/
def finds (caseless : Bool) (r : Regular) : Nat → Option Char → Octets → List Octets
  | 0, _, _ => []
  | fuel + 1, before, line =>
    match Regular.first? caseless r before line with
    | none => []
    | some (_, [], p) =>
      match p.rest with
      | c :: rest => finds caseless r fuel (some c) rest
      | [] => []
    | some (_, found, p) => found :: finds caseless r fuel p.before p.rest

/-- Print the lines in which a pattern is found. -/
def grep : Program := fun s =>
  s.parsed "ivcqnoxwEFGsh" "em" 2 fun os operands =>
    let (pattern?, files) := match valueOf? os 'e', operands with
      | some e, files => (some e, files)
      | none, e :: files => (some e, files)
      | none, [] => (none, [])
    match pattern? with
    | none =>
      ⟨2, [], "Usage: grep [OPTION]... PATTERNS [FILE]...\nTry 'grep --help' for more information.\n".toList,
        false, []⟩
    | some text =>
      let parsed := (text.splitOn '\n').mapM fun t =>
        if isGiven os 'F' then some (literal t) else Regular.ofText? (isGiven os 'E') t
      match parsed with
      | none => s.fail 2 "Unmatched ( or \\("
      | some rs =>
        let caseless := isGiven os 'i'
        let whole (r : Regular) : Regular :=
          if isGiven os 'x' then .follow .start (.follow (.group 0 r) .finish)
          else if isGiven os 'w' then .follow (.edge true false) (.follow (.group 0 r) (.edge false true))
          else r
        let rs := rs.map whole
        let isFound (l : Octets) : Bool :=
          rs.any (fun r => (Regular.first? caseless r none (bare l)).isSome) != isGiven os 'v'
        let (texts, complaints, tookInput) := s.sources files missing
        let hits := ((lines texts.flatten).zipIdx 1).filter fun (l, _) => isFound l
        let hits := match (valueOf? os 'm').bind natural? with
          | some n => hits.take n
          | none => hits
        let number (n : Nat) : Octets := if isGiven os 'n' then Nat.toDigits 10 n ++ [':'] else []
        let output : Octets :=
          if isGiven os 'q' then []
          else if isGiven os 'c' then Nat.toDigits 10 hits.length ++ ['\n']
          else if isGiven os 'o' then
            hits.flatMap fun (l, n) => rs.flatMap fun r =>
              (finds caseless r (l.length + 1) none (bare l)).flatMap fun f => number n ++ f ++ ['\n']
          else hits.flatMap fun (l, n) => number n ++ closed l
        let status := if !complaints.isEmpty then 2 else if hits.isEmpty then 1 else 0
        ⟨status, output, if isGiven os 's' then [] else complaints, tookInput, []⟩

end Utility

end Orrery
