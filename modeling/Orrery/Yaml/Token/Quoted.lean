import Orrery.Yaml.Buffer
import Orrery.Yaml.Token

/-!
# Quoted scalars

Between single quotes a quote is written twice and nothing else is special.  Between double quotes a
backslash starts an escape; a backslash at the end of a line joins it to the next without a space.
Gaps are folded in both (`Buffer.pushGap?`).  A line that separates documents may not stand inside.
-/

namespace Orrery

namespace Yaml

namespace Quoted

/-- The escapes of one letter. -/
def letterEscape? : Char → Option Char
  | '0' => some '\x00'
  | 'a' => some '\x07'
  | 'b' => some '\x08'
  | 't' | '\t' => some '\t'
  | 'n' => some '\n'
  | 'v' => some '\x0b'
  | 'f' => some '\x0c'
  | 'r' => some '\r'
  | 'e' => some '\x1b'
  | ' ' => some ' '
  | '"' => some '"'
  | '/' => some '/'
  | '\\' => some '\\'
  | 'N' => some '\u0085'
  | '_' => some '\u00a0'
  | 'L' => some '\u2028'
  | 'P' => some '\u2029'
  | _ => none

/-- How many hexadecimal digits follow a letter. -/
def codeLength? : Char → Option Nat
  | 'x' => some 2
  | 'u' => some 4
  | 'U' => some 8
  | _ => none

/-- The value of a hexadecimal digit. -/
def digitValue? (c : Char) : Option Nat :=
  if '0' ≤ c && c ≤ '9' then some (c.toNat - 48)
  else if 'a' ≤ c && c ≤ 'f' then some (c.toNat - 87)
  else if 'A' ≤ c && c ≤ 'F' then some (c.toNat - 55)
  else none

/-- The number that hexadecimal digits spell, if all are. -/
def code? (ds : List Char) : Option Nat :=
  ds.foldl (fun n d => do return 16 * (← n) + (← digitValue? d)) (some 0)

/-- The character of a code, unless it is half of a surrogate pair or too large. -/
def char? (n : Nat) : Option Char := if n.isValidChar then some (Char.ofNat n) else none

/-- Read from behind the opening quote: `out` holds the text up to the pending `gap`.  The gap is added as
soon as it is over, whatever follows. -/
def read (double : Bool) (c : Cursor) (out : Buffer) (gap : Gap) :
    List Char → Except Fault (Buffer × Cursor)
  | [] => .error (if (out.pushGap? gap).isSome then .malformed else .overflow)
  | ch :: rest =>
    let here : Cursor := { c with rest := ch :: rest }
    let next := here.after ch rest
    if isGap ch then read double next out (gap.push ch) rest
    else
      match out.pushGap? gap with
      | none => .error .overflow
      | some out =>
        if here.atSeparator then .error .malformed
        else if double && ch = '"' then .ok (out, next)
        else if double && ch = '\\' then
          match rest with
          | [] => .error .malformed
          | e :: rest =>
            let behind := next.after e rest
            if isBreak e then read double behind out (.lines none []) rest
            else
              match codeLength? e with
              | some n =>
                match (code? (rest.take n)).bind char? with
                | some x =>
                  if n ≤ rest.length then read double (behind.drop n) (out.push x) Gap.none (rest.drop n)
                  else .error .malformed
                | none => .error .malformed
              | none =>
                match letterEscape? e with
                | some x => read double behind (out.push x) Gap.none rest
                | none => .error .malformed
        else if !double && ch = '\'' then
          match rest with
          | '\'' :: rest => read double (next.after '\'' rest) (out.push '\'') Gap.none rest
          | _ => .ok (out, next)
        else read double next (out.push ch) Gap.none rest
termination_by cs => cs.length
decreasing_by all_goals (simp only [List.length_cons, List.length_drop]; omega)

/-- A quoted scalar, from its opening quote on. -/
def scan (c : Cursor) (double : Bool) : Except Fault (String × Cursor) :=
  (read double c.skip .empty Gap.none c.skip.rest).map fun (b, c) => (b.text, c)

end Quoted

end Yaml

end Orrery
