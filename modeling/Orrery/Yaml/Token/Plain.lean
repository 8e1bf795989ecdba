import Orrery.Yaml.Buffer
import Orrery.Yaml.Token

/-!
# Plain scalars

A scalar without quotes goes on until something ends it: a colon before a gap, a comment, a line that
separates documents, in flow notation any bracket or comma, in block notation a line that is not
indented more than what encloses it.  The gap before the end is not part of the scalar.
-/

namespace Orrery

namespace Yaml

namespace Plain

/-- The indicators that end a plain scalar inside brackets. -/
def isFlowIndicator (c : Char) : Bool :=
  c = ',' || c = '[' || c = ']' || c = '\x7b' || c = '\x7d'

/-- Inside brackets a colon may not touch an indicator: it could belong to either side. -/
def ambiguous (flow : Bool) : List Char → Bool
  | ':' :: c :: _ => flow && (isFlowIndicator c || c = '?')
  | _ => false

/-- The scalar cannot go on with these characters, whatever stands before them. -/
def ended (flow : Bool) : List Char → Bool
  | ':' :: rest => endsWord rest
  | c :: _ => flow && isFlowIndicator c
  | [] => true

/-- The scalar does not go on behind a gap. -/
def endedByGap (flow : Bool) (indent : Int) (c : Cursor) : Bool :=
  (!flow && (c.column : Int) < indent) || c.atSeparator || c.rest.head? = some '#'

/-- A tab stands in place of indentation. -/
def misindented (indent : Int) (c : Cursor) (gap : Gap) : Bool :=
  gap.isLines && (c.column : Int) < indent && c.rest.head? = some '\t'

/-- Read on: `out` holds the text up to the pending `gap`.  The answer says whether the scalar ended
behind a line end. -/
def read (flow : Bool) (indent : Int) (c : Cursor) (out : Buffer) (gap : Gap) :
    List Char → Except Fault (Buffer × Bool × Cursor)
  | [] => .ok (out, gap.isLines, { c with rest := [] })
  | ch :: rest =>
    let here : Cursor := { c with rest := ch :: rest }
    if isGap ch then
      if misindented indent here gap then .error .malformed
      else read flow indent (here.after ch rest) out (gap.push ch) rest
    else if gap.isSome && endedByGap flow indent here then .ok (out, gap.isLines, here)
    else if ambiguous flow (ch :: rest) then .error .malformed
    else if ended flow (ch :: rest) then .ok (out, gap.isLines, here)
    else
      match out.pushGap? gap with
      | none => .error .overflow
      | some out => read flow indent (here.after ch rest) (out.push ch) Gap.none rest

/-- Whether a plain scalar can start here. -/
def starts (flow : Bool) : List Char → Bool
  | [] => false
  | '-' :: _ => true
  | c :: rest =>
    if c = '?' || c = ':' then !flow && !endsWord rest
    else !(isGap c || isFlowIndicator c || c = '#' || c = '&' || c = '*' || c = '!' || c = '|'
      || c = '>' || c = '\'' || c = '"' || c = '%' || c = '@' || c = '\u0060')

/-- A plain scalar; `indent` is the indentation of what encloses it. -/
def scan (c : Cursor) (flow : Bool) (indent : Int) : Except Fault (String × Bool × Cursor) :=
  (read flow (indent + 1) c .empty Gap.none c.rest).map fun (b, broken, c) => (b.text, broken, c)

end Plain

end Yaml

end Orrery
