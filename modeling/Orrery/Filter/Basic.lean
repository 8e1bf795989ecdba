import Orrery.Filter.Shell
import Orrery.Provider
import Orrery.Text.Space

/-!
# Filters

A filter is a program that reads an expression and prints the query it stands for.  Filters are not
started as processes but interpreted, so that a provider made of one is a function of the expression
like any other.

The programs are those from which filters for expressions are made: the ones that copy, select and edit
lines (`Orrery.Utility`), and the interpreter of scripts that puts them together (`Orrery.Shell`).  Any
other program cannot be started, nor can one whose name or arguments hold a zero.
-/

namespace Orrery

namespace Filter

/-- How many steps a filter may take. -/
def fuel : Nat := 20000

/-- What a program leaves behind, if it can be started. -/
def run? (program : String) (args : List String) (input : String) : Option Shell.Finished :=
  let octets (s : String) : Octets := Text.encode s.toList
  let words := octets program :: args.map octets
  if words.any (·.contains '\x00') then none
  else Shell.launch [] [] (octets program) fuel (words.drop 1) (octets input)

/-- The ending of a program that failed. -/
def ending? : Utility.Ending → Option Ending
  | .status 0 => none
  | .status n => some (.status n)
  | .signal n => some (.signal n)

end Filter

/-- Expressions read by a filter: what it prints is in the wire form. -/
def Provider.filter (program : String) (args : List String) : Provider := fun expression =>
  match Filter.run? program args expression with
  | none => .error (.spawn program)
  | some r =>
    match Filter.ending? r.ending, Text.decode? r.output with
    | some e, _ => .error (.exitStatus program e (String.ofList (Text.trimmed (Text.decodeLossy r.complaint))))
    | none, some text => Provider.wire (String.ofList text)
    | none, none => .error .malformed

end Orrery
