import Orrery.Query.Wire
import Orrery.Value.Reader

/-!
# Query providers

The language in which rules are written is not fixed here.  A `Provider` turns an expression into a
query or says why it cannot; the simulator asks it once for every expression when a rule graph is
built.  `Provider.wire` is the provider for expressions that are already in the wire form.
-/

namespace Orrery

/-- How a program ends that fails. -/
inductive Ending where
  /-- With a status other than zero. -/
  | status (n : Nat)
  /-- By a signal. -/
  | signal (n : Nat)
  deriving DecidableEq

/-- The names of signals, from the first on. -/
def Ending.signalNames : List String :=
  ["HUP", "INT", "QUIT", "ILL", "TRAP", "ABRT", "BUS", "FPE", "KILL", "USR1", "SEGV", "USR2", "PIPE",
   "ALRM", "TERM", "STKFLT", "CHLD", "CONT", "STOP", "TSTP", "TTIN", "TTOU", "URG", "XCPU", "XFSZ",
   "VTALRM", "PROF", "WINCH", "IO", "PWR", "SYS"]

/-- How a program ended, in words. -/
def Ending.text : Ending → String
  | .status n => "exit status: " ++ toString n
  | .signal n =>
    "signal: " ++ toString n ++ (match Ending.signalNames[n - 1]? with
      | some name => " (SIG" ++ name ++ ")"
      | none => "")

/-- Why an expression gave no query. -/
inductive ProviderError where
  /-- The program that reads expressions cannot be started. -/
  | spawn (program : String)
  /-- The program failed. -/
  | exitStatus (program : String) (ending : Ending) (complaint : String)
  /-- What the expression stands for is no query. -/
  | malformed
  deriving DecidableEq

/-- What is wrong, in a sentence. -/
def ProviderError.message : ProviderError → String
  | .spawn program => "failed to start query parser `" ++ program ++ "`"
  | .exitStatus program ending complaint =>
    "query parser `" ++ program ++ "` exited with " ++ ending.text ++ ": " ++ complaint
  | .malformed => "malformed query AST"

/-- A reader of expressions. -/
abbrev Provider := String → Except ProviderError Query

/-- The query that a text in the wire form denotes. -/
def Query.ofText? (text : String) : Option Query :=
  (Tree.ofText? text).bind (Query.ofTree? .direct Tree.depthLimit)

/-- Expressions in the wire form. -/
def Provider.wire : Provider := fun text =>
  match Query.ofText? text with
  | some q => .ok q
  | none => .error .malformed

end Orrery
