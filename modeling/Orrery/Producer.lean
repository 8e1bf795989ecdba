import Orrery.Value.Printer

/-!
# Producers

A producer is the function behind a rule: it takes the values of the rule's inputs in order and returns
the value to be written, or says why it cannot.  Producers are pure, so one call is as good as another.

Rules name their producers.  A `Registry` is the table of the names in force, and registering a name
again replaces the producer behind it.
-/

namespace Orrery

/-- Why a producer returns nothing. -/
inductive ProducerError where
  /-- It takes another number of arguments. -/
  | arity (expected actual : Nat)
  /-- An argument has the wrong shape. -/
  | argumentType (index : Nat) (expected : String) (found : Value)
  /-- The result is infinite or no number. -/
  | nonFinite (what : String)
  /-- It fails for a reason of its own. -/
  | failed (reason : String)
  deriving DecidableEq

/-- What is wrong, in a sentence. -/
def ProducerError.message : ProducerError → String
  | .arity expected actual =>
    "expected " ++ toString expected ++ " argument(s), got " ++ toString actual
  | .argumentType index expected found =>
    "argument " ++ toString index ++ " must be " ++ expected ++ ", got " ++ found.render
  | .nonFinite what => "result is not finite: " ++ what
  | .failed reason => reason

/-- A function from positional arguments to a value. -/
abbrev Producer := List Value → Except ProducerError Value

/-- Producers by name. -/
abbrev Registry := Table Producer

namespace Producer

/-- Ignore the arguments and return one value. -/
def constant (value : Value) : Producer := fun _ => .ok value

/-- Fail whatever the arguments are. -/
def failing (reason : String) : Producer := fun _ => .error (.failed reason)

/-- Return the arguments as a list. -/
def arguments : Producer := fun args => .ok (.list args)

/-- Read the argument at a position as a number. -/
def scalar (index : Nat) (v : Value) : Except ProducerError Float :=
  match v.float? with
  | some x => .ok x
  | none => .error (.argumentType index "a number" v)

/-- A number as a value; `what` names the quantity if it is not finite. -/
def finite (what : String) (x : Float) : Except ProducerError Value :=
  match Number.ofFloat? x with
  | some n => .ok (.number n)
  | none => .error (.nonFinite what)

end Producer

end Orrery
