import Orrery.Query.Basic
import Orrery.Value.Basic

/-!
# Reading and writing through queries

A `Scope` fixes what a query is relative to: an engine, a subject agent and the committed snapshot of
the universe.  The states under construction are a separate argument, because they change while the
scope stays.

Reading finds a value or nothing.  `agent` never looks at a state under construction, so what one agent
is doing in a step is invisible to the others.  A tuple is found when all its items are.

Writing happens in place.  It follows the containers of the target from the subject's state inwards,
making an empty mapping of every container that is missing, and puts the value under the last field.  It
is given up when a container is there already and is no mapping, or when a node on the way cannot be
written at all; the second is noticed first.  `assign` answers with the states as they are left, whether
it goes through or not: what was made on the way to an obstacle would still be there.  `write` is for those
who have no use for the states after a failure.
-/

namespace Orrery

/-- What a query is relative to. -/
structure Scope where
  /-- The engine of the subject. -/
  engine : String
  /-- The subject. -/
  agent : String
  /-- The committed snapshot. -/
  snapshot : Universe

namespace Scope

/-- The committed state of an agent of this engine. -/
def committed? (s : Scope) (agent : String) : Option Value :=
  (s.snapshot.get? s.engine).bind (·.get? agent)

/-- The subject's state: the committed one, or the one under construction. -/
def subject? (s : Scope) (states : States) (previous : Bool) : Option Value :=
  if previous then s.committed? s.agent else states.get? s.agent

mutual

/-- Find the value of a query; `previous` tells whether the query stands below a `prev`. -/
def lookup? (s : Scope) (states : States) (previous : Bool) : Query → Option Value
  | .base field => (s.subject? states previous).bind (·.field? field)
  | .prev inner => lookup? s states true inner
  | .root => s.subject? states previous
  | .agent name => s.committed? name
  | .access container field => (lookup? s states previous container).bind (·.field? field)
  | .tuple items => (lookupItems? s states previous items).map .list

/-- Find the values of queries in a row; one that is missing makes all of them missing. -/
def lookupItems? (s : Scope) (states : States) (previous : Bool) :
    List Query → Option (List Value)
  | [] => some []
  | q :: rest =>
    match lookup? s states previous q with
    | some v => (lookupItems? s states previous rest).map (v :: ·)
    | none => none

end

/-- Find the value of a query. -/
def resolve? (s : Scope) (states : States) (q : Query) : Option Value := s.lookup? states false q

/-- How a write ends: it goes through, or is given up for a reason. -/
abbrev WriteOutcome := Except Query.WriteError Unit

/-- A change in place: what it leaves of a value, and how it ends. -/
abbrev Change := Value → Value × WriteOutcome

/-- Change one field of a container, which the query `container` names; a field that is missing is made an
empty mapping first. -/
def changeField (container : Query) (field : String) (change : Change) : Change
  | .mapping fields =>
    let (new, outcome) := change ((Entries.get? field fields).getD (.mapping []))
    (.mapping (Entries.insert field new fields), outcome)
  | v => (v, .error (.notAMapping container))

/-- Change the state of an agent; one that is missing is made an empty mapping first. -/
def changeState (states : States) (agent : String) (change : Change) : States × WriteOutcome :=
  let (new, outcome) := change ((states.get? agent).getD (.mapping []))
  (states.insert agent new, outcome)

/-- Change the value that a query names inside the state of an agent. -/
def changeAt (states : States) (agent : String) (change : Change) : Query → States × WriteOutcome
  | .root => changeState states agent change
  | .base field => changeState states agent (changeField .root field change)
  | .access container field => changeAt states agent (changeField container field change) container
  | q => (states, .error (.illegalTarget q))

/-- Put a value where a query names it; writing to the root discards the value.  The answer is the states
as they are left, and how it ended. -/
def assign (s : Scope) (states : States) (q : Query) (value : Value) : States × WriteOutcome :=
  match q with
  | .root => (states, .ok ())
  | q => changeAt states s.agent (fun _ => (value, .ok ())) q

/-- The states with a value put where a query names it. -/
def write (s : Scope) (states : States) (q : Query) (value : Value) : Except Query.WriteError States :=
  match s.assign states q value with
  | (after, .ok ()) => .ok after
  | (_, .error e) => .error e

end Scope

end Orrery
