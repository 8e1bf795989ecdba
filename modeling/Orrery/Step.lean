import Orrery.RuleGraph
import Orrery.Query.Scope

/-!
# One step of an engine

A step computes the next state of every agent from a snapshot that does not change meanwhile.  All rules
of the engine are pending at first, agent by agent.  A *pass* goes through the pending rules in order
and fires those whose inputs can be found, each against what has been written so far; the others are
deferred to the next pass.  The step is over when nothing is pending.  A pass that fires nothing will
never be followed by one that does, so the rules left then are stuck and the step fails.

Every pass but the last deadlocked one removes a rule, which bounds the number of passes by the number
of rules and is why the recursion ends.
-/

namespace Orrery

/-- A rule that has not been fired yet. -/
structure Pending where
  /-- The agent it belongs to. -/
  agent : String
  /-- Its position among the agent's rules. -/
  index : Nat
  /-- The rule. -/
  rule : Rule

/-- A rule that can never be fired. -/
structure StuckRule where
  /-- The agent it belongs to. -/
  agent : String
  /-- Its position among the agent's rules. -/
  index : Nat
  /-- The name of its producer. -/
  function : String
  /-- The query that was not found. -/
  consumed : Query
  deriving DecidableEq

/-- The rule, in words. -/
def StuckRule.text (s : StuckRule) : String :=
  s.agent ++ "[" ++ toString s.index ++ "] " ++ s.function ++ " <- " ++ s.consumed.render

/-- What a stuck rule shows of a pending one. -/
def Pending.stuck (p : Pending) : StuckRule := ⟨p.agent, p.index, p.rule.function, p.rule.consumed⟩

/-- Why a step fails. -/
inductive StepError where
  /-- The engine has no rules. -/
  | graph (cause : GraphError)
  /-- The rules left wait for something that never comes. -/
  | deadlock (engine : String) (stuck : List StuckRule)
  /-- A producer refuses its arguments. -/
  | producer (place : RulePlace) (function : String) (cause : ProducerError)
  /-- A result cannot be put where it belongs. -/
  | write (place : RulePlace) (cause : Query.WriteError)
  deriving DecidableEq

/-- What is wrong, in a sentence. -/
def StepError.message : StepError → String
  | .graph cause => "cannot step: " ++ cause.message
  | .deadlock engine stuck =>
    "resolution deadlock in engine " ++ engine ++ ": " ++ "; ".intercalate (stuck.map (·.text))
  | .producer place function cause => place.text ++ " (" ++ function ++ "): " ++ cause.message
  | .write place cause => place.text ++ ": " ++ cause.message

/-- A tuple, possibly read in the snapshot, is handed over item by item. -/
def Query.spreads : Query → Bool
  | .tuple _ => true
  | .prev inner => spreads inner
  | _ => false

/-- The arguments that a found input makes. -/
def Query.arguments (consumed : Query) (input : Value) : List Value :=
  match consumed.spreads, input with
  | true, .list items => items
  | _, v => [v]

namespace Step

/-- Fire a rule: nothing if its input is not found, else the states with its result in place. -/
def fire (engine : String) (snapshot : Universe) (states : States) (p : Pending) :
    Except StepError (Option States) :=
  let scope : Scope := ⟨engine, p.agent, snapshot⟩
  match scope.resolve? states p.rule.consumed with
  | none => .ok none
  | some input =>
    match p.rule.produce (p.rule.consumed.arguments input) with
    | .error e => .error (.producer ⟨engine, p.agent, p.index⟩ p.rule.function e)
    | .ok output =>
      match scope.write states p.rule.produced output with
      | .error e => .error (.write ⟨engine, p.agent, p.index⟩ e)
      | .ok states => .ok (some states)

/-- Go through pending rules once; the answer is the states and the deferred rules in their order. -/
def pass (engine : String) (snapshot : Universe) :
    States → List Pending → Except StepError (States × List Pending)
  | states, [] => .ok (states, [])
  | states, p :: rest =>
    match fire engine snapshot states p with
    | .error e => .error e
    | .ok none =>
      match pass engine snapshot states rest with
      | .error e => .error e
      | .ok (states, deferred) => .ok (states, p :: deferred)
    | .ok (some states) => pass engine snapshot states rest

/-- Pass after pass until nothing is pending; the answer is the states and the number of passes. -/
def resolve (engine : String) (snapshot : Universe) (states : States) (pending : List Pending) :
    Except StepError (States × Nat) :=
  if pending.isEmpty then .ok (states, 0)
  else
    match pass engine snapshot states pending with
    | .error e => .error e
    | .ok (states, deferred) =>
      if deferred.length < pending.length then
        (resolve engine snapshot states deferred).map fun (states, passes) => (states, passes + 1)
      else .error (.deadlock engine (deferred.map (·.stuck)))
termination_by pending.length

/-- Rules with their positions, from a position on. -/
def number (agent : String) (index : Nat) : List Rule → List Pending
  | [] => []
  | r :: rest => ⟨agent, index, r⟩ :: number agent (index + 1) rest

/-- All rules of an engine, agent by agent. -/
def pendingOf (rules : AgentRules) : List Pending :=
  rules.entries.flatMap fun e => number e.1 0 e.2

end Step

/-- The next state of every agent of an engine. -/
def RuleGraph.step (g : RuleGraph) (engine : String) (snapshot : Universe) :
    Except StepError States :=
  match g.agents engine with
  | .error e => .error (.graph e)
  | .ok rules => (Step.resolve engine snapshot Table.empty (Step.pendingOf rules)).map (·.1)

end Orrery
