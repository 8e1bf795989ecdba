import Orrery.Declaration
import Orrery.Producer
import Orrery.Provider

/-!
# Rule graphs

A rule takes what its consumed query names, applies a producer, and writes the result where its
produced query says.  A `RuleGraph` holds the rules of every agent of every engine, after these checks:

* every expression can be read, every producer is registered, every target can be written;
* every agent has a rule;
* no two rules of an agent write the same place, or a place inside another (`overlaps`); the root
  discards what is written to it and overlaps nothing;
* `agent` names an agent of the same engine.

Declarations are read in full before the last three are looked at.  Engines and agents go in the order
of their names, rules in the order in which they are declared, and the first failure is reported.
-/

namespace Orrery

/-- A rule that is ready to be fired. -/
structure Rule where
  /-- What the producer takes. -/
  consumed : Query
  /-- Where its result goes. -/
  produced : Query
  /-- The name of the producer. -/
  function : String
  /-- The producer. -/
  produce : Producer
  /-- The target names a place of the agent's own state. -/
  writable : produced.checkWriteTarget = .ok ()

/-- Where a rule stands. -/
structure RulePlace where
  /-- Its engine. -/
  engine : String
  /-- Its agent. -/
  agent : String
  /-- Its position among the agent's rules. -/
  index : Nat
  deriving DecidableEq

/-- The place of a rule, in words. -/
def RulePlace.text (p : RulePlace) : String :=
  "engine " ++ p.engine ++ ", agent " ++ p.agent ++ ", rule " ++ toString p.index

/-- Why there is no rule graph. -/
inductive GraphError where
  /-- The graph has no such engine. -/
  | unknownEngine (engine : String)
  /-- An expression gives no query. -/
  | parse (place : RulePlace) (cause : ProviderError)
  /-- A target cannot be written. -/
  | illegalWriteTarget (place : RulePlace) (cause : Query.WriteError)
  /-- A producer is not registered. -/
  | unknownFunction (place : RulePlace) (function : String)
  /-- A rule reads an agent that no engine has. -/
  | unknownAgent (engine agent referenced : String)
  /-- A rule reads an agent of another engine. -/
  | crossEngineReference (engine agent referenced owner : String)
  /-- Two rules write overlapping places. -/
  | duplicateProducer (engine agent : String) (target : Query) (first second : Nat)
  /-- An agent has no rules. -/
  | emptyAgent (engine agent : String)
  deriving DecidableEq

/-- What is wrong, in a sentence. -/
def GraphError.message : GraphError → String
  | .unknownEngine engine => "unknown engine " ++ engine
  | .parse place cause => place.text ++ ": " ++ cause.message
  | .illegalWriteTarget place cause => place.text ++ ": " ++ cause.message
  | .unknownFunction place function => place.text ++ ": unknown function `" ++ function ++ "`"
  | .unknownAgent engine agent referenced =>
    "engine " ++ engine ++ ", agent " ++ agent ++ ": reference to unknown agent " ++ referenced
  | .crossEngineReference engine agent referenced owner =>
    "engine " ++ engine ++ ", agent " ++ agent ++ ": " ++ referenced ++ " belongs to engine " ++ owner
      ++ "; cross-engine references are not supported"
  | .duplicateProducer engine agent target first second =>
    "engine " ++ engine ++ ", agent " ++ agent ++ ": `" ++ target.render ++ "` is produced by rules "
      ++ toString first ++ " and " ++ toString second
  | .emptyAgent engine agent =>
    "engine " ++ engine ++ ", agent " ++ agent ++ ": no producer rules declared"

/-- The rules of every agent. -/
abbrev AgentRules := Table (List Rule)

/-- The rules of every engine. -/
structure RuleGraph where
  /-- Rules by engine and agent. -/
  engines : Table AgentRules

/-! ## Structural checks -/

/-- One path leads to the place of the other, or through it. -/
def overlaps (a b : List String) : Bool := a.isPrefixOf b || b.isPrefixOf a

/-- The path that a rule writes; the root has none. -/
def Rule.path? (r : Rule) : Option (List String) :=
  match r.produced.targetPath? with
  | some [] => none
  | path => path

/-- The paths written so far with the positions of their rules, and the rules that are left: find the
first rule whose path overlaps an earlier one. -/
def firstOverlap (seen : List (List String × Nat)) (index : Nat) :
    List Rule → Option (Query × Nat × Nat)
  | [] => none
  | r :: rest =>
    match r.path? with
    | none => firstOverlap seen (index + 1) rest
    | some path =>
      match seen.find? fun s => overlaps path s.1 with
      | some s => some (r.produced, s.2, index)
      | none => firstOverlap (seen ++ [(path, index)]) (index + 1) rest

namespace RuleGraph

/-- The rules of an engine. -/
def agents (g : RuleGraph) (engine : String) : Except GraphError AgentRules :=
  match g.engines.get? engine with
  | some rules => .ok rules
  | none => .error (.unknownEngine engine)

/-- How many rules there are. -/
def ruleCount (g : RuleGraph) : Nat :=
  (g.engines.values.flatMap fun rules => rules.values.flatten).length

/-- The first engine that has an agent. -/
def owner? (engines : Table AgentRules) (agent : String) : Option String :=
  (engines.entries.find? fun e => e.2.contains agent).map (·.1)

/-- An agent that a rule reads belongs to the rule's own engine. -/
def checkReference (engines : Table AgentRules) (engine agent : String) (rules : AgentRules)
    (referenced : String) : Except GraphError Unit :=
  if rules.contains referenced then .ok ()
  else match owner? engines referenced with
    | some owner => .error (.crossEngineReference engine agent referenced owner)
    | none => .error (.unknownAgent engine agent referenced)

/-- Check the rules of one agent. -/
def checkAgent (engines : Table AgentRules) (engine : String) (rules : AgentRules)
    (agent : String) (own : List Rule) : Except GraphError Unit := do
  if own.isEmpty then throw (.emptyAgent engine agent)
  match firstOverlap [] 0 own with
  | some (target, first, second) => throw (.duplicateProducer engine agent target first second)
  | none => pure ()
  own.forM fun r => r.consumed.agents.forM (checkReference engines engine agent rules)

/-- Check the rules of all agents. -/
def ofRules (engines : Table AgentRules) : Except GraphError RuleGraph := do
  engines.entries.forM fun e => e.2.entries.forM fun a => checkAgent engines e.1 e.2 a.1 a.2
  return ⟨engines⟩

end RuleGraph

/-! ## From declarations -/

/-- The query that a declaration stands for. -/
def QuerySpec.read (provider : Provider) : QuerySpec → Except ProviderError Query
  | .text expression => provider expression
  | .query q => .ok q

/-- The rule that a declaration stands for: both queries, then the producer, then the target. -/
def RuleSpec.build (provider : Provider) (registry : Registry) (place : RulePlace) (s : RuleSpec) :
    Except GraphError Rule := do
  let consumed ← (s.consumed.read provider).mapError (.parse place)
  let produced ← (s.produced.read provider).mapError (.parse place)
  match registry.get? s.function with
  | none => throw (.unknownFunction place s.function)
  | some produce =>
    match h : produced.checkWriteTarget with
    | .ok () => return ⟨consumed, produced, s.function, produce, h⟩
    | .error e => throw (.illegalWriteTarget place e)

/-- The rules of one agent, from a position on. -/
def RuleSpec.buildAll (provider : Provider) (registry : Registry) (engine agent : String)
    (index : Nat) : List RuleSpec → Except GraphError (List Rule)
  | [] => .ok []
  | s :: rest => do
    let r ← s.build provider registry ⟨engine, agent, index⟩
    let rs ← buildAll provider registry engine agent (index + 1) rest
    return r :: rs

/-- Read every declaration, then check the whole. -/
def RuleGraph.build (provider : Provider) (registry : Registry) (engines : Table EngineSpec) :
    Except GraphError RuleGraph := do
  let table ← engines.mapEntries fun engine spec =>
    spec.agents.mapEntries fun agent rules => RuleSpec.buildAll provider registry engine agent 0 rules
  RuleGraph.ofRules table

end Orrery
