import Orrery.Query.Basic
import Orrery.Value.Basic

/-!
# Declared engines

What a configuration says about an engine: the initial state of its agents and, for every agent, the
rules in their order.  A query of a rule is either given outright or as an expression that a provider
will read.
-/

namespace Orrery

/-- A query as it is declared. -/
inductive QuerySpec where
  /-- An expression to be read. -/
  | text (expression : String)
  /-- The query itself. -/
  | query (q : Query)
  deriving DecidableEq

/-- A rule as it is declared. -/
structure RuleSpec where
  /-- What the producer takes. -/
  consumed : QuerySpec
  /-- Where its result goes. -/
  produced : QuerySpec
  /-- The name of the producer. -/
  function : String
  deriving DecidableEq

/-- An engine as it is declared. -/
structure EngineSpec where
  /-- The state of every agent at the start. -/
  initial : States
  /-- The rules of every agent. -/
  agents : Table (List RuleSpec)
  deriving DecidableEq

end Orrery
