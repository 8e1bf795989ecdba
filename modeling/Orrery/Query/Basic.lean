import Orrery.Table

/-!
# Queries

A query names a place in the state of an agent, or in the committed state of another one.  It is what a
rule consumes and what it produces.

* `base f` is a field of the agent the rule belongs to, `root` the agent's whole state;
* `prev q` reads `q` in the committed snapshot instead of the state under construction;
* `agent a` is the committed state of the agent `a`;
* `access q f` is the field `f` of whatever `q` names;
* `tuple qs` is a list of queries, read together and handed over one by one.

Not every query names a place that can be written: `Query.checkWriteTarget` accepts `root`, `base` and
chains of `access` above them, and names the innermost node that stands in the way otherwise.
-/

namespace Orrery

/-- A place to read from or to write to. -/
inductive Query where
  /-- Read in the committed snapshot. -/
  | prev (inner : Query)
  /-- The whole state of the subject. -/
  | root
  /-- The committed state of another agent. -/
  | agent (name : String)
  /-- A field of what another query names. -/
  | access (container : Query) (field : String)
  /-- A field of the subject. -/
  | base (field : String)
  /-- Several queries in a row. -/
  | tuple (items : List Query)
  deriving Inhabited

namespace Query

/-- The sort of a query's outermost node, in the order in which queries are listed. -/
inductive Kind where
  /-- `Query.prev` -/
  | prev
  /-- `Query.root` -/
  | root
  /-- `Query.agent` -/
  | agent
  /-- `Query.access` -/
  | access
  /-- `Query.base` -/
  | base
  /-- `Query.tuple` -/
  | tuple
  deriving DecidableEq, Repr

namespace Kind

/-- Every kind, in order. -/
def all : List Kind := [.prev, .root, .agent, .access, .base, .tuple]

/-- The name of a kind. -/
def name : Kind → String
  | .prev => "Prev"
  | .root => "Root"
  | .agent => "Agent"
  | .access => "Access"
  | .base => "Base"
  | .tuple => "Tuple"

/-- The kind of a name. -/
def ofName? (s : String) : Option Kind := all.find? fun k => k.name = s

/-- The place of a kind in the order. -/
def rank : Kind → Nat
  | .prev => 0
  | .root => 1
  | .agent => 2
  | .access => 3
  | .base => 4
  | .tuple => 5

@[simp] theorem ofName?_name (k : Kind) : ofName? k.name = some k := by cases k <;> decide

end Kind

/-- The sort of the outermost node. -/
def kind : Query → Kind
  | .prev _ => .prev
  | .root => .root
  | .agent _ => .agent
  | .access .. => .access
  | .base _ => .base
  | .tuple _ => .tuple

mutual

/-- The expression that denotes a query. -/
def render : Query → String
  | .prev inner => "prev!(" ++ render inner ++ ")"
  | .root => "root!()"
  | .agent name => "agent!(" ++ name ++ ")"
  | .access container field => render container ++ "." ++ field
  | .base field => field
  | .tuple [] => "()"
  | .tuple (q :: rest) => "(" ++ render q ++ renderItems rest

/-- What follows the first item of a tuple. -/
def renderItems : List Query → String
  | [] => ")"
  | q :: rest => ", " ++ render q ++ renderItems rest

end

/-! ## Equality and order -/

mutual

/-- Structural comparison. -/
def same : Query → Query → Bool
  | .prev a, .prev b => same a b
  | .root, .root => true
  | .agent a, .agent b => a == b
  | .access a f, .access b g => same a b && f == g
  | .base a, .base b => a == b
  | .tuple a, .tuple b => sameItems a b
  | _, _ => false

/-- Structural comparison of lists. -/
def sameItems : List Query → List Query → Bool
  | [], [] => true
  | a :: as, b :: bs => same a b && sameItems as bs
  | _, _ => false

end

mutual

theorem same_iff : ∀ a b : Query, same a b = true ↔ a = b
  | .prev a, b => by
    cases b with
    | prev b => simp only [same, Query.prev.injEq]; exact same_iff a b
    | _ => simp [same]
  | .root, b => by cases b <;> simp [same]
  | .agent a, b => by cases b <;> simp [same]
  | .access a f, b => by
    cases b with
    | access b g =>
      simp only [same, Bool.and_eq_true, beq_iff_eq, Query.access.injEq]
      rw [same_iff a b]
    | _ => simp [same]
  | .base a, b => by cases b <;> simp [same]
  | .tuple a, b => by
    cases b with
    | tuple b => simp only [same, Query.tuple.injEq]; exact sameItems_iff a b
    | _ => simp [same]

theorem sameItems_iff : ∀ a b : List Query, sameItems a b = true ↔ a = b
  | [], b => by cases b <;> simp [sameItems]
  | a :: as, b => by
    cases b with
    | nil => simp [sameItems]
    | cons b bs =>
      simp only [sameItems, Bool.and_eq_true, List.cons.injEq]
      rw [same_iff a b, sameItems_iff as bs]

end

instance : DecidableEq Query := fun a b => decidable_of_iff (same a b = true) (same_iff a b)

mutual

/-- The order of queries: by kind, then by content; a tuple that begins another comes first. -/
def order : Query → Query → Ordering
  | .prev a, .prev b => order a b
  | .agent a, .agent b => compare a b
  | .access a f, .access b g => (order a b).then (compare f g)
  | .base a, .base b => compare a b
  | .tuple a, .tuple b => orderItems a b
  | a, b => compare a.kind.rank b.kind.rank

/-- The order of lists of queries. -/
def orderItems : List Query → List Query → Ordering
  | [], [] => .eq
  | [], _ :: _ => .lt
  | _ :: _, [] => .gt
  | a :: as, b :: bs => (order a b).then (orderItems as bs)

end

/-- Queries in order; equal ones keep their places. -/
def sort (qs : List Query) : List Query := qs.mergeSort fun a b => (order a b).isLE

/-- How many different queries a list holds. -/
def distinct (qs : List Query) : Nat := qs.eraseDups.length

/-! ## What a query mentions -/

mutual

/-- The agents that a query names, in the order of their occurrence. -/
def agents : Query → List String
  | .agent name => [name]
  | .prev inner => agents inner
  | .access container _ => agents container
  | .tuple items => itemAgents items
  | .root | .base _ => []

/-- The agents that queries in a row name. -/
def itemAgents : List Query → List String
  | [] => []
  | q :: rest => agents q ++ itemAgents rest

end

/-! ## Places that can be written -/

/-- Why a query cannot be written through. -/
inductive WriteError where
  /-- A node on the way names no place of its own. -/
  | illegalTarget (node : Query)
  /-- The container of a field holds something that has no fields. -/
  | notAMapping (container : Query)
  deriving DecidableEq

/-- What is wrong, in a sentence. -/
def WriteError.message : WriteError → String
  | .illegalTarget q => q.kind.name ++ " cannot be written to (in `" ++ q.render ++ "`)"
  | .notAMapping q => "`" ++ q.render ++ "` does not hold a mapping"

/-- Accept a query that names a place of the subject's own state. -/
def checkWriteTarget : Query → Except WriteError Unit
  | .root => .ok ()
  | .base _ => .ok ()
  | .access container _ => checkWriteTarget container
  | q => .error (.illegalTarget q)

/-- The fields that lead from the subject's state to a writable place; nothing for any other query. -/
def targetPath? : Query → Option (List String)
  | .root => some []
  | .base field => some [field]
  | .access container field => (targetPath? container).map (· ++ [field])
  | _ => none

/-- A query is writable exactly when it has a path. -/
theorem checkWriteTarget_eq_ok_iff (q : Query) :
    q.checkWriteTarget = .ok () ↔ q.targetPath?.isSome := by
  induction q using checkWriteTarget.induct with
  | case1 => simp [checkWriteTarget, targetPath?]
  | case2 => simp [checkWriteTarget, targetPath?]
  | case3 container field ih => simp [checkWriteTarget, targetPath?, ih]
  | case4 q h1 h2 h3 => cases q <;> simp_all [checkWriteTarget, targetPath?]

end Query

end Orrery
