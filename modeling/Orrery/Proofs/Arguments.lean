import Orrery.Proofs.Resolution
import Mathlib.Data.List.Forall2
import Mathlib.Logic.Function.Iterate

/-!
# What a producer is given

A query is found as one value, and a producer takes a list of them.  In between, a tuple is handed over
item by item and everything else as it is.  A list may be either: the items of a tuple that have been read
together, or what a field holds.  Looking at the value cannot tell, so `Query.arguments` looks at the
query, and this file shows that it tells the two apart.

* `Query.spreads_iff`: the queries that are handed over item by item are the tuples below any number of
  `prev`, which is written `Query.prev^[n] (.tuple items)`.
* `Scope.lookup?_iterate_prev`: one `prev` is enough to read the snapshot, and more of them change nothing.
* `Scope.lookup?_tuple_eq_some_iff`: such a query is found as the list of its items, each read where the
  tuple is read.  So a tuple is never found as anything but a list.
* `Scope.Handed`: which arguments belong to a query that was found.
* `Step.fire_hands_over`: a rule that is fired gives its producer these arguments, whatever the producer
  makes of them.
-/

namespace Orrery

namespace Query

variable {q : Query}

/-- **What is handed over item by item is a tuple below any number of `prev`.** -/
theorem spreads_iff : q.spreads = true ↔ ∃ n items, q = Query.prev^[n] (.tuple items) := by
  constructor
  · intro h
    induction q using spreads.induct with
    | case1 items => exact ⟨0, items, rfl⟩
    | case2 inner ih =>
      obtain ⟨n, items, rfl⟩ := ih (by rwa [spreads] at h)
      exact ⟨n + 1, items, (Function.iterate_succ_apply' ..).symm⟩
    | case3 q htuple hprev => simp [spreads] at h
  · rintro ⟨n, items, rfl⟩
    induction n with
    | zero => rfl
    | succ n ih => rwa [Function.iterate_succ_apply', spreads]

/-- The list that a tuple is found as is taken apart. -/
theorem arguments_list (h : q.spreads = true) (values : List Value) :
    q.arguments (.list values) = values := by
  simp only [arguments, h]

/-- Whatever another query is found as, lists included, is one argument. -/
theorem arguments_of_not_spreads (h : q.spreads = false) (input : Value) :
    q.arguments input = [input] := by
  simp only [arguments, h]

end Query

namespace Scope

variable (s : Scope) (states : States)

/-- One `prev` is enough to read the snapshot. -/
theorem lookup?_iterate_prev (previous : Bool) (n : Nat) (q : Query) :
    s.lookup? states previous (Query.prev^[n] q) = s.lookup? states (previous || decide (0 < n)) q := by
  induction n generalizing previous with
  | zero => simp
  | succ n ih => simp [Function.iterate_succ_apply', lookup?, ih]

/-- Queries in a row are found as one value for each, in their order. -/
theorem lookupItems?_eq_some_iff {previous : Bool} {items : List Query} {values : List Value} :
    s.lookupItems? states previous items = some values ↔
      List.Forall₂ (fun item v => s.lookup? states previous item = some v) items values := by
  induction items generalizing values with
  | nil => simp [lookupItems?, eq_comm]
  | cons q rest ih =>
    rw [lookupItems?, List.forall₂_cons_left_iff]
    cases s.lookup? states previous q with
    | none => simp
    | some v =>
      simp only [Option.map_eq_some_iff, ih, Option.some.injEq]
      constructor
      · rintro ⟨others, hothers, rfl⟩
        exact ⟨v, others, rfl, hothers, rfl⟩
      · rintro ⟨_, others, rfl, hothers, rfl⟩
        exact ⟨others, hothers, rfl⟩

/-- **A tuple is found as the list of its items**, each read where the tuple is read. -/
theorem lookup?_tuple_eq_some_iff {previous : Bool} {n : Nat} {items : List Query} {input : Value} :
    s.lookup? states previous (Query.prev^[n] (.tuple items)) = some input ↔
      ∃ values, input = .list values ∧
        List.Forall₂ (fun item v => s.lookup? states (previous || decide (0 < n)) item = some v)
          items values := by
  rw [lookup?_iterate_prev, lookup?, Option.map_eq_some_iff]
  refine exists_congr fun values => ?_
  rw [lookupItems?_eq_some_iff, and_comm, eq_comm]

/-- The arguments that belong to a query found as a value. -/
structure Handed (q : Query) (input : Value) (args : List Value) : Prop where
  /-- A tuple makes one argument for each item, in their order.  The items are read where the tuple is:
  in the snapshot if there is a `prev`, and under construction if there is none. -/
  items : ∀ n items, q = Query.prev^[n] (.tuple items) →
    List.Forall₂ (fun item arg => s.lookup? states (decide (0 < n)) item = some arg) items args
  /-- A tuple among the items is one argument, the list of its own items. -/
  nested : ∀ n items, q = Query.prev^[n] (.tuple items) → ∀ (i m : Nat) (inner : List Query),
    items[i]? = some (Query.prev^[m] (.tuple inner)) →
      ∃ values, args[i]? = some (Value.list values) ∧
        List.Forall₂ (fun item v => s.lookup? states (decide (0 < n + m)) item = some v) inner values
  /-- Anything else is one argument, also if it is a list. -/
  single : (∀ n items, q ≠ Query.prev^[n] (.tuple items)) → args = [input]

variable {s states} {q : Query} {input : Value}

/-- A tuple is never found as anything but a list. -/
theorem exists_list_of_spreads (h : s.resolve? states q = some input) (hq : q.spreads = true) :
    ∃ values, input = .list values := by
  obtain ⟨n, items, rfl⟩ := Query.spreads_iff.1 hq
  obtain ⟨values, hinput, -⟩ := (s.lookup?_tuple_eq_some_iff states).1 h
  exact ⟨values, hinput⟩

/-- The arguments of a tuple are the values of its items. -/
theorem forall₂_arguments {n : Nat} {items : List Query}
    (h : s.resolve? states (Query.prev^[n] (.tuple items)) = some input) :
    List.Forall₂ (fun item arg => s.lookup? states (decide (0 < n)) item = some arg) items
      ((Query.prev^[n] (.tuple items)).arguments input) := by
  obtain ⟨values, rfl, hvalues⟩ := (s.lookup?_tuple_eq_some_iff states).1 h
  rw [Query.arguments_list (Query.spreads_iff.2 ⟨n, items, rfl⟩)]
  simpa only [Bool.false_or] using hvalues

/-- **A query that is found makes the arguments that belong to it.** -/
theorem handed_arguments (h : s.resolve? states q = some input) :
    s.Handed states q input (q.arguments input) := by
  refine ⟨?_, ?_, ?_⟩
  · rintro n items rfl
    exact forall₂_arguments h
  · rintro n items rfl i m inner hitem
    have hargs := forall₂_arguments h
    obtain ⟨hlt, hget⟩ := List.getElem?_eq_some_iff.1 hitem
    -- the argument at this position is what the inner tuple was found as
    have hlt' := hargs.length_eq ▸ hlt
    have hfound := hargs.get hlt hlt'
    rw [List.get_eq_getElem, hget, lookup?_tuple_eq_some_iff] at hfound
    obtain ⟨values, harg, hvalues⟩ := hfound
    have hbelow : (decide (0 < n) || decide (0 < m)) = decide (0 < n + m) := by
      rw [← Bool.decide_or, decide_eq_decide]
      omega
    rw [hbelow] at hvalues
    exact ⟨values, List.getElem?_eq_some_iff.2 ⟨hlt', harg⟩, hvalues⟩
  · intro hnot
    refine Query.arguments_of_not_spreads (Bool.eq_false_iff.2 fun hq => ?_) input
    obtain ⟨n, items, rfl⟩ := Query.spreads_iff.1 hq
    exact hnot n items rfl

end Scope

/-- The rule with another producer. -/
def Pending.asking (p : Pending) (produce : Producer) : Pending :=
  { p with rule := { p.rule with produce := produce } }

namespace Step

/-- What comes of the answer of a producer: the states with its output in place, or a failed step. -/
def conclude (engine : String) (snapshot : Universe) (states : States) (p : Pending) :
    Except ProducerError Value → Except StepError (Option States)
  | .error cause => .error (.producer ⟨engine, p.agent, p.index⟩ p.rule.function cause)
  | .ok output =>
    match (scopeOf engine snapshot p).write states p.rule.produced output with
    | .error cause => .error (.write ⟨engine, p.agent, p.index⟩ cause)
    | .ok after => .ok (some after)

/-- A rule that is fired asks its producer, whoever that is, for the arguments its query makes. -/
theorem fire_asking {engine : String} {snapshot : Universe} {states : States} {p : Pending}
    {input : Value}
    (h : (scopeOf engine snapshot p).resolve? states p.rule.consumed = some input)
    (produce : Producer) :
    fire engine snapshot states (p.asking produce) =
      conclude engine snapshot states p (produce (p.rule.consumed.arguments input)) := by
  have hcall : call? engine snapshot states (p.asking produce) =
      some ⟨p.asking produce, input, produce (p.rule.consumed.arguments input)⟩ :=
    Option.map_eq_some_iff.2 ⟨input, h, rfl⟩
  rw [fire_of_call? hcall]
  unfold conclude
  rfl

/-- **The arguments of a rule that is fired.**  Take any rule whose consumed query is found.  If the query
is a tuple below any number of `prev`, it is found as a list, and the producer is given one argument for
each item of the tuple, read where the tuple is read; a tuple among the items stays one argument.  For any
other query the producer is given one argument, which is what was found.  All of this is said of whatever
producer the rule may have, so that one which tells its arguments would tell these. -/
theorem fire_hands_over {engine : String} {snapshot : Universe} {states : States} {p : Pending}
    {input : Value}
    (h : (scopeOf engine snapshot p).resolve? states p.rule.consumed = some input) :
    (p.rule.consumed.spreads = true → ∃ values, input = .list values) ∧
    ∃ args, (scopeOf engine snapshot p).Handed states p.rule.consumed input args ∧
      ∀ produce, fire engine snapshot states (p.asking produce) =
        conclude engine snapshot states p (produce args) :=
  ⟨Scope.exists_list_of_spreads h, _, Scope.handed_arguments h, fire_asking h⟩

end Step

/-! ## A courier

The courier has a route, which is a list, and reads it in two ways: together with other things, and by
itself. -/

namespace Courier

/-- The route. -/
def route : Value := .list [.text "mill", .text "bridge"]

/-- What was committed. -/
def snapshot : Universe :=
  Table.single "town" (Table.ofList
    [("courier", .mapping [("load", .text "flour"), ("route", route)]), ("depot", .null)])

/-- The route, and then the load together with the depot. -/
def report : Pending :=
  ⟨"courier", 0, ⟨.prev (.prev (.tuple [.base "route", .tuple [.base "load", .agent "depot"]])),
    .base "report", "arguments", Producer.arguments, rfl⟩⟩

/-- The route alone. -/
def itinerary : Pending :=
  ⟨"courier", 1, ⟨.prev (.base "route"), .base "itinerary", "arguments", Producer.arguments, rfl⟩⟩

/-- What is carried. -/
def parcel : Value := .list [.text "flour", .null]

end Courier

/-- The report has two arguments, the second of which is a list that was a tuple.  The itinerary has one,
which is a list by itself. -/
theorem Step.courier_hands_over :
    (scopeOf "town" Courier.snapshot Courier.report).resolve? Table.empty
        Courier.report.rule.consumed = some (.list [Courier.route, Courier.parcel]) ∧
    (scopeOf "town" Courier.snapshot Courier.itinerary).resolve? Table.empty
        Courier.itinerary.rule.consumed = some Courier.route ∧
    (∀ produce, fire "town" Courier.snapshot Table.empty (Courier.report.asking produce) =
      conclude "town" Courier.snapshot Table.empty Courier.report
        (produce [Courier.route, Courier.parcel])) ∧
    ∀ produce, fire "town" Courier.snapshot Table.empty (Courier.itinerary.asking produce) =
      conclude "town" Courier.snapshot Table.empty Courier.itinerary (produce [Courier.route]) := by
  have hreport : (scopeOf "town" Courier.snapshot Courier.report).resolve? Table.empty
      Courier.report.rule.consumed = some (.list [Courier.route, Courier.parcel]) := by decide
  have hitinerary : (scopeOf "town" Courier.snapshot Courier.itinerary).resolve? Table.empty
      Courier.itinerary.rule.consumed = some Courier.route := by decide
  obtain ⟨-, args, hargs, hgiven⟩ := fire_hands_over hreport
  obtain ⟨-, args', hargs', hgiven'⟩ := fire_hands_over hitinerary
  have hread : (scopeOf "town" Courier.snapshot Courier.report).lookupItems? Table.empty true
      [.base "route", .tuple [.base "load", .agent "depot"]] =
        some [Courier.route, Courier.parcel] := by decide
  have hpair : args = [Courier.route, Courier.parcel] :=
    Option.some.inj (((Scope.lookupItems?_eq_some_iff _ _).2 (hargs.items 2 _ rfl)).symm.trans hread)
  have hone : args' = [Courier.route] := hargs'.single fun n items heq =>
    absurd (Query.spreads_iff.2 ⟨n, items, heq⟩) (by decide)
  rw [hpair] at hgiven
  rw [hone] at hgiven'
  exact ⟨hreport, hitinerary, hgiven, hgiven'⟩

end Orrery
