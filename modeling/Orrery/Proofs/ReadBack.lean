import Orrery.Proofs.Store
import Orrery.Proofs.Timeline

/-!
# Reading the history back

A snapshot is made of all records that contain a point, the seed underneath.  This file says what it
holds, for every simulation that can be looked at and every point of time, infinities and what is not a
number included.

Between its initial time and its clock, an agent has one record for every point
(`Record.Chained.exists_filter_contains`), and since the seed is older, that record decides.  Everywhere
else only the seed can speak, and it speaks about all agents up to the *latest* initial time: before an
agent has started, but also after its clock, as long as some agent starts later than that.

* `Recalls`: the three cases, as an answer that a look-up may give.
* `recalls_of_reachable`: every look-up in a snapshot is one of them, and names no one else.
-/

namespace Orrery

universe u

namespace Record

variable {α : Type u} {start finish point : Float} {records : List (Record α)}

/-- What lies in a record of a chain lies between the ends of the chain. -/
theorem Chained.within_of_contains (h : Chained start records finish) (hstart : start ≤ start)
    {r : Record α} (hr : r ∈ records) (hpoint : r.contains point = true) :
    start ≤ point ∧ point < finish := by
  obtain ⟨hlow, hhigh⟩ := contains_iff.1 hpoint
  exact ⟨Binary64.le_trans (h.start_le_low hstart r hr) hlow,
    Binary64.lt_of_lt_of_le hhigh (h.high_le_finish r hr)⟩

/-- No record of a chain contains a point outside of it. -/
theorem Chained.filter_contains_eq_nil (h : Chained start records finish) (hstart : start ≤ start)
    (hout : ¬ (start ≤ point ∧ point < finish)) : records.filter (·.contains point) = [] :=
  List.filter_eq_nil_iff.2 fun _ hr hpoint => hout (h.within_of_contains hstart hr hpoint)

/-- **Exactly one record of a chain contains a point between its ends.** -/
theorem Chained.exists_filter_contains (h : Chained start records finish) (hlow : start ≤ point)
    (hhigh : point < finish) : ∃ r, records.filter (·.contains point) = [r] := by
  induction records generalizing start with
  | nil =>
    obtain rfl : start = finish := h
    exact absurd hlow (Binary64.not_le_of_lt hhigh)
  | cons first rest ih =>
    obtain ⟨rfl, hlt, hrest⟩ := h
    have hnumber : first.high ≤ first.high := Binary64.le_self_of_lt hlt
    rcases Binary64.lt_or_le (Binary64.le_self_of_le hlow).2 hnumber with hfirst | hlater
    · -- the first record contains the point, so the others begin after it
      have hhere : first.contains point = true := contains_iff.2 ⟨hlow, hfirst⟩
      have hothers : rest.filter (·.contains point) = [] :=
        hrest.filter_contains_eq_nil hnumber fun hwithin =>
          Binary64.not_le_of_lt hfirst hwithin.1
      exact ⟨first, by rw [List.filter_cons, if_pos hhere, hothers]⟩
    · have hnot : ¬ first.contains point = true := fun hhere =>
        Binary64.not_le_of_lt (contains_iff.1 hhere).2 hlater
      rw [List.filter_cons, if_neg hnot]
      exact ih hrest hlater

end Record

namespace Simulation

variable {graph : RuleGraph} {engine : String} {initial : States} {settings : Settings}
variable {s : Simulation} {agent : String}

/-! ## The records about one agent -/

/-- The history is the seed and what came later. -/
theorem Timeline.exists_records (h : Timeline graph engine initial settings s) :
    ∃ seed, s.store.records = seed :: s.store.records.tail ∧ seed.low = settings.seedLow ∧
      LatestStart initial seed.high ∧ seed.value = initial := by
  obtain ⟨seed, hhead, hseed⟩ := h.seed
  exact ⟨seed, (List.cons_head?_tail hhead).symm, hseed⟩

theorem Timeline.records_ne_nil (h : Timeline graph engine initial settings s) :
    s.store.records ≠ [] := by
  obtain ⟨seed, hseed, -⟩ := h.exists_records
  rw [hseed]
  exact List.cons_ne_nil _ _

/-- Every agent has an initial state. -/
theorem Timeline.exists_initial (h : Timeline graph engine initial settings s)
    (hagent : agent ∈ s.agents) : ∃ own, initial.get? agent = some own := by
  rw [← h.agents] at hagent
  exact Table.mem_keys_iff.1 hagent

/-- An initial time is a number. -/
theorem Line.start_le_start {start clock : Float} (h : Line initial s agent start clock) :
    start ≤ start := by
  cases hown : s.ownRecords agent with
  | nil =>
    have hchained := h.chained
    rw [hown] at hchained
    obtain rfl : start = clock := hchained
    exact Binary64.le_refl h.finite
  | cons first rest =>
    have hchained := h.chained
    rw [hown] at hchained
    obtain ⟨rfl, hlt, -⟩ := hchained
    exact (Binary64.le_self_of_le (Binary64.le_of_lt hlt)).1

/-- At any point, the records about an agent are the seed and those of its line. -/
theorem Timeline.about_eq (h : Timeline graph engine initial settings s) (hagent : agent ∈ s.agents)
    {seed : Record States} (hseed : s.store.records = seed :: s.store.records.tail)
    (hvalue : seed.value = initial) (point : Float) :
    s.store.about agent point =
      (if seed.contains point = true then [seed] else []) ++
        (s.ownRecords agent).filter (·.contains point) := by
  obtain ⟨own, hown⟩ := h.exists_initial hagent
  have hholds : seed.value.contains agent = true := by
    rw [hvalue, Table.contains, hown]
    rfl
  rw [Store.about, hseed, List.filter_cons, hholds, Bool.and_true, ownRecords, List.filter_filter]
  by_cases hpoint : seed.contains point = true
  · rw [if_pos hpoint, if_pos hpoint]
    rfl
  · rw [if_neg hpoint, if_neg hpoint]
    rfl

/-! ## What is found -/

/-- The answer of a history about an agent at a point: the agent started with the state `own` at the
time `start` and has come to its clock, and the seed reaches from `low` to `high`. -/
inductive Recalls (s : Simulation) (agent : String) (own : Value) (start clock low high point : Float) :
    Option Value → Prop
  /-- Between its start and its clock, exactly one record of the agent contains the point. -/
  | recorded {r : Record States} {state : Value} (inside : start ≤ point ∧ point < clock)
      (only : (s.ownRecords agent).filter (·.contains point) = [r])
      (value : r.value = Table.single agent state) :
      Recalls s agent own start clock low high point (some state)
  /-- Elsewhere in the seed, the agent is where it started. -/
  | seeded (outside : ¬ (start ≤ point ∧ point < clock)) (inside : low ≤ point ∧ point < high) :
      Recalls s agent own start clock low high point (some own)
  /-- Elsewhere there is nothing. -/
  | absent (outside : ¬ (start ≤ point ∧ point < clock)) (unseeded : ¬ (low ≤ point ∧ point < high)) :
      Recalls s agent own start clock low high point none

/-- The state of an agent in one of its records. -/
theorem Timeline.exists_state (h : Timeline graph engine initial settings s) {r : Record States}
    (hr : r ∈ s.ownRecords agent) :
    ∃ state, r.value = Table.single agent state ∧ state.time? = some r.high := by
  obtain ⟨htail, hholds⟩ := List.mem_filter.1 hr
  obtain ⟨other, -, state, hvalue, htime, -⟩ := h.later r htail
  rw [hvalue, Table.contains_single, decide_eq_true_eq] at hholds
  subst hholds
  exact ⟨state, hvalue, htime⟩

/-- **A snapshot recalls every agent.** -/
theorem Timeline.recalls (h : Timeline graph engine initial settings s) (hagent : agent ∈ s.agents)
    (point : Float) :
    ∃ own start clock last, initial.get? agent = some own ∧ own.time? = some start ∧
      s.clocks.get? agent = some clock ∧ LatestStart initial last ∧
      Recalls s agent own start clock settings.seedLow last point
        ((s.store.merge point).get? agent) := by
  obtain ⟨seed, hseed, hlow, hlatest, hvalue⟩ := h.exists_records
  obtain ⟨start, clock, hline⟩ := h.lines agent hagent
  obtain ⟨own, hown, hstart⟩ := hline.started
  refine ⟨own, start, clock, seed.high, hown, hstart, hline.shown, hlatest, ?_⟩
  have habout := h.about_eq hagent hseed hvalue point
  rw [Store.get?_merge]
  by_cases hinside : start ≤ point ∧ point < clock
  · obtain ⟨r, hr⟩ := hline.chained.exists_filter_contains hinside.1 hinside.2
    have hmem : r ∈ (s.ownRecords agent).filter (·.contains point) := by simp [hr]
    obtain ⟨state, hstate, -⟩ := h.exists_state (List.mem_filter.1 hmem).1
    -- the seed may contain the point as well, but it is older
    have hfound : (s.store.about agent point).getLast? = some r := by
      rw [habout, hr, List.getLast?_append]
      rfl
    rw [hfound, Option.bind_some, hstate, Table.get?_single, if_pos rfl]
    exact .recorded hinside hr hstate
  · have hnone := hline.chained.filter_contains_eq_nil hline.start_le_start hinside
    rw [hnone, List.append_nil] at habout
    rw [habout]
    by_cases hpoint : seed.contains point = true
    · rw [if_pos hpoint, List.getLast?_singleton, Option.bind_some, hvalue, hown]
      refine .seeded hinside ?_
      rw [← hlow]
      exact Record.contains_iff.1 hpoint
    · rw [if_neg hpoint, List.getLast?_nil, Option.bind_none]
      refine .absent hinside ?_
      rw [← hlow]
      exact fun hseeded => hpoint (Record.contains_iff.2 hseeded)

/-- A snapshot holds agents only. -/
theorem Timeline.mem_agents_of_get?_merge (h : Timeline graph engine initial settings s)
    {point : Float} {name : String} {value : Value}
    (hget : (s.store.merge point).get? name = some value) : name ∈ s.agents := by
  obtain ⟨seed, hseed, -, -, hvalue⟩ := h.exists_records
  obtain ⟨r, hr, hholds⟩ := Store.exists_mem_of_get?_merge hget
  rw [hseed] at hr
  rcases List.mem_cons.1 hr with rfl | hr
  · rw [hvalue] at hholds
    rw [← h.agents]
    exact Table.mem_keys_iff.2 ⟨value, hholds⟩
  · obtain ⟨agent, hagent, state, hstate, -, -⟩ := h.later r hr
    rw [hstate, Table.get?_single] at hholds
    by_cases heq : agent = name
    · rwa [← heq]
    · rw [if_neg heq] at hholds
      exact absurd hholds (by simp)

/-- **The history can be read back.**  At every moment of every simulation and for every point of time,
a snapshot holds for each agent the state of the one record of the agent that contains the point, if the
point lies between its initial time and its clock; its initial state, if the point lies elsewhere in the
seed; and nothing otherwise.  It holds no other names. -/
theorem recalls_of_reachable (h : Reachable graph engine initial settings s) (point : Float) :
    (∀ agent ∈ s.agents, ∃ own start clock last, initial.get? agent = some own ∧
      own.time? = some start ∧ s.clocks.get? agent = some clock ∧ LatestStart initial last ∧
      Recalls s agent own start clock settings.seedLow last point
        ((s.store.merge point).get? agent)) ∧
    ∀ name, name ∉ s.agents → (s.store.merge point).get? name = none := by
  refine ⟨fun agent hagent => h.timeline.recalls hagent point, fun name hname => ?_⟩
  cases hget : (s.store.merge point).get? name with
  | none => rfl
  | some value => exact absurd (h.timeline.mem_agents_of_get?_merge hget) hname

end Simulation

/-! ## An agent that starts late

Both agents go on by one unit at a time, but one of them starts at ten, and the seed reaches until
then. -/

/-- A rule that writes a field of its agent. -/
def Rule.forField (field : String) (consumed : Query) (function : String) (produce : Producer) : Rule :=
  ⟨consumed, .base field, function, produce, rfl⟩

namespace Belated

/-- The rules of either agent. -/
def rules : List Rule :=
  [.forField "time" (.tuple [.prev (.base "time"), .prev (.base "timeStep")]) "time_manager"
    Producer.timeManager,
   .forField "timeStep" (.prev (.base "timeStep")) "identity" Producer.identity]

/-- One engine. -/
def engines : Table AgentRules :=
  Table.single "watch" ⟨[("early", rules), ("late", rules)], List.pairwise_pair.2 (by decide)⟩

/-- Its rules, which are accepted. -/
def graph : RuleGraph := ⟨engines⟩

/-- The state of an agent at a time. -/
def stateAt (time : Float) : Value := .mapping [("time", .ofFloat time), ("timeStep", .ofFloat 1.0)]

/-- Where the agents start. -/
def initial : States :=
  ⟨[("early", stateAt 0.0), ("late", stateAt 10.0)], List.pairwise_pair.2 (by decide)⟩

/-- Snapshots are read half a unit before the clock. -/
def settings : Settings := ⟨"belated", 1, 0.5, -10.0⟩

/-- The new simulation. -/
def start : Simulation :=
  ⟨graph, "watch", ["early", "late"], ⟨[⟨-10.0, 10.0, initial, by decide⟩]⟩,
    ⟨[("early", 0.0), ("late", 10.0)], List.pairwise_pair.2 (by decide)⟩, 0.5⟩

theorem create_start : Simulation.create graph "watch" initial settings = .ok start := rfl

end Belated

/-- After one iteration the early agent has a record up to one.  Before that point it is recalled from
its record, from there to the start of the other agent from the seed, and later not at all. -/
theorem Simulation.belated_recalls :
    Reachable Belated.graph "watch" Belated.initial Belated.settings
      (Belated.start.run 1).simulation ∧
    ((Belated.start.run 1).simulation.store.merge 0.5).get? "early" = some (Belated.stateAt 1.0) ∧
    ((Belated.start.run 1).simulation.store.merge 9.5).get? "early" = some (Belated.stateAt 0.0) ∧
    ((Belated.start.run 1).simulation.store.merge 10.5).get? "early" = none ∧
    ∃ own start clock last, Belated.initial.get? "early" = some own ∧ own.time? = some start ∧
      (Belated.start.run 1).simulation.clocks.get? "early" = some clock ∧
      LatestStart Belated.initial last ∧
      Recalls (Belated.start.run 1).simulation "early" own start clock Belated.settings.seedLow last 9.5
        (((Belated.start.run 1).simulation.store.merge 9.5).get? "early") := by
  have hreach : Reachable Belated.graph "watch" Belated.initial Belated.settings
      (Belated.start.run 1).simulation := .driven (.created Belated.create_start) 1
  have hagent : "early" ∈ (Belated.start.run 1).simulation.agents := by decide +kernel
  exact ⟨hreach, by decide +kernel, by decide +kernel, by decide +kernel,
    (recalls_of_reachable hreach 9.5).1 "early" hagent⟩

end Orrery
