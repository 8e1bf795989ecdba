import Orrery.Proofs.Observation

/-!
# Agents in step

Agents that all start at the same time and all go on by the same step are the case in which a whole run
can be written down in advance.  This file does it: no turn is skipped, no run fails, and the records of
an agent are the intervals between one tick and the next.

The times are sums of binary64 numbers, taken one after the other and rounded each time, so the `k`-th
tick is `ticks start step k` and not a multiple of the step.  `Even` says what the ticks have to satisfy:
they are finite and increase, and each read falls between the last tick and the one before it.

* `exists_pass`, `Ensemble.exists_step`: one pass fires all rules, and gives every agent the state of the
  next tick.
* `InStep`: some agents have made the next tick and the others have not.  A read does not tell them
  apart, because the interval that an agent adds begins after the point that is read
  (`InStep.get?_snapshot`).
* `InStep.exists_committed`, `InStep.committed`: a turn makes one tick.  The turns of an iteration and the
  iterations of a run follow.
-/

namespace Orrery

universe u

/-- The interval and the value of a record. -/
def Record.parts {α : Type u} (r : Record α) : Float × Float × α := (r.low, r.high, r.value)

/-- The times of a clock that goes on by the same step for ever. -/
def ticks (start step : Float) : Nat → Float
  | 0 => start
  | k + 1 => ticks start step k + step

/-- The time of the agent goes on by its step. -/
def Rule.timeByStep : Rule :=
  .forField "time" (.tuple [.prev (.base "time"), .prev (.base "timeStep")]) "time_manager"
    Producer.timeManager

/-- The step of the agent stays as it is. -/
def Rule.sameStep : Rule :=
  .forField "timeStep" (.prev (.base "timeStep")) "identity" Producer.identity

namespace Metronome

variable (start step : Number)

/-- The time after some ticks. -/
def time (k : Nat) : Float := ticks start.toFloat step.toFloat k

/-- The time after some ticks as data; at the start it is what it was given as. -/
def reading : Nat → Value
  | 0 => .number start
  | k + 1 => .ofFloat (time start step (k + 1))

/-- The state of an agent after some ticks. -/
def state (k : Nat) : Value :=
  .mapping [("time", reading start step k), ("timeStep", .number step)]

/-- The rules of an agent that keeps its step, in either order. -/
def Keeps (own : List Rule) : Prop :=
  own = [.timeByStep, .sameStep] ∨ own = [.sameStep, .timeByStep]

/-- What an agent has recorded after some ticks. -/
def recorded (agent : String) (k : Nat) : List (Float × Float × States) :=
  (List.range k).map fun j =>
    (time start step j, time start step (j + 1), Table.single agent (state start step (j + 1)))

/-- The ticks up to a number, as the clocks, the seed and the reads need them. -/
structure Even (settings : Settings) (n : Nat) : Prop where
  /-- The times are finite. -/
  finite : ∀ k ≤ n, (time start step k).isFinite = true
  /-- They increase. -/
  increasing : ∀ k < n, time start step k < time start step (k + 1)
  /-- The seed serves the first read. -/
  seeded : settings.seedLow ≤ time start step 0 - settings.readOffset
  /-- The first read lies before the start. -/
  back : time start step 0 - settings.readOffset < time start step 0
  /-- Every other read that a run makes falls between two ticks. -/
  read : ∀ k, k + 1 < n →
    time start step k ≤ time start step (k + 1) - settings.readOffset ∧
    time start step (k + 1) - settings.readOffset < time start step (k + 1)

variable {start step} {settings : Settings} {n k : Nat}

/-! ## Ticks -/

theorem float?_reading (h : (time start step k).isFinite = true) :
    (reading start step k).float? = some (time start step k) := by
  cases k with
  | zero => rfl
  | succ k =>
    rw [reading, Value.ofFloat, Number.ofFloat?, dif_pos h]
    rfl

theorem time?_state (h : (time start step k).isFinite = true) :
    (state start step k).time? = some (time start step k) := float?_reading h

theorem recorded_succ (agent : String) (k : Nat) :
    recorded start step agent (k + 1) = recorded start step agent k ++
      [(time start step k, time start step (k + 1), Table.single agent (state start step (k + 1)))] := by
  rw [recorded, recorded, List.range_succ, List.map_append, List.map_singleton]

/-- No tick is before the start. -/
theorem Even.start_le (h : Even start step settings n) (hk : k ≤ n) :
    time start step 0 ≤ time start step k := by
  induction k with
  | zero => exact Binary64.le_refl (h.finite 0 hk)
  | succ k ih => exact Binary64.le_trans (ih (by omega)) (Binary64.le_of_lt (h.increasing k hk))

/-- A read lies before the tick at which it is made. -/
theorem Even.read_lt (h : Even start step settings n) (hk : k < n) :
    time start step k - settings.readOffset < time start step k := by
  cases k with
  | zero => exact h.back
  | succ k => exact (h.read k hk).2

/-! ## One step -/

theorem timeManager_reading (hnow : (time start step k).isFinite = true)
    (hnext : (time start step (k + 1)).isFinite = true) :
    Producer.timeManager [reading start step k, .number step] = .ok (reading start step (k + 1)) := by
  have hscalar : Producer.scalar 0 (reading start step k) = .ok (time start step k) := by
    rw [Producer.scalar, float?_reading hnow]
  have hfinite : Producer.finite "time" (time start step (k + 1)) =
      .ok (reading start step (k + 1)) := by
    rw [Producer.finite, reading, Value.ofFloat, Number.ofFloat?, dif_pos hnext]
  rw [Producer.timeManager, hscalar]
  exact hfinite

section Step

variable {engine agent : String} {snapshot : Universe} {states : States} {fields : Entries Value}

/-- The time of the next tick is written. -/
theorem fire_timeByStep (index : Nat) (hnow : (time start step k).isFinite = true)
    (hnext : (time start step (k + 1)).isFinite = true)
    (hknown : Scope.committed? ⟨engine, agent, snapshot⟩ agent = some (state start step k))
    (hown : (states.get? agent).getD (.mapping []) = .mapping fields) :
    Step.fire engine snapshot states ⟨agent, index, .timeByStep⟩ = .ok (some (states.insert agent
      (.mapping (Entries.insert "time" (reading start step (k + 1)) fields)))) := by
  have hinput : Scope.resolve? ⟨engine, agent, snapshot⟩ states Rule.timeByStep.consumed =
      some (.list [reading start step k, .number step]) := by
    simp [Rule.timeByStep, Rule.forField, Scope.resolve?, Scope.lookup?, Scope.lookupItems?,
      Scope.subject?, hknown, state, Entries.get?_cons]
  have houtput : Rule.timeByStep.produce (Rule.timeByStep.consumed.arguments
      (.list [reading start step k, .number step])) = .ok (reading start step (k + 1)) :=
    timeManager_reading hnow hnext
  have hwrite : Scope.write ⟨engine, agent, snapshot⟩ states Rule.timeByStep.produced
      (reading start step (k + 1)) = .ok (states.insert agent
        (.mapping (Entries.insert "time" (reading start step (k + 1)) fields))) := by
    simp [Rule.timeByStep, Rule.forField, Scope.write, Scope.assign, Scope.changeAt,
      Scope.changeState, Scope.changeField, hown]
  simp only [Step.fire, hinput, houtput, hwrite]

/-- The step is written again. -/
theorem fire_sameStep (index : Nat)
    (hknown : Scope.committed? ⟨engine, agent, snapshot⟩ agent = some (state start step k))
    (hown : (states.get? agent).getD (.mapping []) = .mapping fields) :
    Step.fire engine snapshot states ⟨agent, index, .sameStep⟩ = .ok (some (states.insert agent
      (.mapping (Entries.insert "timeStep" (.number step) fields)))) := by
  have hinput : Scope.resolve? ⟨engine, agent, snapshot⟩ states Rule.sameStep.consumed =
      some (.number step) := by
    simp [Rule.sameStep, Rule.forField, Scope.resolve?, Scope.lookup?, Scope.subject?, hknown, state,
      Entries.get?_cons]
  have houtput : Rule.sameStep.produce (Rule.sameStep.consumed.arguments (.number step)) =
      .ok (.number step) := rfl
  have hwrite : Scope.write ⟨engine, agent, snapshot⟩ states Rule.sameStep.produced (.number step) =
      .ok (states.insert agent (.mapping (Entries.insert "timeStep" (.number step) fields))) := by
    simp [Rule.sameStep, Rule.forField, Scope.write, Scope.assign, Scope.changeAt,
      Scope.changeState, Scope.changeField, hown]
  simp only [Step.fire, hinput, houtput, hwrite]

/-- Both rules of an agent are fired at once, whichever comes first. -/
theorem pass_append {own : List Rule} (hrules : Keeps own)
    (hnow : (time start step k).isFinite = true) (hnext : (time start step (k + 1)).isFinite = true)
    (hknown : Scope.committed? ⟨engine, agent, snapshot⟩ agent = some (state start step k))
    (hfresh : states.get? agent = none) (rest : List Pending) :
    Step.pass engine snapshot states (Step.number agent 0 own ++ rest) =
      Step.pass engine snapshot (states.insert agent (state start step (k + 1))) rest := by
  have hempty : (states.get? agent).getD (.mapping []) = .mapping [] := by rw [hfresh]; rfl
  have hfirst : ∀ fields : Entries Value,
      ((states.insert agent (.mapping fields)).get? agent).getD (.mapping []) = .mapping fields := by
    intro fields
    rw [Table.get?_insert_self]
    rfl
  rcases hrules with rfl | rfl
  · rw [Step.number, Step.number, Step.number, List.cons_append, List.cons_append, List.nil_append,
      Step.pass, fire_timeByStep 0 hnow hnext hknown hempty]
    dsimp only
    rw [Step.pass, fire_sameStep 1 hknown (hfirst _), Table.insert_insert_self]
    rfl
  · rw [Step.number, Step.number, Step.number, List.cons_append, List.cons_append, List.nil_append,
      Step.pass, fire_sameStep 0 hknown hempty]
    dsimp only
    rw [Step.pass, fire_timeByStep 1 hnow hnext hknown (hfirst _), Table.insert_insert_self]
    rfl

/-- **One pass fires everything**, and every agent gets the state of the next tick. -/
theorem exists_pass (states : States) {rules : Entries (List Rule)} (hsorted : rules.Sorted)
    (hrules : ∀ e ∈ rules, Keeps e.2)
    (hnow : (time start step k).isFinite = true) (hnext : (time start step (k + 1)).isFinite = true)
    (hknown : ∀ e ∈ rules, (snapshot.get? engine).bind (·.get? e.1) = some (state start step k))
    (hfresh : ∀ e ∈ rules, states.get? e.1 = none) :
    ∃ after, Step.pass engine snapshot states (rules.flatMap fun e => Step.number e.1 0 e.2) =
        .ok (after, []) ∧
      (∀ e ∈ rules, after.get? e.1 = some (state start step (k + 1))) ∧
      ∀ name, (∀ e ∈ rules, e.1 ≠ name) → after.get? name = states.get? name := by
  induction rules generalizing states with
  | nil => exact ⟨states, rfl, by simp, fun _ _ => rfl⟩
  | cons e rest ih =>
    obtain ⟨hlt, hsorted'⟩ := Entries.sorted_cons.1 hsorted
    obtain ⟨hfirst, hrest⟩ := List.forall_mem_cons.1 hrules
    obtain ⟨hhere, hothers⟩ := List.forall_mem_cons.1 hknown
    obtain ⟨hnew, hnew'⟩ := List.forall_mem_cons.1 hfresh
    have hne : ∀ e' ∈ rest, e.1 ≠ e'.1 := fun e' he' heq =>
      String.lt_irrefl e.1 (by simpa [← heq] using hlt e' he')
    have hfresh' : ∀ e' ∈ rest, (states.insert e.1 (state start step (k + 1))).get? e'.1 = none := by
      intro e' he'
      rw [Table.get?_insert_of_ne _ _ (hne e' he')]
      exact hnew' e' he'
    obtain ⟨after, hpass, hgot, hkept⟩ := ih _ hsorted' hrest hothers hfresh'
    have hown := hkept e.1 fun e' he' heq => hne e' he' heq.symm
    rw [Table.get?_insert_self] at hown
    refine ⟨after, ?_, List.forall_mem_cons.2 ⟨hown, hgot⟩, fun name hname => ?_⟩
    · rw [List.flatMap_cons, pass_append hfirst hnow hnext hhere hnew, hpass]
    · obtain ⟨hname', hothers'⟩ := List.forall_mem_cons.1 hname
      rw [hkept name hothers', Table.get?_insert_of_ne _ _ hname']

/-- The loop ends after one pass. -/
theorem step_of_pass {graph : RuleGraph} {rules : AgentRules} {after : States}
    (hagents : graph.agents engine = .ok rules) (hne : Step.pendingOf rules ≠ [])
    (hpass : Step.pass engine snapshot Table.empty (Step.pendingOf rules) = .ok (after, [])) :
    graph.step engine snapshot = .ok after := by
  have hpos : ([] : List Pending).length < (Step.pendingOf rules).length := List.length_pos_iff.2 hne
  rw [RuleGraph.step_eq hagents, Step.resolve, if_neg (by simpa using hne), hpass]
  dsimp only
  rw [if_pos hpos, Step.resolve_nil]
  rfl

end Step

/-! ## Ensembles -/

/-- Some agents, at least one: they have the same initial state, and keep their step. -/
structure Ensemble (start step : Number) (graph : RuleGraph) (engine : String) (initial : States)
    (rules : AgentRules) : Prop where
  /-- These are the rules of the engine. -/
  agents : graph.agents engine = .ok rules
  /-- There is an agent. -/
  nonempty : rules.keys ≠ []
  /-- Every agent keeps its step. -/
  keeps : ∀ e ∈ rules.entries, Keeps e.2
  /-- Every agent has an initial state, and no one else has. -/
  names : initial.keys = rules.keys
  /-- It is the same for all. -/
  same : ∀ e ∈ initial.entries, e.2 = state start step 0

variable {graph : RuleGraph} {engine : String} {initial : States} {rules : AgentRules}
variable {s : Simulation} {agent : String} {waiting : List String}

/-- **A step gives every agent the state of the next tick.** -/
theorem Ensemble.exists_step (h : Ensemble start step graph engine initial rules) {known : States}
    (hnow : (time start step k).isFinite = true) (hnext : (time start step (k + 1)).isFinite = true)
    (hknown : ∀ agent ∈ rules.keys, known.get? agent = some (state start step k)) :
    ∃ states, graph.step engine (Table.single engine known) = .ok states ∧
      ∀ agent ∈ rules.keys, states.get? agent = some (state start step (k + 1)) := by
  have hhere : ∀ e ∈ rules.entries, ((Table.single engine known).get? engine).bind (·.get? e.1) =
      some (state start step k) := by
    intro e he
    rw [Table.get?_single, if_pos rfl, Option.bind_some]
    exact hknown e.1 (List.mem_map_of_mem he)
  obtain ⟨after, hpass, hgot, -⟩ := exists_pass Table.empty rules.sorted h.keeps hnow hnext hhere
    fun _ _ => rfl
  have hsome : Step.pendingOf rules ≠ [] := by
    obtain ⟨agent, hagent⟩ := List.exists_mem_of_ne_nil _ h.nonempty
    obtain ⟨e, he, -⟩ := List.mem_map.1 hagent
    intro hnil
    have hnone := List.flatMap_eq_nil_iff.1 hnil e he
    rcases h.keeps e he with hown | hown <;> rw [hown] at hnone <;> cases hnone
  refine ⟨after, step_of_pass h.agents hsome hpass, fun agent hagent => ?_⟩
  obtain ⟨e, he, rfl⟩ := List.mem_map.1 hagent
  exact hgot e he

theorem Ensemble.get?_initial (h : Ensemble start step graph engine initial rules)
    (hagent : agent ∈ rules.keys) : initial.get? agent = some (state start step 0) := by
  rw [← h.names] at hagent
  obtain ⟨own, hown⟩ := Table.mem_keys_iff.1 hagent
  have hsame : own = state start step 0 := h.same _ (Table.mem_entries_iff.2 hown)
  rw [hown, hsame]

/-- The latest start is the common one. -/
theorem Ensemble.eq_of_latestStart (h : Ensemble start step graph engine initial rules) {last : Float}
    (hlast : Simulation.LatestStart initial last) : last = time start step 0 := by
  obtain ⟨agent, own, hown, htime⟩ := hlast.1
  have hsame : own = state start step 0 := h.same _ (Table.mem_entries_iff.2 hown)
  rw [hsame] at htime
  exact (Option.some.inj htime).symm

theorem startOf?_state : Simulation.startOf? (state start step 0) = some (time start step 0) := by
  have hfinite : (start.toFloat.isFinite && step.toFloat.isFinite) = true := by
    rw [start.isFinite_toFloat, step.isFinite_toFloat]
    rfl
  have htime : (state start step 0).time? = some start.toFloat := rfl
  have hstep : (state start step 0).numericField? Value.timeStepField = some step.toFloat := rfl
  rw [Simulation.startOf?, htime, hstep]
  exact if_pos hfinite

theorem initialClocks_eq {l : Entries Value} (h : ∀ e ∈ l, e.2 = state start step 0) :
    Simulation.initialClocks l = .ok (l.map fun e => (e.1, time start step 0)) := by
  induction l with
  | nil => rfl
  | cons e rest ih =>
    obtain ⟨hfirst, hrest⟩ := List.forall_mem_cons.1 h
    rw [Simulation.initialClocks, hfirst, startOf?_state]
    dsimp only
    rw [ih hrest]
    rfl

/-- **An ensemble is accepted**, if the seed reaches back before the common start. -/
theorem Ensemble.exists_create (h : Ensemble start step graph engine initial rules)
    (hlow : settings.seedLow < time start step 0) :
    ∃ s, Simulation.create graph engine initial settings = .ok s := by
  let times := initial.entries.map fun e => (e.1, time start step 0)
  have hclocks : Simulation.initialClocks initial.entries = .ok times := initialClocks_eq h.same
  have hlatest : Simulation.latest (times.map (·.2)) = time start step 0 := by
    have hne : times.map (·.2) ≠ [] := by
      intro hnil
      have hnames := h.names
      rw [Table.keys, List.map_eq_nil_iff.1 (List.map_eq_nil_iff.1 hnil)] at hnames
      exact h.nonempty hnames.symm
    have hall : ∀ t ∈ times.map (·.2), t = time start step 0 := by
      intro t ht
      obtain ⟨e, he, rfl⟩ := List.mem_map.1 ht
      obtain ⟨e', -, rfl⟩ := List.mem_map.1 he
      rfl
    exact hall _ (Simulation.latest_spec hne fun t ht => hall t ht ▸ start.isFinite_toFloat).1
  have hempty : rules.keys.isEmpty = false := List.isEmpty_eq_false_iff.2 h.nonempty
  refine ⟨⟨graph, engine, rules.keys, Store.empty.append ⟨settings.seedLow, _, initial, hlow⟩,
    Table.ofList times, settings.readOffset⟩, ?_⟩
  simp only [Simulation.create, h.agents, Except.mapError, bind, Except.bind, hempty,
    Bool.false_eq_true, if_false, h.names, ne_eq, not_true_eq_false, hclocks, hlatest,
    Store.insert_of_lt _ _ hlow]
  rfl

/-! ## Turns -/

/-- An agent has made some ticks. -/
structure Ticked (start step : Number) (s : Simulation) (agent : String) (k : Nat) : Prop where
  /-- Its clock shows the last of them. -/
  clock : s.clocks.get? agent = some (time start step k)
  /-- It has recorded them all. -/
  records : (s.ownRecords agent).map Record.parts = recorded start step agent k

/-- The record of a tick that an agent has made. -/
theorem Ticked.exists_record {j : Nat} (h : Ticked start step s agent j) (hk : k < j) :
    ∃ r ∈ s.ownRecords agent, r.low = time start step k ∧ r.high = time start step (k + 1) ∧
      r.value = Table.single agent (state start step (k + 1)) := by
  have hlisted : (time start step k, time start step (k + 1),
      Table.single agent (state start step (k + 1))) ∈ recorded start step agent j :=
    List.mem_map.2 ⟨k, List.mem_range.2 hk, rfl⟩
  rw [← h.records] at hlisted
  obtain ⟨r, hr, hparts⟩ := List.mem_map.1 hlisted
  exact ⟨r, hr, by simpa [Record.parts] using hparts⟩

/-- All agents have made some ticks, and those that are not waiting have made one more. -/
structure InStep (start step : Number) (graph : RuleGraph) (engine : String) (initial : States)
    (settings : Settings) (s : Simulation) (k : Nat) (waiting : List String) : Prop where
  /-- The simulation comes from a configuration. -/
  reachable : Simulation.Reachable graph engine initial settings s
  /-- Those who wait are one tick behind the others. -/
  ticked : ∀ agent ∈ s.agents, Ticked start step s agent (if agent ∈ waiting then k else k + 1)

/-- The agents are those with rules. -/
theorem InStep.agents_eq (h : InStep start step graph engine initial settings s k waiting)
    (he : Ensemble start step graph engine initial rules) : s.agents = rules.keys :=
  h.reachable.timeline.agents.symm.trans he.names

/-- **A read at a tick finds every agent at this tick**, also an agent that has made the next one. -/
theorem InStep.get?_snapshot (h : InStep start step graph engine initial settings s k waiting)
    (he : Ensemble start step graph engine initial rules) (hv : Even start step settings n)
    (hk : k < n) (hagent : agent ∈ s.agents) :
    (s.snapshot (time start step k)).get? agent = some (state start step k) := by
  have hback := hv.read_lt hk
  rw [Simulation.snapshot, h.reachable.fixed.2.2]
  generalize hpoint : time start step k - settings.readOffset = point at hback
  obtain ⟨own, began, clock, last, hown, hbegan, hclock, hlast, hrecalls⟩ :=
    h.reachable.timeline.recalls hagent point
  obtain rfl := he.eq_of_latestStart hlast
  rw [he.get?_initial (h.agents_eq he ▸ hagent), Option.some.injEq] at hown
  subst hown
  obtain rfl : time start step 0 = began := Option.some.inj hbegan
  have hticked := h.ticked agent hagent
  generalize hj : (if agent ∈ waiting then k else k + 1) = j at hticked
  obtain rfl : time start step j = clock := Option.some.inj (hticked.clock.symm.trans hclock)
  have hbefore : point < time start step j := by
    by_cases hwaiting : agent ∈ waiting
    · rw [if_pos hwaiting] at hj
      rwa [← hj]
    · rw [if_neg hwaiting] at hj
      rw [← hj]
      exact Binary64.lt_of_lt_of_le hback (Binary64.le_of_lt (hv.increasing k hk))
  cases k with
  | zero =>
    -- before the start there is only the seed
    have hunstarted : ¬ (time start step 0 ≤ point ∧ point < time start step j) := fun hinside =>
      Binary64.not_le_of_lt hback hinside.1
    have hserved : settings.seedLow ≤ point ∧ point < time start step 0 :=
      ⟨hpoint ▸ hv.seeded, hback⟩
    generalize (s.store.merge point).get? agent = found at hrecalls
    cases hrecalls with
    | recorded inside => exact absurd inside hunstarted
    | seeded => rfl
    | absent _ unseeded => exact absurd hserved unseeded
  | succ k =>
    -- later the agent's record of the last tick contains the point
    have hlow : time start step k ≤ point := hpoint ▸ (hv.read k hk).1
    have hinside : time start step 0 ≤ point ∧ point < time start step j :=
      ⟨Binary64.le_trans (hv.start_le (by omega)) hlow, hbefore⟩
    obtain ⟨r, hr, hrlow, hrhigh, hrvalue⟩ :=
      hticked.exists_record (k := k) (by split at hj <;> omega)
    have hcontains : r.contains point = true :=
      Record.contains_iff.2 ⟨hrlow ▸ hlow, hrhigh ▸ hback⟩
    generalize (s.store.merge point).get? agent = found at hrecalls
    cases hrecalls with
    | @recorded r' own' inside only value =>
      have hsame : r = r' := by
        have hmem : r ∈ (s.ownRecords agent).filter (·.contains point) :=
          List.mem_filter.2 ⟨hr, hcontains⟩
        rw [only] at hmem
        exact List.mem_singleton.1 hmem
      rw [← hsame, hrvalue] at value
      have hstates := congrArg (Table.get? · agent) value
      simpa [Table.get?_single] using hstates.symm
    | seeded outside => exact absurd hinside outside
    | absent outside => exact absurd hinside outside

/-- **A turn of an agent that waits makes a tick.** -/
theorem InStep.exists_committed (h : InStep start step graph engine initial settings s k waiting)
    (he : Ensemble start step graph engine initial rules) (hv : Even start step settings n)
    (hk : k < n) (hagent : agent ∈ s.agents) (hwaits : agent ∈ waiting) (iteration : Nat) :
    ∃ after, s.cycle iteration agent = .committed after
      ⟨iteration, s.engine, agent, time start step k, time start step (k + 1),
        state start step (k + 1)⟩ := by
  have hclock := (h.ticked agent hagent).clock
  rw [if_pos hwaits] at hclock
  have hnext := hv.finite (k + 1) hk
  have hlt := hv.increasing k hk
  have hknown : ∀ peer ∈ rules.keys,
      (s.snapshot (time start step k)).get? peer = some (state start step k) := by
    rw [← h.agents_eq he]
    exact fun peer hpeer => h.get?_snapshot he hv hk hpeer
  have hcomplete : (s.snapshot (time start step k)).keys = s.agents := by
    refine h.reachable.timeline.keys_merge_eq_iff.2 fun peer hpeer => ?_
    exact ⟨_, h.get?_snapshot he hv hk hpeer⟩
  have hadvanced : s.advanced agent (s.snapshot (time start step k)) =
      .ok (state start step (k + 1), time start step (k + 1)) := by
    obtain ⟨states, hstep, hstates⟩ := he.exists_step (hv.finite k hk.le) hnext hknown
    obtain ⟨hgraph, hengine, -⟩ := h.reachable.fixed
    refine Simulation.advanced_eq_ok_iff.2 ⟨states, ?_, ?_, time?_state hnext⟩
    · rw [hgraph, hengine]
      exact hstep
    · exact hstates agent (h.agents_eq he ▸ hagent)
  have hadvance : s.clocks.advance agent (time start step (k + 1)) =
      .ok (time start step k, s.clocks.insert agent (time start step (k + 1))) := by
    simp only [Clocks.advance, hclock, hnext, if_true]
    rw [if_neg (Binary64.not_le_of_lt hlt)]
  simp only [Simulation.cycle, hclock, hcomplete, ne_eq, not_true_eq_false, if_false, hadvanced,
    hadvance, Store.insert_of_lt _ _ hlt]
  exact ⟨_, rfl⟩

/-- Whoever makes a tick has caught up with those who do not wait. -/
theorem InStep.committed (h : InStep start step graph engine initial settings s k (agent :: waiting))
    (hnodup : (agent :: waiting).Nodup) {iteration : Nat} {after : Simulation} {engine' : String}
    (hcycle : s.cycle iteration agent = .committed after
      ⟨iteration, engine', agent, time start step k, time start step (k + 1),
        state start step (k + 1)⟩) :
    InStep start step graph engine initial settings after k waiting := by
  obtain ⟨r, hlow, hhigh, hvalue, hmoves⟩ := (h.reachable.timeline.committed hcycle).moves
  have hagents : after.agents = s.agents := by rw [hmoves.after]
  have hafter : (s.cycle iteration agent).left s = after := by rw [hcycle]; rfl
  refine ⟨hafter ▸ .cycled h.reachable iteration agent, ?_⟩
  rw [hagents]
  intro other hother
  have hticked := h.ticked other hother
  have hclock := hmoves.get?_clocks other
  have hown := hmoves.ownRecords h.reachable.timeline.records_ne_nil other
  by_cases heq : agent = other
  · subst heq
    rw [if_pos (List.mem_cons_self ..)] at hticked
    rw [if_pos rfl] at hclock hown
    rw [if_neg (List.nodup_cons.1 hnodup).1]
    refine ⟨by rw [hclock, hhigh], ?_⟩
    rw [hown, List.map_append, hticked.records, recorded_succ, List.map_singleton, Record.parts, hlow,
      hhigh, hvalue]
  · have hwaits : other ∈ agent :: waiting ↔ other ∈ waiting := by simp [Ne.symm heq]
    rw [if_neg heq] at hclock hown
    rw [List.append_nil] at hown
    simp only [hwaits] at hticked
    exact ⟨hclock.trans hticked.clock, by rw [hown]; exact hticked.records⟩

/-! ## Runs -/

section Run

variable {r : Run}

/-- The turns of those who wait. -/
theorem InStep.cycles
    (h : InStep start step graph engine initial settings r.simulation k waiting)
    (he : Ensemble start step graph engine initial rules) (hv : Even start step settings n)
    (hk : k < n) (hwaiting : ∀ agent ∈ waiting, agent ∈ r.simulation.agents)
    (hnodup : waiting.Nodup) (hok : r.failure = none) (iteration : Nat) :
    (r.cycles iteration waiting).failure = none ∧
    (r.cycles iteration waiting).report.skipped = r.report.skipped ∧
    InStep start step graph engine initial settings (r.cycles iteration waiting).simulation k [] := by
  induction waiting generalizing r with
  | nil => exact ⟨hok, rfl, h⟩
  | cons agent rest ih =>
    obtain ⟨hagent, hrest⟩ := List.forall_mem_cons.1 hwaiting
    obtain ⟨after, hcycle⟩ :=
      h.exists_committed he hv hk hagent (List.mem_cons_self ..) iteration
    have hnext := h.committed hnodup hcycle
    have hagents : after.agents = r.simulation.agents := (hnext.agents_eq he).trans (h.agents_eq he).symm
    rw [Run.cycles, hcycle]
    simp only [Run.record, hok]
    exact ih hnext (hagents ▸ hrest) (List.nodup_cons.1 hnodup).2 rfl

/-- **An iteration makes one tick of every agent.** -/
theorem InStep.iterate
    (h : InStep start step graph engine initial settings r.simulation k r.simulation.agents)
    (he : Ensemble start step graph engine initial rules) (hv : Even start step settings n)
    (hk : k < n) (hok : r.failure = none) (iteration : Nat) :
    (r.iterate iteration).failure = none ∧
    (r.iterate iteration).report.skipped = r.report.skipped ∧
    InStep start step graph engine initial settings (r.iterate iteration).simulation (k + 1)
      (r.iterate iteration).simulation.agents := by
  obtain ⟨hdone, hskipped, hall⟩ := h.cycles he hv hk (fun _ hagent => hagent)
    h.reachable.timeline.nodup_agents hok iteration
  obtain ⟨hfailure, -, hcount⟩ := r.iterate_eq_cycles iteration
  refine ⟨hfailure.trans hdone, hcount.trans hskipped, ?_⟩
  rw [Run.iterate]
  simp only [hdone]
  refine ⟨hall.reachable, fun agent hagent => ?_⟩
  rw [if_pos hagent]
  simpa using hall.ticked agent hagent

/-- **A run makes as many ticks as it has iterations.** -/
theorem InStep.iterateFrom
    (h : InStep start step graph engine initial settings r.simulation k r.simulation.agents)
    (he : Ensemble start step graph engine initial rules) (hv : Even start step settings n)
    (hok : r.failure = none) (iteration : Nat) {m : Nat} (hm : k + m ≤ n) :
    (r.iterateFrom iteration m).failure = none ∧
    (r.iterateFrom iteration m).report.skipped = r.report.skipped ∧
    InStep start step graph engine initial settings (r.iterateFrom iteration m).simulation (k + m)
      (r.iterateFrom iteration m).simulation.agents := by
  induction m generalizing r k iteration with
  | zero => exact ⟨hok, rfl, h⟩
  | succ m ih =>
    obtain ⟨hdone, hskipped, hnext⟩ := h.iterate he hv (by omega) hok iteration
    obtain ⟨hlast, hnone, hall⟩ := ih hnext hdone (iteration + 1) (by omega)
    rw [Run.iterateFrom]
    simp only [hdone]
    rw [← Nat.add_assoc, Nat.add_right_comm]
    exact ⟨hlast, hnone.trans hskipped, hall⟩

end Run

/-- A new simulation is in step: no one has made a tick. -/
theorem Ensemble.inStep (he : Ensemble start step graph engine initial rules)
    (h : Simulation.create graph engine initial settings = .ok s) :
    InStep start step graph engine initial settings s 0 s.agents := by
  obtain ⟨seed, hseeded⟩ := Simulation.seeded_of_create h
  refine ⟨.created h, fun agent hagent => ?_⟩
  rw [if_pos hagent]
  refine ⟨?_, ?_⟩
  · obtain ⟨own, began, hown, hbegan, hclock⟩ := hseeded.atStart agent hagent
    rw [← hseeded.agents, he.names] at hagent
    rw [he.get?_initial hagent, Option.some.injEq] at hown
    rw [hclock, ← hbegan, ← hown]
    rfl
  · rw [Simulation.ownRecords, hseeded.records]
    rfl

/-- A run from the start makes as many ticks as it has iterations, and skips no one. -/
theorem Ensemble.inStep_run (he : Ensemble start step graph engine initial rules)
    (hv : Even start step settings n)
    (h : Simulation.create graph engine initial settings = .ok s) :
    (s.run n).failure = none ∧ (s.run n).report.skipped = 0 ∧
    InStep start step graph engine initial settings (s.run n).simulation n
      (s.run n).simulation.agents := by
  have hrun := (he.inStep h).iterateFrom (r := Run.start s) he hv rfl 0 (Nat.zero_add n).le
  rw [Nat.zero_add] at hrun
  exact hrun

end Metronome

namespace Simulation

open Metronome

/-- A run that ends well and skips no one has made a commit in every turn. -/
theorem outcome_of_no_skips {s : Simulation} {n : Nat} (hdone : (s.run n).failure = none)
    (hskipped : (s.run n).report.skipped = 0) :
    (s.run n).outcome = .ok ⟨saturated n, saturated (n * s.agents.length), 0⟩ := by
  have houtcome : (s.run n).outcome = .ok (s.run n).report := by rw [Run.outcome, hdone]
  obtain ⟨-, htally⟩ := tally_of_outcome houtcome
  obtain ⟨skips, hturns, hskips⟩ := htally.skipped
  have hnone : skips = 0 := by
    rw [hskipped, saturated] at hskips
    omega
  have hcommits := htally.commits
  rw [hnone, Nat.add_zero] at hturns
  rw [hturns] at hcommits
  rw [houtcome, ← htally.iterations, ← hcommits, ← hskipped]

/-- **A constant step in closed form.**  Some agents start at the same time with the same step, and
their rules add the step to the time and keep the step.  If the ticks are finite and increase, the seed
serves the first read, and every other read falls between two ticks, then the simulation is accepted,
and a run of some iterations ends well: every turn is a commit and none is skipped, every clock shows
the last tick, and the records about an agent are the seed and one record for every tick, in order. -/
theorem run_of_constant_step {start step : Number} {graph : RuleGraph} {engine : String}
    {initial : States} {rules : AgentRules} {settings : Settings} {n : UInt64}
    (he : Ensemble start step graph engine initial rules)
    (hv : Even start step settings n.toNat) :
    ∃ s, create graph engine initial settings = .ok s ∧
      (s.run n.toNat).outcome = .ok ⟨n.toNat, saturated (n.toNat * rules.keys.length), 0⟩ ∧
      (n.toNat * rules.keys.length ≤ 18446744073709551615 →
        (s.run n.toNat).outcome = .ok ⟨n.toNat, n.toNat * rules.keys.length, 0⟩) ∧
      (∀ agent, (s.run n.toNat).simulation.clocks.get? agent =
        if agent ∈ rules.keys then some (time start step n.toNat) else none) ∧
      ∀ agent ∈ rules.keys,
        ((s.run n.toNat).simulation.store.records.filter fun r => r.value.contains agent).map
            Record.parts =
          (settings.seedLow, time start step 0, initial) ::
            (List.range n.toNat).map fun k => (time start step k, time start step (k + 1),
              Table.single agent (state start step (k + 1))) := by
  have hlow : settings.seedLow < time start step 0 := Binary64.lt_of_le_of_lt hv.seeded hv.back
  obtain ⟨s, hs⟩ := he.exists_create hlow
  obtain ⟨hdone, hskipped, hall⟩ := he.inStep_run hv hs
  have houtcome := outcome_of_no_skips hdone hskipped
  rw [saturated_toNat, (he.inStep hs).agents_eq he] at houtcome
  have hagents := hall.agents_eq he
  refine ⟨s, hs, houtcome, fun hfits => ?_, fun agent => ?_, fun agent hagent => ?_⟩
  · rw [houtcome, saturated_of_le hfits]
  · by_cases hagent : agent ∈ rules.keys
    · rw [← hagents] at hagent
      rw [← hagents, if_pos hagent, (hall.ticked agent hagent).clock, if_pos hagent]
    · rw [if_neg hagent]
      cases hclock : (s.run n.toNat).simulation.clocks.get? agent with
      | none => rfl
      | some clock =>
        rw [← hagents] at hagent
        exact absurd (hall.reachable.timeline.clocked agent clock hclock) hagent
  · obtain ⟨seed, hrecords, hseed, hlast, hvalue⟩ := hall.reachable.timeline.exists_records
    have hholds : seed.value.contains agent = true := by
      rw [hvalue, Table.contains, he.get?_initial hagent]
      rfl
    have hticked := hall.ticked agent (hagents ▸ hagent)
    rw [if_pos (hagents ▸ hagent)] at hticked
    rw [hrecords, List.filter_cons, if_pos hholds, List.map_cons, Record.parts, hseed, hvalue,
      he.eq_of_latestStart hlast]
    exact congrArg _ hticked.records

end Simulation

/-! ## Two agents in step -/

namespace Belated

/-- Both agents start at zero. -/
def punctual : States :=
  ⟨[("early", stateAt 0.0), ("late", stateAt 0.0)], List.pairwise_pair.2 (by decide)⟩

end Belated

/-- Two agents make three ticks. -/
theorem Simulation.punctual_run :
    ∃ s, create Belated.graph "watch" Belated.punctual Belated.settings = .ok s ∧
      (s.run 3).outcome = .ok ⟨3, 6, 0⟩ ∧
      (s.run 3).simulation.clocks.get? "late" = some 3.0 ∧
      ((s.run 3).simulation.store.records.filter fun r => r.value.contains "late").map Record.parts =
        [(-10.0, 0.0, Belated.punctual), (0.0, 1.0, Table.single "late" (Belated.stateAt 1.0)),
          (1.0, 2.0, Table.single "late" (Belated.stateAt 2.0)),
          (2.0, 3.0, Table.single "late" (Belated.stateAt 3.0))] := by
  have he : Metronome.Ensemble (.binary 0.0 (by decide)) (.binary 1.0 (by decide)) Belated.graph "watch"
      Belated.punctual ⟨[("early", Belated.rules), ("late", Belated.rules)],
        List.pairwise_pair.2 (by decide)⟩ := by
    refine ⟨rfl, by decide, ?_, rfl, by decide⟩
    intro e he
    rcases List.mem_pair.1 he with rfl | rfl
    · exact .inl rfl
    · exact .inl rfl
  have hv : Metronome.Even (.binary 0.0 (by decide)) (.binary 1.0 (by decide)) Belated.settings
      (3 : UInt64).toNat := by
    have hread : ∀ k < 2, Metronome.time (.binary 0.0 (by decide)) (.binary 1.0 (by decide)) k ≤
          Metronome.time (.binary 0.0 (by decide)) (.binary 1.0 (by decide)) (k + 1) - 0.5 ∧
        Metronome.time (.binary 0.0 (by decide)) (.binary 1.0 (by decide)) (k + 1) - 0.5 <
          Metronome.time (.binary 0.0 (by decide)) (.binary 1.0 (by decide)) (k + 1) := by
      decide +kernel
    exact ⟨by decide +kernel, by decide +kernel, by decide +kernel, by decide +kernel, fun k hk =>
      hread k (Nat.lt_of_succ_lt_succ hk)⟩
  obtain ⟨s, hs, -, houtcome, hclocks, hrecords⟩ := run_of_constant_step he hv
  refine ⟨s, hs, houtcome (by decide), ?_, ?_⟩
  · exact hclocks "late"
  · exact hrecords "late" (by decide)

end Orrery
