import Orrery.Proofs.Barrier

/-!
# Records that can be checked

A record says what an agent came to, but not from what.  When all agents start together it need not: the
snapshot that the agent read is still there, so whoever has the history and the rules can repeat the
step and compare.

Records may overlap, and the later one wins, so it has to be shown that no later record reaches back to
a point that was read before.  A point is *past* when every clock has passed it.  A record begins at a
clock, so at a past point nothing changes any more (`Past.merge_moves`), and past points stay past.  By
the barrier, what an agent reads when it commits is past: before the latest initial time, which is then
the initial time of everybody, or before every clock.  Nothing is asked of the offset: a point that is
not before the agent's own clock finds no entry of the agent there, and the agent is skipped.
-/

namespace Orrery

namespace Simulation

variable {graph : RuleGraph} {engine : String} {initial : States} {settings : Settings}
variable {s after : Simulation} {agent : String} {commit : Commit} {point : Float}

/-! ## Points that every clock has passed -/

/-- Every clock has passed a point. -/
def Past (s : Simulation) (point : Float) : Prop :=
  ∀ agent clock, s.clocks.get? agent = some clock → point < clock

/-- **At a past point a move changes nothing.** -/
theorem Past.merge_moves (h : Past s point) {r : Record States} (hm : Moves s agent r after) :
    after.store.merge point = s.store.merge point := by
  have hlater : r.contains point = false := by
    rw [← Bool.not_eq_true]
    exact fun hpoint =>
      Binary64.not_le_of_lt (h agent r.low hm.low) (Record.contains_iff.1 hpoint).1
  rw [hm.after]
  exact Store.merge_append_of_not_contains _ hlater

/-- A past point stays past. -/
theorem Past.moves (h : Past s point) {r : Record States} (hm : Moves s agent r after) :
    Past after point := by
  intro other clock hclock
  rw [hm.get?_clocks] at hclock
  by_cases heq : agent = other
  · rw [if_pos heq, Option.some.injEq] at hclock
    rw [← hclock]
    exact Binary64.lt_of_lt_of_le (h agent r.low hm.low) (Binary64.le_of_lt r.low_lt_high)
  · rw [if_neg heq] at hclock
    exact h other clock hclock

/-- **What is read at a past point is final**: no run changes it. -/
theorem Past.merge_run (h : Past s point) (ht : Timeline graph engine initial settings s) (n : Nat) :
    (s.run n).simulation.store.merge point = s.store.merge point := by
  let P : Simulation → Prop := fun later =>
    Timeline graph engine initial settings later ∧ Past later point ∧
      later.store.merge point = s.store.merge point
  have step : ∀ later iteration agent, P later → P ((later.cycle iteration agent).left later) := by
    rintro later iteration agent ⟨hlater, hpast, hsame⟩
    refine ⟨hlater.cycle iteration agent, ?_⟩
    rcases (hlater.allOrNothing iteration agent).left_eq_or_moves with heq | ⟨r, hmoves⟩
    · rw [heq]
      exact ⟨hpast, hsame⟩
    · exact ⟨hpast.moves hmoves, (hpast.merge_moves hmoves).trans hsame⟩
  have hstart : P s := ⟨ht, h, rfl⟩
  exact (run_preserves step hstart n).2.2

/-! ## Agents that start together -/

/-- No initial time is above another. -/
def StartsTogether (initial : States) : Prop :=
  ∀ a x start b y other, initial.get? a = some x → x.time? = some start →
    initial.get? b = some y → y.time? = some other → start ≤ other

/-- When all start together, no clock is below the latest initial time. -/
theorem Timeline.latest_le_clock (h : Timeline graph engine initial settings s)
    (htogether : StartsTogether initial) {last clock : Float} (hlast : LatestStart initial last)
    (hclock : s.clocks.get? agent = some clock) : last ≤ clock := by
  obtain ⟨start, shown, hline⟩ := h.lines agent (h.clocked agent clock hclock)
  rw [hline.shown, Option.some.injEq] at hclock
  obtain ⟨own, hown, hstart⟩ := hline.started
  obtain ⟨⟨other, state, hstate, htime⟩, -⟩ := hlast
  have hle : last ≤ start := htogether other state last agent own start hstate htime hown hstart
  rw [← hclock]
  exact Binary64.le_trans hle (hline.chained.start_le_finish hline.start_le_start)

/-- **What an agent reads when it commits is past**, when all start together. -/
theorem Committed.past (hc : Committed s agent after commit)
    (h : Timeline graph engine initial settings s) (htogether : StartsTogether initial) :
    Past s (commit.low - s.readOffset) := by
  intro peer clock hclock
  obtain ⟨seed, -, -, hlast, -⟩ := h.exists_records
  rcases hc.passed h hlast hclock with hlt | hlt
  · exact Binary64.lt_of_lt_of_le hlt (h.latest_le_clock htogether hlast hclock)
  · exact hlt

/-! ## The audit -/

/-- A record stands up to an audit: the step against the snapshot before it, as the history shows it
now, gives its agent the state it holds, and the time it ends at. -/
structure Certified (s : Simulation) (r : Record States) : Prop where
  /-- What was read is past. -/
  past : Past s (r.low - s.readOffset)
  /-- The step comes to what the record holds. -/
  again : ∃ agent ∈ s.agents, ∃ state states, r.value = Table.single agent state ∧
    s.graph.step s.engine (Table.single s.engine (s.snapshot r.low)) = .ok states ∧
    states.get? agent = some state ∧ state.time? = some r.high

/-- A move leaves the certificate of a record valid. -/
theorem Certified.moves {r r' : Record States} (h : Certified s r) (hm : Moves s agent r' after) :
    Certified after r := by
  have hmerge := h.past.merge_moves hm
  have hpast := h.past.moves hm
  obtain ⟨own, hown, state, states, hvalue, hstep, hget, htime⟩ := h.again
  rw [snapshot, ← hmerge] at hstep
  rw [hm.after] at hstep hpast ⊢
  exact ⟨hpast, own, hown, state, states, hvalue, hstep, hget, htime⟩

/-- The record of a commit comes with a certificate. -/
theorem Committed.certified (hc : Committed s agent after commit)
    (h : Timeline graph engine initial settings s) (htogether : StartsTogether initial) :
    ∃ r, Moves s agent r after ∧ Certified after r := by
  obtain ⟨r, hlow, hhigh, hvalue, hm⟩ := hc.moves
  obtain ⟨states, hstep, hget, htime⟩ := advanced_eq_ok_iff.1 hc.advanced
  have hpast := hc.past h htogether
  have hagent := hc.mem_agents h
  rw [← hlow] at hpast hstep
  rw [← hhigh] at htime
  refine ⟨r, hm, ?_⟩
  have hmerge := hpast.merge_moves hm
  have hpast' := hpast.moves hm
  rw [snapshot, ← hmerge] at hstep
  rw [hm.after] at hstep hpast' ⊢
  exact ⟨hpast', agent, hagent, commit.state, states, hvalue, hstep, hget, htime⟩

/-- **Every record stands up to an audit**, when all agents start together. -/
theorem Reachable.certified (h : Reachable graph engine initial settings s)
    (htogether : StartsTogether initial) : ∀ r ∈ s.store.records.tail, Certified s r := by
  let P : Simulation → Prop := fun s => ∀ r ∈ s.store.records.tail, Certified s r
  refine h.preserves (P := P) (fun s hs => ?_) fun s iteration agent ht hs => ?_
  · obtain ⟨seed, hseeded⟩ := seeded_of_create hs
    have htail : s.store.records.tail = [] := by rw [hseeded.records, List.tail_cons]
    simp [P, htail]
  · rcases ht.left_eq_or_committed iteration agent with heq | ⟨commit, hc⟩
    · rw [heq]
      exact hs
    · obtain ⟨r, hm, hr⟩ := hc.certified ht htogether
      intro r' hr'
      rw [hm.records, List.tail_append_of_ne_nil ht.records_ne_nil] at hr'
      rcases List.mem_append.1 hr' with hold | hnew
      · exact (hs r' hold).moves hm
      · rw [List.mem_singleton.1 hnew]
        exact hr

/-- **The history certifies itself.**  When all agents start together, every record but the seed is what
the step against the snapshot before it gives its agent, and that snapshot is read from the history as
it stands, with all that was committed since.  No run and no commit, the record's own included, changes
what is read there. -/
theorem audit_of_reachable (h : Reachable graph engine initial settings s)
    (htogether : StartsTogether initial) :
    (∀ r ∈ s.store.records.tail, ∃ agent ∈ s.agents, ∃ state states,
      r.value = Table.single agent state ∧
      graph.step engine (Table.single engine (s.store.merge (r.low - settings.readOffset))) =
        .ok states ∧
      states.get? agent = some state ∧ state.time? = some r.high) ∧
    (∀ r ∈ s.store.records.tail, ∀ n,
      (s.run n).simulation.store.merge (r.low - settings.readOffset) =
        s.store.merge (r.low - settings.readOffset)) ∧
    ∀ iteration agent after commit, s.cycle iteration agent = .committed after commit →
      after.store.merge (commit.low - settings.readOffset) =
        s.store.merge (commit.low - settings.readOffset) := by
  have hcertified := h.certified htogether
  obtain ⟨hgraph, hengine, hoffset⟩ := h.fixed
  rw [← hgraph, ← hengine, ← hoffset]
  refine ⟨fun r hr => (hcertified r hr).again, fun r hr n => ?_, ?_⟩
  · exact (hcertified r hr).past.merge_run h.timeline n
  · intro iteration agent after commit hcycle
    have hc := h.timeline.committed hcycle
    obtain ⟨r, -, -, -, hm⟩ := hc.moves
    exact (hc.past h.timeline htogether).merge_moves hm

end Simulation

/-! ## A leader and a follower

The leader keeps a pace of its own and shows two others in turn.  The follower goes on by the pace that
the leader shows. -/

namespace Relay

/-- The rule of the follower. -/
def follower : List Rule :=
  [.forField "time" (.tuple [.prev (.base "time"), .access (.agent "leader") "pace"]) "time_manager"
    Producer.timeManager]

/-- The rules of the leader. -/
def leader : List Rule :=
  [.forField "time" (.tuple [.prev (.base "time"), .prev (.base "timeStep")]) "time_manager"
    Producer.timeManager,
   .forField "timeStep" (.prev (.base "timeStep")) "identity" Producer.identity,
   .forField "pace" (.prev (.base "other")) "identity" Producer.identity,
   .forField "other" (.prev (.base "pace")) "identity" Producer.identity]

/-- The rules of both. -/
def rules : AgentRules :=
  ⟨[("follower", follower), ("leader", leader)], List.pairwise_pair.2 (by decide)⟩

/-- One engine. -/
def engines : Table AgentRules := Table.single "relay" rules

/-- Its rules, which are accepted. -/
def graph : RuleGraph := ⟨engines⟩

/-- Both start at zero, and the leader takes steps of a given length. -/
def stepping (step : Float) : States :=
  ⟨[("follower", .mapping [("time", .ofFloat 0.0), ("timeStep", .ofFloat 2.0)]),
    ("leader", .mapping [("other", .ofFloat 0.5), ("pace", .ofFloat 2.0), ("time", .ofFloat 0.0),
      ("timeStep", .ofFloat step)])], List.pairwise_pair.2 (show "follower" < "leader" by decide)⟩

/-- Where they start. -/
def initial : States := stepping 1.25

/-- Snapshots are read one unit before the clock. -/
def settings : Settings := ⟨"relay", 3, 1.0, -10.0⟩

/-- A new simulation with given states. -/
def startFrom (initial : States) : Simulation :=
  ⟨graph, "relay", ["follower", "leader"], ⟨[⟨-10.0, 0.0, initial, by decide⟩]⟩,
    ⟨[("follower", 0.0), ("leader", 0.0)], List.pairwise_pair.2 (by decide)⟩, 1.0⟩

/-- The new simulation. -/
def start : Simulation := startFrom initial

theorem create_start : Simulation.create graph "relay" initial settings = .ok start := rfl

theorem startsTogether : Simulation.StartsTogether initial := by
  have hzero : ∀ name state time, initial.get? name = some state → state.time? = some time →
      time = 0.0 := by
    intro name state time hstate htime
    rcases List.mem_pair.1 (Table.mem_entries_iff.2 hstate) with h | h
    · cases h
      cases htime
      rfl
    · cases h
      cases htime
      rfl
  intro a x first b y second ha hx hb hy
  rw [hzero a x first ha hx, hzero b y second hb hy]
  decide

end Relay

/-- After three iterations the relay has six records, and each can be checked against the history. -/
theorem Simulation.relay_audit :
    Reachable Relay.graph "relay" Relay.initial Relay.settings (Relay.start.run 3).simulation ∧
    StartsTogether Relay.initial ∧
    (Relay.start.run 3).simulation.store.records.tail.length = 6 ∧
    ∀ r ∈ (Relay.start.run 3).simulation.store.records.tail,
      ∃ agent ∈ (Relay.start.run 3).simulation.agents, ∃ state states,
        r.value = Table.single agent state ∧
        Relay.graph.step "relay" (Table.single "relay"
          ((Relay.start.run 3).simulation.store.merge (r.low - Relay.settings.readOffset))) =
          .ok states ∧
        states.get? agent = some state ∧ state.time? = some r.high := by
  have hreach : Reachable Relay.graph "relay" Relay.initial Relay.settings
      (Relay.start.run 3).simulation := .driven (.created Relay.create_start) 3
  exact ⟨hreach, Relay.startsTogether, by decide +kernel,
    (audit_of_reachable hreach Relay.startsTogether).1⟩

end Orrery
