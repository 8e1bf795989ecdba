import Orrery.Proofs.Audit
import Orrery.Proofs.Footprint
import Mathlib.Data.List.Chain

/-!
# Steps from a state that is not the last one

An agent is stepped from what the history says a little before its clock.  That is meant to fall into
its last record, so that every step goes on from the state that the step before has come to.  Nothing
looks where it falls.  If the last record is shorter than the offset, the agent is stepped once more
from an older state, and then all depends on the time that comes out: a time that the clock has passed
already stops the run, and any other time is committed, and the state in between is lost.

* `stages`: the states of an agent, from the initial one to the last.
* `KeepsTime`: the time that a step gives an agent depends on the agent's own entry, and on no peer.
* `Reachable.isChain_stages`: an agent that keeps its time has come from each stage to the next by a
  step.  So whatever comes out of an older stage is a time that was committed, and the clock is past it
  (`Timeline.time_le_clock`).
* `updates_of_reachable`: such an agent never commits from an older state; neither does any agent whose
  read falls into its last record.

An agent that takes its time from a peer can lose a state: see `relay_loses_update`.
-/

namespace Orrery

/-- In a chain, what is not last has a successor. -/
theorem getLast?_or_exists_of_isChain {α : Type} {R : α → α → Prop} {l : List α} (h : l.IsChain R)
    {x : α} (hx : x ∈ l) : l.getLast? = some x ∨ ∃ y ∈ l.tail, R x y := by
  induction h with
  | nil => simp at hx
  | singleton a =>
    rw [List.mem_singleton.1 hx]
    exact .inl rfl
  | @cons_cons a b rest hab _ ih =>
    rcases List.mem_cons.1 hx with rfl | hx
    · exact .inr ⟨b, List.mem_cons_self .., hab⟩
    · rcases ih hx with hlast | ⟨y, hy, hxy⟩
      · rw [List.getLast?_cons_cons]
        exact .inl hlast
      · exact .inr ⟨y, List.mem_of_mem_tail hy, hxy⟩

namespace Simulation

variable {graph : RuleGraph} {engine : String} {initial : States} {settings : Settings}
variable {s after : Simulation} {agent : String} {commit : Commit} {point clock : Float}

/-! ## The states of an agent -/

/-- The state that an agent has come to: that of its last record, or the initial one. -/
def lastState? (initial : States) (s : Simulation) (agent : String) : Option Value :=
  match (s.ownRecords agent).getLast? with
  | some r => r.value.get? agent
  | none => initial.get? agent

/-- The states of an agent, oldest first. -/
def stages (initial : States) (s : Simulation) (agent : String) : List Value :=
  (initial.get? agent).toList ++ (s.ownRecords agent).filterMap fun r => r.value.get? agent

/-- What an own record says about the agent. -/
theorem Timeline.get?_of_mem_ownRecords (h : Timeline graph engine initial settings s)
    {r : Record States} (hr : r ∈ s.ownRecords agent) :
    ∃ state, r.value.get? agent = some state ∧ state.time? = some r.high := by
  obtain ⟨state, hvalue, htime⟩ := h.exists_state hr
  refine ⟨state, ?_, htime⟩
  rw [hvalue, Table.get?_single, if_pos rfl]

/-- The last of its stages is the state that an agent has come to. -/
theorem Timeline.getLast?_stages (h : Timeline graph engine initial settings s)
    (agent : String) : (s.stages initial agent).getLast? = s.lastState? initial agent := by
  rw [stages, lastState?]
  rcases List.eq_nil_or_concat (s.ownRecords agent) with hnil | ⟨front, r, hconcat⟩
  · rw [hnil, List.filterMap_nil, List.append_nil, List.getLast?_nil]
    cases initial.get? agent <;> rfl
  · have hr : r ∈ s.ownRecords agent := by simp [hconcat]
    obtain ⟨state, hstate, -⟩ := h.get?_of_mem_ownRecords hr
    rw [hconcat]
    simp [hstate]

/-- After the initial state, the stages of an agent are in its records. -/
theorem Timeline.exists_record_of_stage (h : Timeline graph engine initial settings s)
    (hagent : agent ∈ s.agents) {state : Value} (hstate : state ∈ (s.stages initial agent).tail) :
    ∃ r ∈ s.ownRecords agent, state.time? = some r.high := by
  obtain ⟨own, hown⟩ := h.exists_initial hagent
  rw [stages, hown, Option.toList_some, List.singleton_append, List.tail_cons] at hstate
  obtain ⟨r, hr, hget⟩ := List.mem_filterMap.1 hstate
  obtain ⟨state', hget', htime⟩ := h.get?_of_mem_ownRecords hr
  rw [hget, Option.some.injEq] at hget'
  exact ⟨r, hr, by rw [hget', htime]⟩

/-- Whatever a snapshot says about an agent is one of its stages. -/
theorem Timeline.mem_stages (h : Timeline graph engine initial settings s)
    (hagent : agent ∈ s.agents) {state : Value}
    (hget : (s.store.merge point).get? agent = some state) : state ∈ s.stages initial agent := by
  obtain ⟨own, start, clock, last, hown, -, -, -, hrecalls⟩ := h.recalls hagent point
  rw [hget] at hrecalls
  rw [stages, List.mem_append]
  cases hrecalls with
  | @recorded r _ _ only value =>
    have hr : r ∈ (s.ownRecords agent).filter (·.contains point) := by simp [only]
    refine .inr (List.mem_filterMap.2 ⟨r, (List.mem_filter.1 hr).1, ?_⟩)
    rw [value, Table.get?_single, if_pos rfl]
  | seeded => exact .inl (by simp [hown])

/-- A move adds a stage to the agent that moves. -/
theorem Moves.stages {r : Record States} (h : Moves s agent r after) (hne : s.store.records ≠ [])
    {state : Value} (hvalue : r.value = Table.single agent state) (other : String) :
    after.stages initial other =
      s.stages initial other ++ if agent = other then [state] else [] := by
  rw [Simulation.stages, Simulation.stages, h.ownRecords hne other, List.filterMap_append,
    List.append_assoc]
  by_cases heq : agent = other
  · simp [heq, hvalue, Table.get?_single]
  · simp [heq]

/-! ## Agents that keep their own time -/

/-- The time that a step gives an agent depends on the agent's own entry in the snapshot. -/
def KeepsTime (s : Simulation) (agent : String) : Prop :=
  ∀ snapshot other state state' time time', snapshot.keys = s.agents → other.keys = s.agents →
    snapshot.get? agent = other.get? agent → s.advanced agent snapshot = .ok (state, time) →
    s.advanced agent other = .ok (state', time') → time = time'

/-- A step leads an agent from one state to another, against some snapshot. -/
def Leads (s : Simulation) (agent : String) (x y : Value) : Prop :=
  ∃ snapshot time, snapshot.keys = s.agents ∧ snapshot.get? agent = some x ∧
    s.advanced agent snapshot = .ok (y, time)

/-- A commit leads an agent from what it has read to what it commits. -/
theorem Committed.leads (hc : Committed s agent after commit) {state : Value}
    (hread : (s.snapshot commit.low).get? agent = some state) : s.Leads agent state commit.state :=
  ⟨s.snapshot commit.low, commit.high, hc.complete, hread, hc.advanced⟩

/-- **An agent that reads an older stage was stepped from it before**, and what came out is in one of
its records. -/
theorem Timeline.exists_earlier (h : Timeline graph engine initial settings s)
    (hchain : (s.stages initial agent).IsChain (s.Leads agent)) (hagent : agent ∈ s.agents)
    (hcomplete : (s.store.merge point).keys = s.agents)
    (hstale : (s.store.merge point).get? agent ≠ s.lastState? initial agent) :
    ∃ earlier next, earlier.keys = s.agents ∧
      (s.store.merge point).get? agent = earlier.get? agent ∧
      ∃ r ∈ s.ownRecords agent, s.advanced agent earlier = .ok (next, r.high) := by
  have hkey : agent ∈ (s.store.merge point).keys := by rwa [hcomplete]
  obtain ⟨entry, hentry⟩ := Table.mem_keys_iff.1 hkey
  rcases getLast?_or_exists_of_isChain hchain (h.mem_stages hagent hentry) with
    hlast | ⟨next, hnext, earlier, time, hkeys, hsame, hadvanced⟩
  · rw [h.getLast?_stages, ← hentry] at hlast
    exact absurd hlast.symm hstale
  · obtain ⟨r, hr, htime⟩ := h.exists_record_of_stage hagent hnext
    rw [time?_of_advanced hadvanced, Option.some.injEq] at htime
    rw [htime] at hadvanced
    exact ⟨earlier, next, hkeys, hentry.trans hsame.symm, r, hr, hadvanced⟩

/-- The ends of an agent's records are finite, and its clock has passed them. -/
theorem Timeline.high_le_clock (h : Timeline graph engine initial settings s)
    (hclock : s.clocks.get? agent = some clock) {r : Record States} (hr : r ∈ s.ownRecords agent) :
    r.high.isFinite = true ∧ r.high ≤ clock := by
  obtain ⟨start, shown, hline⟩ := h.lines agent (h.clocked agent clock hclock)
  rw [hline.shown, Option.some.injEq] at hclock
  obtain ⟨-, -, -, -, -, hfinite⟩ := h.later r (List.mem_filter.1 hr).1
  rw [← hclock]
  exact ⟨hfinite, hline.chained.high_le_finish r hr⟩

/-- **From an older stage, an agent that keeps its time gets no further than its clock.** -/
theorem Timeline.time_le_clock (h : Timeline graph engine initial settings s)
    (hkeeps : s.KeepsTime agent) (hchain : (s.stages initial agent).IsChain (s.Leads agent))
    (hclock : s.clocks.get? agent = some clock) (hcomplete : (s.store.merge point).keys = s.agents)
    (hstale : (s.store.merge point).get? agent ≠ s.lastState? initial agent) {state : Value}
    {time : Float} (hadvanced : s.advanced agent (s.store.merge point) = .ok (state, time)) :
    time.isFinite = true ∧ time ≤ clock := by
  obtain ⟨earlier, next, hkeys, hsame, r, hr, hnext⟩ :=
    h.exists_earlier hchain (h.clocked agent clock hclock) hcomplete hstale
  have heq : time = r.high := hkeeps _ earlier state next time r.high hcomplete hkeys hsame hadvanced
    hnext
  rw [heq]
  exact h.high_le_clock hclock hr

/-- An agent that keeps its time commits from its last state. -/
theorem Committed.read_eq_last (hc : Committed s agent after commit)
    (h : Timeline graph engine initial settings s) (hkeeps : s.KeepsTime agent)
    (hchain : (s.stages initial agent).IsChain (s.Leads agent)) :
    (s.snapshot commit.low).get? agent = s.lastState? initial agent := by
  by_contra hstale
  obtain ⟨-, hle⟩ := h.time_le_clock hkeeps hchain hc.clock hc.complete hstale hc.advanced
  exact Binary64.not_le_of_lt hc.low_lt_high hle

/-- **An agent that keeps its time has come from each stage to the next by a step.** -/
theorem Reachable.isChain_stages (h : Reachable graph engine initial settings s)
    (hkeeps : s.KeepsTime agent) : (s.stages initial agent).IsChain (s.Leads agent) := by
  let P : Simulation → Prop := fun s =>
    s.KeepsTime agent → (s.stages initial agent).IsChain (s.Leads agent)
  refine h.preserves (P := P) (fun s hs _ => ?_) (fun s iteration other ht hs hkeeps => ?_) hkeeps
  · obtain ⟨seed, hseeded⟩ := seeded_of_create hs
    rw [stages, ownRecords, hseeded.records]
    cases initial.get? agent with
    | none => exact .nil
    | some own => exact .singleton own
  · rcases ht.left_eq_or_committed iteration other with heq | ⟨commit, hc⟩
    · rw [heq] at hkeeps ⊢
      exact hs hkeeps
    · obtain ⟨r, -, -, hvalue, hm⟩ := hc.moves
      have hkeeps' : s.KeepsTime agent := by
        rw [hm.after] at hkeeps
        exact hkeeps
      have hleads : ((s.cycle iteration other).left s).Leads agent = s.Leads agent := by
        rw [hm.after]
        rfl
      rw [hm.stages ht.records_ne_nil hvalue, hleads]
      by_cases heq : other = agent
      · subst heq
        rw [if_pos rfl, List.isChain_append]
        refine ⟨hs hkeeps', .singleton _, fun x hx y hy => ?_⟩
        rw [ht.getLast?_stages, ← hc.read_eq_last ht hkeeps' (hs hkeeps')] at hx
        obtain rfl : commit.state = y := by simpa using hy
        exact hc.leads hx
      · rw [if_neg heq, List.append_nil]
        exact hs hkeeps'

/-! ## How a run stops -/

/-- Complete snapshots of a single agent that say the same about it are the same. -/
theorem snapshot_eq_of_alone {snapshot other : States} (hkeys : snapshot.keys = [agent])
    (hother : other.keys = [agent]) (hsame : snapshot.get? agent = other.get? agent) :
    snapshot = other := by
  refine Table.ext_get? fun name => ?_
  by_cases heq : name = agent
  · rw [heq]
    exact hsame
  · have habsent : ∀ table : States, table.keys = [agent] → table.get? name = none := by
      intro table htable
      by_contra hsome
      obtain ⟨state, hstate⟩ := Option.ne_none_iff_exists'.1 hsome
      have hmem := Table.mem_keys_iff.2 ⟨state, hstate⟩
      rw [htable, List.mem_singleton] at hmem
      exact heq hmem
    rw [habsent snapshot hkeys, habsent other hother]

/-- An agent without peers keeps its time. -/
theorem keepsTime_of_alone (h : s.agents = [agent]) : s.KeepsTime agent := by
  intro snapshot other state state' time time' hkeys hother hsame hadvanced hadvanced'
  rw [h] at hkeys hother
  rw [snapshot_eq_of_alone hkeys hother hsame, hadvanced', Except.ok.injEq, Prod.mk.injEq]
    at hadvanced
  exact hadvanced.2.symm

/-- **A read that falls into an older record stops the run**, for an agent that keeps its time: the
clock refuses to go back.  Only in the presence of peers the step itself can fail before that. -/
theorem Timeline.cycle_eq_failed (h : Timeline graph engine initial settings s)
    (hkeeps : s.KeepsTime agent) (hchain : (s.stages initial agent).IsChain (s.Leads agent))
    (hclock : s.clocks.get? agent = some clock) (hcomplete : (s.snapshot clock).keys = s.agents)
    (hstale : (s.snapshot clock).get? agent ≠ s.lastState? initial agent) (iteration : Nat) :
    (∃ time, time ≤ clock ∧
      s.cycle iteration agent = .failed s (.clock (.regression agent clock time))) ∨
    s.agents ≠ [agent] ∧ ∃ cause, s.advanced agent (s.snapshot clock) = .error cause ∧
      s.cycle iteration agent = .failed s cause := by
  unfold Simulation.cycle
  simp only [hclock]
  rw [if_neg (not_not.2 hcomplete)]
  cases hadvanced : s.advanced agent (s.snapshot clock) with
  | ok result =>
    obtain ⟨state, time⟩ := result
    obtain ⟨hfinite, hle⟩ := h.time_le_clock hkeeps hchain hclock hcomplete hstale hadvanced
    refine .inl ⟨time, hle, ?_⟩
    simp [Clocks.advance, hclock, hfinite, hle]
  | error cause =>
    refine .inr ⟨fun halone => ?_, cause, rfl, rfl⟩
    -- alone, the agent was stepped from this very snapshot before
    obtain ⟨earlier, next, hkeys, hsame, r, -, hnext⟩ :=
      h.exists_earlier hchain (h.clocked agent clock hclock) hcomplete hstale
    rw [halone] at hkeys hcomplete
    have hsnapshot : s.snapshot clock = earlier := snapshot_eq_of_alone hcomplete hkeys hsame
    rw [hsnapshot, hnext] at hadvanced
    cases hadvanced

/-! ## Rules that keep the time -/

/-- The rules of an agent name no one else; or at least the rule for its time does not, and it reads
what was committed only. -/
def OwnPace (graph : RuleGraph) (engine agent : String) : Prop :=
  ∃ rules own, graph.agents engine = .ok rules ∧ rules.get? agent = some own ∧
    ((∀ r ∈ own, ∀ name ∈ r.consumed.agents, name = agent) ∨
      ∃ r ∈ own, r.path? = some [Value.timeField] ∧ r.consumed.readPaths = [] ∧
        ∀ name ∈ r.consumed.agents, name = agent)

/-- Snapshots that say the same about an agent agree about a rule that names no one else. -/
theorem agree_of_get?_eq {snapshot other : States} (hsame : snapshot.get? agent = other.get? agent)
    {names : List String} (hnames : ∀ name ∈ names, name = agent) (engine : String) :
    Universe.Agree engine (agent :: names) (Table.single engine snapshot)
      (Table.single engine other) := by
  intro name hname
  have heq : name = agent := by
    rcases List.mem_cons.1 hname with heq | hname
    · exact heq
    · exact hnames name hname
  rw [Table.get?_single, Table.get?_single, if_pos rfl, if_pos rfl, heq]
  exact hsame

/-- The time of a state is what stands at one path. -/
theorem time?_eq_at? (state : Value) :
    state.time? = (state.at? [Value.timeField]).bind Value.float? := by
  rw [Value.time?, Value.numericField?, Value.at?_cons]
  simp only [Value.at?_nil, Option.bind_fun_some]

/-- **An agent whose rules name no one else keeps its time**, and so does one with such a rule for its
time. -/
theorem keepsTime_of_ownPace {engines : Table AgentRules}
    (hg : RuleGraph.ofRules engines = .ok s.graph) (h : OwnPace s.graph s.engine agent) :
    s.KeepsTime agent := by
  intro snapshot other state state' time time' _ _ hsame hadvanced hadvanced'
  obtain ⟨states, hstep, hget, htime⟩ := advanced_eq_ok_iff.1 hadvanced
  obtain ⟨states', hstep', hget', htime'⟩ := advanced_eq_ok_iff.1 hadvanced'
  obtain ⟨rules, own, hrules, hown, hinward | ⟨r, hr, hpath, hreads, hinward⟩⟩ := h
  · have heq := RuleGraph.get?_step_footprint hrules hown
      (fun r hr => agree_of_get?_eq hsame (hinward r hr) s.engine) hstep hstep'
    rw [hget, hget', Option.some.injEq] at heq
    rw [heq, htime', Option.some.injEq] at htime
    exact htime.symm
  · have heq := RuleGraph.at?_step_footprint hg hrules hown hr hpath hreads
      (agree_of_get?_eq hsame hinward s.engine) hstep hstep'
    rw [hget, hget', Option.bind_some, Option.bind_some] at heq
    rw [time?_eq_at?, heq, ← time?_eq_at?, htime', Option.some.injEq] at htime
    exact htime.symm

/-! ## No lost update -/

/-- A point falls into the last record of an agent, if it has one. -/
def ReadsLast (s : Simulation) (agent : String) (point : Float) : Prop :=
  ∀ r, (s.ownRecords agent).getLast? = some r → r.contains point = true

/-- A snapshot at a point of the last record holds the last state. -/
theorem Timeline.get?_merge_of_readsLast (h : Timeline graph engine initial settings s)
    (hlast : s.ReadsLast agent point) {state : Value}
    (hread : (s.store.merge point).get? agent = some state) :
    some state = s.lastState? initial agent := by
  obtain ⟨seed, hseed, -, -, hvalue⟩ := h.exists_records
  have hagent := h.mem_agents_of_get?_merge hread
  rw [Store.get?_merge, h.about_eq hagent hseed hvalue] at hread
  rw [lastState?]
  rcases List.eq_nil_or_concat (s.ownRecords agent) with hnil | ⟨front, r, hconcat⟩
  · rw [hnil, List.filter_nil, List.append_nil] at hread
    rw [hnil, List.getLast?_nil]
    by_cases hpoint : seed.contains point = true
    · rw [if_pos hpoint, List.getLast?_singleton, Option.bind_some, hvalue] at hread
      exact hread.symm
    · rw [if_neg hpoint] at hread
      cases hread
  · have hpoint : r.contains point = true := hlast r (by simp [hconcat])
    -- the last record comes last among those that contain the point
    rw [hconcat] at hread ⊢
    simp only [List.concat_eq_append, List.filter_append, List.filter_singleton, hpoint, cond_true,
      ← List.append_assoc, List.getLast?_concat, Option.bind_some] at hread ⊢
    exact hread.symm

/-- **No update is lost**, as far as agents keep their own time or read their last record.  Every commit
of a run was made by a cycle; where one of the two holds, the snapshot that was stepped held the state
that the agent had come to.  An agent that keeps its time and reads an older state stops the run: its
clock refuses to go back, or the step fails because of a peer.  An agent without peers keeps its time,
and so does one whose rules, or whose rule for the time, name no one else. -/
theorem updates_of_reachable {engines : Table AgentRules}
    (hg : RuleGraph.ofRules engines = .ok graph) (h : Reachable graph engine initial settings s) :
    (∀ n, ∀ commit ∈ (s.run n).commits,
      ∃ before, MadeAt graph engine initial settings before commit) ∧
    (∀ before commit, MadeAt graph engine initial settings before commit →
      before.KeepsTime commit.agent ∨
        before.ReadsLast commit.agent (commit.low - settings.readOffset) →
      (before.store.merge (commit.low - settings.readOffset)).get? commit.agent =
        before.lastState? initial commit.agent) ∧
    (∀ iteration agent clock, s.KeepsTime agent → s.clocks.get? agent = some clock →
      (s.store.merge (clock - settings.readOffset)).keys = s.agents →
      (s.store.merge (clock - settings.readOffset)).get? agent ≠ s.lastState? initial agent →
      (∃ time, time ≤ clock ∧
        s.cycle iteration agent = .failed s (.clock (.regression agent clock time))) ∨
      s.agents ≠ [agent] ∧ ∃ cause,
        s.advanced agent (s.store.merge (clock - settings.readOffset)) = .error cause ∧
        s.cycle iteration agent = .failed s cause) ∧
    ∀ agent, s.agents = [agent] ∨ OwnPace graph engine agent → s.KeepsTime agent := by
  refine ⟨fun n commit hcommit => h.exists_madeAt hcommit, ?_, ?_, ?_⟩
  · intro before commit hmade hkeeps
    have ht := hmade.reachable.timeline
    obtain ⟨after, hc⟩ := hmade.committed
    rw [← hmade.reachable.fixed.2.2] at hkeeps ⊢
    rcases hkeeps with hkeeps | hlast
    · exact hc.read_eq_last ht hkeeps (hmade.reachable.isChain_stages hkeeps)
    · have hkey := hc.mem_agents ht
      rw [← hc.complete] at hkey
      obtain ⟨state, hstate⟩ := Table.mem_keys_iff.1 hkey
      exact hstate.trans (ht.get?_merge_of_readsLast hlast hstate)
  · rw [← h.fixed.2.2]
    intro iteration agent clock hkeeps hclock hcomplete hstale
    exact h.timeline.cycle_eq_failed hkeeps (h.isChain_stages hkeeps) hclock hcomplete hstale iteration
  · obtain ⟨hgraph, hengine, -⟩ := h.fixed
    rintro agent (halone | hpace)
    · exact keepsTime_of_alone halone
    · rw [← hgraph] at hg
      rw [← hgraph, ← hengine] at hpace
      exact keepsTime_of_ownPace hg hpace

end Simulation

/-! ## The relay again

The leader keeps its own time.  When its step is shorter than the offset, it is stopped.  The follower
takes its time from the leader, and is not. -/

namespace Relay

/-- The leader is in a hurry. -/
def hurried : States := stepping 0.5

/-- The new simulation. -/
def hurriedStart : Simulation := startFrom hurried

theorem create_hurriedStart : Simulation.create graph "relay" hurried settings = .ok hurriedStart := rfl

theorem leader_ownPace : Simulation.OwnPace graph "relay" "leader" :=
  ⟨rules, leader, rfl, rfl, .inl (by decide)⟩

end Relay

/-- After one iteration the leader in a hurry would be stepped from its initial state once more, and is
stopped by its clock. -/
theorem Simulation.hurried_stops :
    RuleGraph.ofRules Relay.engines = .ok Relay.graph ∧
    Reachable Relay.graph "relay" Relay.hurried Relay.settings
      (Relay.hurriedStart.run 1).simulation ∧
    (Relay.hurriedStart.run 1).simulation.clocks.get? "leader" = some 0.5 ∧
    ∃ time, time ≤ 0.5 ∧ (Relay.hurriedStart.run 1).simulation.cycle 1 "leader" =
      .failed (Relay.hurriedStart.run 1).simulation (.clock (.regression "leader" 0.5 time)) := by
  have hg : RuleGraph.ofRules Relay.engines = .ok Relay.graph := rfl
  have hreach : Reachable Relay.graph "relay" Relay.hurried Relay.settings
      (Relay.hurriedStart.run 1).simulation := .driven (.created Relay.create_hurriedStart) 1
  have hclock : (Relay.hurriedStart.run 1).simulation.clocks.get? "leader" = some 0.5 := by
    decide +kernel
  obtain ⟨-, -, hstale, hkeeps⟩ := updates_of_reachable hg hreach
  refine ⟨hg, hreach, hclock, ?_⟩
  rcases hstale 1 "leader" 0.5 (hkeeps "leader" (.inr Relay.leader_ownPace)) hclock
    (by decide +kernel) (by decide +kernel) with hstops | ⟨-, cause, hfails, -⟩
  · exact hstops
  · have hsteps : ((Relay.hurriedStart.run 1).simulation.advanced "leader"
        ((Relay.hurriedStart.run 1).simulation.store.merge
          (0.5 - Relay.settings.readOffset))).toOption.isSome = true := by decide +kernel
    rw [hfails] at hsteps
    cases hsteps

/-- The follower has come to the time 2.5 and is stepped from its state at 2.0 once more.  In between
the leader shows another pace, so the time that comes out is later than the clock, and is committed. -/
theorem Simulation.relay_loses_update :
    RuleGraph.ofRules Relay.engines = .ok Relay.graph ∧
    ({ Config.standard with settings := Relay.settings } : Config).validate = .ok () ∧
    ∃ before commit, MadeAt Relay.graph "relay" Relay.initial Relay.settings before commit ∧
      commit ∈ (before.run 1).commits ∧
      ((before.store.merge (commit.low - Relay.settings.readOffset)).get? commit.agent).bind
        Value.time? = some 2.0 ∧
      (before.lastState? Relay.initial commit.agent).bind Value.time? = some 2.5 := by
  let before := (Relay.start.run 2).simulation
  have hreach : Reachable Relay.graph "relay" Relay.initial Relay.settings before :=
    .driven (.created Relay.create_start) 2
  have hmade : (⟨0, "relay", "follower", 2.5, 4.0, .mapping [("time", .ofFloat 4.0)]⟩ : Commit) ∈
      (before.cycle 0 "follower").made := by decide +kernel
  refine ⟨rfl, rfl, before, _, ⟨hreach, Cycle.mem_made_iff.1 hmade⟩, ?_, ?_, ?_⟩
  · decide +kernel
  · decide +kernel
  · decide +kernel

end Orrery
