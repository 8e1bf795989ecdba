import Orrery.Proofs.Commit
import Orrery.Proofs.FloatRange
import Orrery.Proofs.WriteOnce

/-!
# What can stop a run

A cycle asks the clocks, the graph, the producers and the store, and each of them has ways to refuse.
Most of these ways are closed once a simulation has been made over an accepted graph, every one for a
reason of its own:

* the engine has rules and the agents that take turns have clocks, since the simulation was made;
* outputs find their places, since no two targets of an agent overlap (`RuleGraph.step_error_cases`);
* times are finite, since the numbers of data are (`Value.isFinite_of_time?`);
* the store takes the interval, since the clock has let the time pass (`clock_lt_of_advance`).

What is left is `Foreseen`: rules that wait for ever, a producer that refuses, a state without a time,
and a time that does not lie ahead.  `Foreseen` also says whose fault it is, because a report that names
a rule that does not exist would be of no use.
-/

namespace Orrery

/-! ## Steps -/

/-- **A step of an accepted graph fails in two ways**: some of its rules are left, or one of them is
refused by its producer. -/
theorem RuleGraph.step_error_cases {engines : Table AgentRules} {g : RuleGraph} {engine : String}
    {rules : AgentRules} {snapshot : Universe} {e : StepError} (hg : ofRules engines = .ok g)
    (hr : g.agents engine = .ok rules) (h : g.step engine snapshot = .error e) :
    (∃ left, left ≠ [] ∧ left.Sublist (Step.pendingOf rules) ∧
      e = .deadlock engine (left.map (·.stuck))) ∨
    ∃ p ∈ Step.pendingOf rules, ∃ cause,
      e = .producer ⟨engine, p.agent, p.index⟩ p.rule.function cause := by
  rw [step_eq hr] at h
  rcases Step.resolve_cases engine snapshot Table.empty (Step.pendingOf rules) with
    ⟨calls, after, passes, -, hok⟩ | ⟨calls, after, left, hsettles, hleft, hdead⟩ |
    ⟨calls, c, cause, hbreaks, herror⟩
  · rw [hok] at h
    exact absurd h (by simp [Except.map])
  · rw [hdead] at h
    exact .inl ⟨left, hleft, hsettles.sublist, (Except.error.inj h).symm⟩
  · rw [herror] at h
    obtain rfl := Except.error.inj h
    obtain ⟨refusal, -, rfl⟩ :=
      hbreaks.producer (Step.pairwise_beside_pendingOf (sound_of_ofRules hg hr))
    obtain ⟨rest, hperm⟩ := hbreaks.perm
    have hlisted : c.pending ∈ (calls ++ [c]).map (·.pending) ++ rest := by simp
    exact .inr ⟨c.pending, hperm.mem_iff.2 hlisted, refusal, rfl⟩

/-- A cycle keeps the agents and their order. -/
theorem Simulation.agents_left (s : Simulation) (iteration : Nat) (agent : String) :
    ((s.cycle iteration agent).left s).agents = s.agents := by
  obtain ⟨store, clocks, hleft⟩ := s.exists_left_eq iteration agent
  rw [hleft]

namespace Run

/-! ## Inductions over runs

What a run keeps may be about all of it, the counts and the failure included.  A cycle is made by an
agent of the simulation, and only while nothing has failed. -/

variable {P : Run → Prop} {r : Run}

theorem cycles_induction {agents : List String} {iteration : Nat}
    (cycle : ∀ r agent, r.failure = none → agent ∈ agents → P r →
      P (r.record (r.simulation.cycle iteration agent)))
    (hok : r.failure = none) (h : P r) : P (r.cycles iteration agents) := by
  induction agents generalizing r with
  | nil => exact h
  | cons agent rest ih =>
    have hnext := cycle r agent hok (List.mem_cons_self ..) h
    rw [cycles]
    split
    · exact hnext
    · next hok' =>
      exact ih (fun r agent hr hagent => cycle r agent hr (List.mem_cons_of_mem _ hagent)) hok' hnext

/-- **What every cycle and the end of every iteration keep, a run keeps.** -/
theorem iterateFrom_induction
    (cycle : ∀ r iteration agent, r.failure = none → agent ∈ r.simulation.agents → P r →
      P (r.record (r.simulation.cycle iteration agent)))
    (tick : ∀ r, r.failure = none → P r →
      P { r with report.iterations := oneMore r.report.iterations })
    (hok : r.failure = none) (h : P r) (iteration n : Nat) : P (r.iterateFrom iteration n) := by
  induction n generalizing r iteration with
  | zero => exact h
  | succ n ih =>
    -- the agents that take their turns are those of the moment, because cycles keep them
    let Q : Run → Prop := fun later => P later ∧ later.simulation.agents = r.simulation.agents
    have hcycles : Q (r.cycles iteration r.simulation.agents) := by
      refine cycles_induction (fun later agent hlater hagent hQ => ?_) hok ⟨h, rfl⟩
      refine ⟨cycle later iteration agent hlater (hQ.2 ▸ hagent) hQ.1, ?_⟩
      rw [simulation_record, Simulation.agents_left, hQ.2]
    have hiterate : P (r.iterate iteration) := by
      rw [iterate]
      dsimp only
      split
      · exact hcycles.1
      · next hok' => exact tick _ hok' hcycles.1
    rw [iterateFrom]
    split
    · exact hiterate
    · next hok' => exact ih hok' hiterate (iteration + 1)

theorem exists_failed_of_record {c : Cycle} {e : SimulationError} (hok : r.failure = none)
    (h : (r.record c).failure = some e) : ∃ after, c = .failed after e := by
  cases c with
  | failed after cause =>
    rw [record, Option.some.injEq] at h
    exact ⟨after, by rw [h]⟩
  | skipped =>
    rw [record, hok] at h
    cases h
  | committed after commit =>
    rw [record, hok] at h
    cases h

theorem outcome_eq_error_iff {e : SimulationError} : r.outcome = .error e ↔ r.failure = some e := by
  unfold outcome
  cases r.failure <;> simp

theorem outcome_eq_ok_iff {report : Report} :
    r.outcome = .ok report ↔ r.failure = none ∧ r.report = report := by
  unfold outcome
  cases r.failure <;> simp

end Run

namespace Simulation

variable {graph : RuleGraph} {engine : String} {initial : States} {settings : Settings}
variable {s after : Simulation} {agent : String} {iteration : Nat} {rules : AgentRules}

/-! ## Cycles -/

/-- What can stop a run of an engine with these rules. -/
inductive Foreseen (engine : String) (rules : AgentRules) : SimulationError → Prop
  /-- Some rules of the engine wait for something that never comes. -/
  | deadlock {left : List Pending} (nonempty : left ≠ [])
      (listed : left.Sublist (Step.pendingOf rules)) :
      Foreseen engine rules (.step (.deadlock engine (left.map (·.stuck))))
  /-- The producer of a rule of the engine refuses. -/
  | refused {p : Pending} (listed : p ∈ Step.pendingOf rules) (cause : ProducerError) :
      Foreseen engine rules (.step (.producer ⟨engine, p.agent, p.index⟩ p.rule.function cause))
  /-- An agent of the engine has no time any more. -/
  | untimed {agent : String} (listed : agent ∈ rules.keys) :
      Foreseen engine rules (.missingTime engine agent)
  /-- An agent of the engine is given a time that is not later than its clock. -/
  | regressed {agent : String} {current proposed : Float} (listed : agent ∈ rules.keys)
      (behind : proposed ≤ current) :
      Foreseen engine rules (.clock (.regression agent current proposed))

/-- A step that gives an agent nothing has failed, or has left the agent without a time. -/
theorem advanced_eq_error {snapshot : States} {e : SimulationError}
    (h : s.advanced agent snapshot = .error e) :
    (∃ cause, s.graph.step s.engine (Table.single s.engine snapshot) = .error cause ∧
      e = .step cause) ∨ e = .missingTime s.engine agent := by
  unfold advanced at h
  split at h
  · next cause hstep => exact .inl ⟨cause, hstep, (Except.error.inj h).symm⟩
  · split at h
    · exact .inr (Except.error.inj h).symm
    · split at h
      · exact .inr (Except.error.inj h).symm
      · cases h

/-- A clock that is there refuses a finite time only if it is not later. -/
theorem advance_eq_error {clocks : Clocks} {current time : Float} {e : ClockError}
    (hclock : clocks.get? agent = some current) (htime : time.isFinite = true)
    (h : clocks.advance agent time = .error e) :
    e = .regression agent current time ∧ time ≤ current := by
  unfold Clocks.advance at h
  simp only [hclock] at h
  rw [if_pos htime] at h
  by_cases hle : time ≤ current
  · rw [if_pos hle] at h
    exact ⟨(Except.error.inj h).symm, hle⟩
  · rw [if_neg hle] at h
    cases h

/-- **A cycle that fails does so in one of the foreseen ways.** -/
theorem Timeline.foreseen {engines : Table AgentRules} {e : SimulationError}
    (h : Timeline graph engine initial settings s) (hg : RuleGraph.ofRules engines = .ok s.graph)
    (hr : s.graph.agents s.engine = .ok rules) (hkeys : rules.keys = s.agents)
    (hagent : agent ∈ s.agents) (hfailed : s.cycle iteration agent = .failed after e) :
    Foreseen s.engine rules e := by
  obtain ⟨start, clock, hline⟩ := h.lines agent hagent
  have hclock := hline.shown
  rw [← hkeys] at hagent
  unfold Simulation.cycle at hfailed
  simp only [hclock] at hfailed
  split at hfailed
  · cases hfailed
  split at hfailed
  · next cause hadvanced =>
    obtain ⟨-, rfl⟩ := Cycle.failed.inj hfailed
    rcases advanced_eq_error hadvanced with ⟨cause, hstep, rfl⟩ | rfl
    · rcases RuleGraph.step_error_cases hg hr hstep with
        ⟨left, hleft, hsub, rfl⟩ | ⟨p, hp, cause, rfl⟩
      · exact .deadlock hleft hsub
      · exact .refused hp cause
    · exact .untimed hagent
  · next state time hadvanced =>
    have htime := Value.isFinite_of_time? (time?_of_advanced hadvanced)
    split at hfailed
    · next cause hadvance =>
      obtain ⟨-, rfl⟩ := Cycle.failed.inj hfailed
      obtain ⟨rfl, hle⟩ := advance_eq_error hclock htime hadvance
      exact .regressed hagent hle
    · next old clocks hadvance =>
      -- the clock has let the time pass, so the store does not refuse
      obtain ⟨hlt, -, -⟩ := clock_lt_of_advance hclock hline.finite hadvance
      rw [Store.insert_of_lt _ _ hlt] at hfailed
      cases hfailed

/-! ## Runs -/

/-- What a turn leaves behind can be looked at. -/
theorem Reachable.record {r : Run} (h : Reachable graph engine initial settings r.simulation)
    (iteration : Nat) (agent : String) :
    Reachable graph engine initial settings
      (r.record (r.simulation.cycle iteration agent)).simulation := by
  rw [Run.simulation_record]
  exact .cycled h iteration agent

/-- **What stops a run is a cycle that fails**, of an agent and at a moment that can be looked at. -/
theorem Reachable.exists_failedAt (h : Reachable graph engine initial settings s) {n : Nat}
    {e : SimulationError} (hfailure : (s.run n).failure = some e) :
    ∃ before iteration agent after, Reachable graph engine initial settings before ∧
      agent ∈ before.agents ∧ before.cycle iteration agent = .failed after e := by
  let P : Run → Prop := fun r => Reachable graph engine initial settings r.simulation ∧
    ∀ e, r.failure = some e → ∃ before iteration agent after,
      Reachable graph engine initial settings before ∧ agent ∈ before.agents ∧
        before.cycle iteration agent = .failed after e
  have hcycle : ∀ r iteration agent, r.failure = none → agent ∈ r.simulation.agents → P r →
      P (r.record (r.simulation.cycle iteration agent)) := by
    rintro r iteration agent hok hagent ⟨hreach, -⟩
    refine ⟨hreach.record iteration agent, fun e he => ?_⟩
    obtain ⟨after, hfailed⟩ := Run.exists_failed_of_record hok he
    exact ⟨r.simulation, iteration, agent, after, hreach, hagent, hfailed⟩
  have hstart : P (Run.start s) := ⟨h, fun e he => absurd he (by simp [Run.start])⟩
  exact (Run.iterateFrom_induction hcycle (fun r _ hr => hr) rfl hstart 0 n).2 e hfailure

/-- **Only what is foreseen can stop a run.**  Whatever the producers do and however many runs have
failed before, a run over an accepted graph stops because some rules of the engine wait for ever,
because the producer of a rule refuses, because an agent's new state has no time, or because its time
does not lie ahead of its clock. -/
theorem failures_foreseen {engines : Table AgentRules} (hg : RuleGraph.ofRules engines = .ok graph)
    (h : Reachable graph engine initial settings s) :
    ∃ rules, graph.agents engine = .ok rules ∧
      ∀ n e, (s.run n).outcome = .error e → Foreseen engine rules e := by
  obtain ⟨rules, hr, -⟩ := h.timeline.declared
  refine ⟨rules, hr, fun n e houtcome => ?_⟩
  obtain ⟨before, iteration, agent, after, hreach, hagent, hfailed⟩ :=
    h.exists_failedAt (Run.outcome_eq_error_iff.1 houtcome)
  obtain ⟨hgraph, hengine, -⟩ := hreach.fixed
  obtain ⟨rules', hr', hkeys⟩ := hreach.timeline.declared
  obtain rfl : rules = rules' := Except.ok.inj (hr.symm.trans hr')
  rw [← hgraph] at hg
  rw [← hgraph, ← hengine] at hr
  rw [← hengine]
  exact hreach.timeline.foreseen hg hr hkeys hagent hfailed

end Simulation

/-- The hand stops twice for want of a time to go to: at the end of a run, and in a run after that. -/
theorem Simulation.clockwork_foreseen :
    RuleGraph.ofRules Clockwork.graph.engines = .ok Clockwork.graph ∧
    Reachable Clockwork.graph "wall" Clockwork.initial Clockwork.settings
      (Clockwork.start.run 2).simulation ∧
    (Clockwork.start.run 2).failure.isSome = true ∧
    ∃ rules e, Clockwork.graph.agents "wall" = .ok rules ∧
      ((Clockwork.start.run 2).simulation.run 1).outcome = .error e ∧ Foreseen "wall" rules e := by
  have hg : RuleGraph.ofRules Clockwork.graph.engines = .ok Clockwork.graph := rfl
  have hreach : Reachable Clockwork.graph "wall" Clockwork.initial Clockwork.settings
      (Clockwork.start.run 2).simulation := .driven (.created Clockwork.create_start) 2
  obtain ⟨rules, hr, hall⟩ := failures_foreseen hg hreach
  have hstopped : ((Clockwork.start.run 2).simulation.run 1).outcome =
      .error (.step (.deadlock "wall" [⟨"hand", 0, "identity", .prev (.base "next")⟩])) := by
    decide +kernel
  exact ⟨hg, hreach, by decide +kernel, rules, _, hr, hstopped, hall 1 _ hstopped⟩

end Orrery
