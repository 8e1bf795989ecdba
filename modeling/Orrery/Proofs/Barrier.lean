import Orrery.Config.Basic
import Orrery.Proofs.Commit
import Orrery.Proofs.ReadBack

/-!
# The barrier between agents

An agent is skipped while the snapshot lacks a peer.  Whether the peer has *passed* the point that is
read is another matter: the seed answers for every agent up to the latest initial time, also for one
whose clock is behind that point.  So the barrier stands where the seed ends.  From the latest initial
time on, an agent that commits has read nothing that some peer's clock has not passed
(`Committed.passed`), and an agent that would have to is skipped (`Timeline.cycle_eq_skipped`).

Below that time there is no barrier, and the first read of an agent that starts late shows why: it is
meant to see the initial state of all the others, wherever they are (`belated_unpassed`).
-/

namespace Orrery

namespace Simulation

variable {graph : RuleGraph} {engine : String} {initial : States} {settings : Settings}
variable {s after : Simulation} {agent peer : String} {commit : Commit} {point last clock : Float}

/-- No latest initial time is above another. -/
theorem LatestStart.le {other : Float} (h : LatestStart initial last)
    (h' : LatestStart initial other) : last ≤ other := by
  obtain ⟨⟨agent, state, hstate, htime⟩, -⟩ := h
  exact h'.2 agent state last hstate htime

/-- **What is known of a peer at a point was passed by its clock, or comes from the seed.** -/
theorem Timeline.lt_of_get?_merge (h : Timeline graph engine initial settings s)
    (hlast : LatestStart initial last) (hclock : s.clocks.get? peer = some clock) {state : Value}
    (hget : (s.store.merge point).get? peer = some state) : point < last ∨ point < clock := by
  have hpeer := h.clocked peer clock hclock
  obtain ⟨own, start, shown, high, -, -, hshown, hhigh, hrecalls⟩ := h.recalls hpeer point
  rw [hclock, Option.some.injEq] at hshown
  subst hshown
  rw [hget] at hrecalls
  cases hrecalls with
  | recorded inside => exact .inr inside.2
  | seeded _ inside => exact .inl (Binary64.lt_of_lt_of_le inside.2 (hhigh.le hlast))

/-- Every agent has a clock. -/
theorem Timeline.exists_clock (h : Timeline graph engine initial settings s)
    (hagent : agent ∈ s.agents) : ∃ clock, s.clocks.get? agent = some clock := by
  obtain ⟨start, clock, hline⟩ := h.lines agent hagent
  exact ⟨clock, hline.shown⟩

/-- **A commit reads no peer at a point that the peer has not passed**, from the latest start on. -/
theorem Committed.passed (hc : Committed s agent after commit)
    (h : Timeline graph engine initial settings s) (hlast : LatestStart initial last)
    (hclock : s.clocks.get? peer = some clock) :
    commit.low - s.readOffset < last ∨ commit.low - s.readOffset < clock := by
  have hpeer := h.clocked peer clock hclock
  rw [← hc.complete] at hpeer
  obtain ⟨state, hget⟩ := Table.mem_keys_iff.1 hpeer
  exact h.lt_of_get?_merge hlast hclock hget

/-- **An agent waits for a peer that has not passed the point it would read.** -/
theorem Timeline.cycle_eq_skipped (h : Timeline graph engine initial settings s)
    (hlast : LatestStart initial last) {shown : Float} (hclock : s.clocks.get? agent = some clock)
    (hshown : s.clocks.get? peer = some shown) (hbefore : ¬ clock - s.readOffset < last)
    (hpassed : ¬ clock - s.readOffset < shown) (iteration : Nat) :
    s.cycle iteration agent = .skipped := by
  have hunknown : (s.snapshot clock).keys ≠ s.agents := by
    intro hcomplete
    have hpeer := h.clocked peer shown hshown
    rw [← hcomplete] at hpeer
    obtain ⟨state, hget⟩ := Table.mem_keys_iff.1 hpeer
    rcases h.lt_of_get?_merge hlast hshown hget with hlt | hlt
    · exact hbefore hlt
    · exact hpassed hlt
  unfold Simulation.cycle
  simp only [hclock]
  rw [if_pos hunknown]

/-- **The barrier between agents.**  Whenever an agent commits, the point it has read lies before the
latest initial time, or before the clock of every peer.  An agent for which neither holds is skipped. -/
theorem barrier_of_reachable (h : Reachable graph engine initial settings s) :
    ∃ last, LatestStart initial last ∧
      (∀ n, ∀ commit ∈ (s.run n).commits,
        ∃ before, MadeAt graph engine initial settings before commit) ∧
      (∀ before commit, MadeAt graph engine initial settings before commit →
        ∀ peer ∈ before.agents, ∃ clock, before.clocks.get? peer = some clock ∧
          (commit.low - settings.readOffset < last ∨ commit.low - settings.readOffset < clock)) ∧
      ∀ iteration agent clock peer shown, s.clocks.get? agent = some clock →
        s.clocks.get? peer = some shown → ¬ clock - settings.readOffset < last →
        ¬ clock - settings.readOffset < shown → s.cycle iteration agent = .skipped := by
  obtain ⟨seed, -, -, hlast, -⟩ := h.timeline.exists_records
  refine ⟨seed.high, hlast, fun n commit hcommit => h.exists_madeAt hcommit, ?_, ?_⟩
  · intro before commit hmade peer hpeer
    obtain ⟨after, hcommitted⟩ := hmade.committed
    obtain ⟨clock, hclock⟩ := hmade.reachable.timeline.exists_clock hpeer
    rw [← hmade.reachable.fixed.2.2]
    exact ⟨clock, hclock, hcommitted.passed hmade.reachable.timeline hlast hclock⟩
  · intro iteration agent clock peer shown hclock hshown hbefore hpassed
    rw [← h.fixed.2.2] at hbefore hpassed
    exact h.timeline.cycle_eq_skipped hlast hclock hshown hbefore hpassed iteration

end Simulation

/-- The late agent is the last to start. -/
theorem Belated.latestStart : Simulation.LatestStart Belated.initial 10.0 := by
  refine ⟨⟨"late", Belated.stateAt 10.0, rfl, rfl⟩, fun agent state start hstate hstart => ?_⟩
  rcases List.mem_pair.1 (Table.mem_entries_iff.2 hstate) with h | h
  · cases h
    cases hstart
    decide +kernel
  · cases h
    cases hstart
    decide +kernel

/-- After its first commit the late agent has to wait: the early one is not nearly there. -/
theorem Simulation.belated_waits :
    Reachable Belated.graph "watch" Belated.initial Belated.settings
      (Belated.start.run 1).simulation ∧
    (Belated.start.run 1).simulation.clocks.get? "late" = some 11.0 ∧
    (Belated.start.run 1).simulation.clocks.get? "early" = some 1.0 ∧
    (Belated.start.run 1).simulation.cycle 1 "late" = .skipped := by
  have hreach : Reachable Belated.graph "watch" Belated.initial Belated.settings
      (Belated.start.run 1).simulation := .driven (.created Belated.create_start) 1
  have hlate : (Belated.start.run 1).simulation.clocks.get? "late" = some 11.0 := by decide +kernel
  have hearly : (Belated.start.run 1).simulation.clocks.get? "early" = some 1.0 := by decide +kernel
  obtain ⟨last, hlast, -, -, hskip⟩ := barrier_of_reachable hreach
  have hbefore : ¬ (11.0 : Float) - Belated.settings.readOffset < last := fun hlt =>
    absurd (Binary64.lt_of_lt_of_le hlt (hlast.le Belated.latestStart)) (by decide +kernel)
  exact ⟨hreach, hlate, hearly, hskip 1 "late" 11.0 "early" 1.0 hlate hearly hbefore (by decide +kernel)⟩

/-- The late agent commits from a snapshot at a point that is after the start of the early agent, and
that the clock of the early agent has not passed. -/
theorem Simulation.belated_unpassed :
    RuleGraph.ofRules Belated.engines = .ok Belated.graph ∧
    ({ Config.standard with settings := Belated.settings } : Config).validate = .ok () ∧
    ∃ before commit, MadeAt Belated.graph "watch" Belated.initial Belated.settings before commit ∧
      ∃ peer ∈ before.agents, ∃ own start clock, Belated.initial.get? peer = some own ∧
        own.time? = some start ∧ before.clocks.get? peer = some clock ∧
        ¬ commit.low - Belated.settings.readOffset < start ∧
        ¬ commit.low - Belated.settings.readOffset < clock := by
  let before := (Belated.start.cycle 0 "early").left Belated.start
  have hreach : Reachable Belated.graph "watch" Belated.initial Belated.settings before :=
    .cycled (.created Belated.create_start) 0 "early"
  have hmade : (⟨0, "watch", "late", 10.0, 11.0, Belated.stateAt 11.0⟩ : Commit) ∈
      (before.cycle 0 "late").made := by decide +kernel
  refine ⟨rfl, rfl, before, _, ⟨hreach, Cycle.mem_made_iff.1 hmade⟩, "early", ?_, Belated.stateAt 0.0,
    0.0, 1.0, rfl, rfl, ?_, ?_, ?_⟩
  · decide +kernel
  · decide +kernel
  · decide +kernel
  · decide +kernel

end Orrery
