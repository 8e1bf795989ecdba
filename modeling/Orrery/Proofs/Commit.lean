import Orrery.Proofs.Timeline

/-!
# What a commit is made from

`Timeline` says what a commit does to the clocks and to the history.  Three questions remain: what the
agent had read, what the step made of it, and whether the commits that a run lists are all of this kind.

* `Committed`: the snapshot before the agent's clock held every agent, the step came to an end on it, and
  the agent's entry and the time in it are what the commit carries.
* `Timeline.left_eq_or_committed`: a cycle changes nothing, or has committed in this sense.  Whatever is
  to be kept by all cycles has to be checked for such a commit only.
* `Reachable.exists_madeAt`: every commit that a run lists was made by a cycle, at a moment that can be
  looked at.
-/

namespace Orrery

theorem exists_of_bind_eq_ok {ε α β : Type} {x : Except ε α} {f : α → Except ε β} {b : β}
    (h : x >>= f = .ok b) : ∃ a, x = .ok a ∧ f a = .ok b := by
  cases x with
  | error e => exact absurd h (by simp [bind, Except.bind])
  | ok a => exact ⟨a, rfl, h⟩

theorem Cycle.mem_made_iff {c : Cycle} {commit : Commit} :
    commit ∈ c.made ↔ ∃ after, c = .committed after commit := by
  cases c with
  | skipped => simp [made]
  | failed after cause => simp [made]
  | committed after own =>
    rw [made, List.mem_singleton]
    constructor
    · rintro rfl
      exact ⟨after, rfl⟩
    · rintro ⟨after', h⟩
      exact (Cycle.committed.inj h).2.symm

namespace Simulation

variable {graph : RuleGraph} {engine : String} {initial : States} {settings : Settings}
variable {s after : Simulation} {agent : String} {iteration : Nat} {commit : Commit}

/-! ## One commit -/

/-- **What an agent is given** is its entry in a finished step, with the time that is in it. -/
theorem advanced_eq_ok_iff {snapshot : States} {state : Value} {time : Float} :
    s.advanced agent snapshot = .ok (state, time) ↔
      ∃ states, s.graph.step s.engine (Table.single s.engine snapshot) = .ok states ∧
        states.get? agent = some state ∧ state.time? = some time := by
  unfold advanced
  cases hstep : s.graph.step s.engine (Table.single s.engine snapshot) with
  | error e => simp
  | ok states =>
    simp only [Except.ok.injEq, exists_eq_left']
    cases hget : states.get? agent with
    | none => simp
    | some own =>
      simp only [Option.some.injEq]
      cases htime : own.time? with
      | none =>
        simp only [reduceCtorEq, false_iff]
        rintro ⟨rfl, h⟩
        rw [htime] at h
        cases h
      | some t =>
        simp only [Except.ok.injEq, Prod.mk.injEq]
        constructor
        · rintro ⟨rfl, rfl⟩
          exact ⟨rfl, htime⟩
        · rintro ⟨rfl, h⟩
          rw [htime, Option.some.injEq] at h
          exact ⟨rfl, h⟩

/-- An agent commits: it has read a snapshot that holds every agent, the step has given it a state and
a time, and it moves on with them. -/
structure Committed (s : Simulation) (agent : String) (after : Simulation) (commit : Commit) :
    Prop where
  /-- The commit is the agent's. -/
  own : commit.agent = agent
  /-- The snapshot holds every agent. -/
  complete : (s.snapshot commit.low).keys = s.agents
  /-- The step gives the agent its state and the time in it. -/
  advanced : s.advanced agent (s.snapshot commit.low) = .ok (commit.state, commit.high)
  /-- The agent moves on. -/
  moves : ∃ r, r.low = commit.low ∧ r.high = commit.high ∧
    r.value = Table.single agent commit.state ∧ Moves s agent r after

/-- A cycle that commits, commits. -/
theorem committed_of_cycle
    (hfinite : ∀ clock, s.clocks.get? agent = some clock → clock.isFinite = true)
    (h : s.cycle iteration agent = .committed after commit) :
    commit.iteration = iteration ∧ Committed s agent after commit := by
  unfold cycle at h
  cases hclock : s.clocks.get? agent with
  | none =>
    rw [hclock] at h
    exact absurd h (by simp)
  | some clock =>
    simp only [hclock] at h
    by_cases hknown : (s.snapshot clock).keys = s.agents
    · rw [if_neg (not_not.2 hknown)] at h
      cases hadvanced : s.advanced agent (s.snapshot clock) with
      | error e =>
        rw [hadvanced] at h
        exact absurd h (by simp)
      | ok result =>
        obtain ⟨state, time⟩ := result
        simp only [hadvanced] at h
        cases hadvance : s.clocks.advance agent time with
        | error e =>
          rw [hadvance] at h
          exact absurd h (by simp)
        | ok result =>
          obtain ⟨old, clocks⟩ := result
          obtain ⟨hlt, htime, rfl⟩ := clock_lt_of_advance hclock (hfinite clock hclock) hadvance
          simp only [hadvance] at h
          rw [Store.insert_of_lt _ _ hlt] at h
          obtain ⟨rfl, rfl⟩ := Cycle.committed.inj h
          refine ⟨rfl, rfl, hknown, hadvanced, ⟨clock, time, Table.single agent state, hlt⟩, rfl, rfl,
            rfl, hclock, ⟨state, rfl, time?_of_advanced hadvanced⟩, htime, rfl⟩
    · rw [if_pos hknown] at h
      exact absurd h (by simp)

theorem Timeline.committed (h : Timeline graph engine initial settings s)
    (hcycle : s.cycle iteration agent = .committed after commit) : Committed s agent after commit :=
  (committed_of_cycle (fun _ hclock => h.finite hclock) hcycle).2

/-- **A cycle changes nothing, or commits.** -/
theorem Timeline.left_eq_or_committed (h : Timeline graph engine initial settings s)
    (iteration : Nat) (agent : String) :
    (s.cycle iteration agent).left s = s ∨
    ∃ commit, Committed s agent ((s.cycle iteration agent).left s) commit := by
  have hcases := h.allOrNothing iteration agent
  cases hcycle : s.cycle iteration agent with
  | skipped => exact .inl rfl
  | failed after cause =>
    rw [hcycle] at hcases
    cases hcases with
    | failed => exact .inl rfl
  | committed after commit => exact .inr ⟨commit, h.committed hcycle⟩

/-- The clock of an agent that commits. -/
theorem Committed.clock (h : Committed s agent after commit) :
    s.clocks.get? agent = some commit.low := by
  obtain ⟨r, hlow, -, -, hmoves⟩ := h.moves
  rw [← hlow]
  exact hmoves.low

/-- A commit leads forward. -/
theorem Committed.low_lt_high (h : Committed s agent after commit) : commit.low < commit.high := by
  obtain ⟨r, hlow, hhigh, -, -⟩ := h.moves
  rw [← hlow, ← hhigh]
  exact r.low_lt_high

/-- An agent that commits is one of the agents. -/
theorem Committed.mem_agents (hc : Committed s agent after commit)
    (h : Timeline graph engine initial settings s) : agent ∈ s.agents :=
  h.clocked agent commit.low hc.clock

/-! ## The commits of a run -/

/-- A commit was made at a moment that can be looked at: a cycle of its agent made it. -/
structure MadeAt (graph : RuleGraph) (engine : String) (initial : States) (settings : Settings)
    (before : Simulation) (commit : Commit) : Prop where
  /-- There is such a moment. -/
  reachable : Reachable graph engine initial settings before
  /-- The cycle ends with the commit. -/
  cycle : ∃ after, before.cycle commit.iteration commit.agent = .committed after commit

theorem MadeAt.committed {before : Simulation}
    (h : MadeAt graph engine initial settings before commit) :
    ∃ after, Committed before commit.agent after commit := by
  obtain ⟨after, hcycle⟩ := h.cycle
  exact ⟨after, h.reachable.timeline.committed hcycle⟩

/-- **Every commit that a run lists was made by a cycle.** -/
theorem Reachable.exists_madeAt (h : Reachable graph engine initial settings s) {n : Nat}
    (hcommit : commit ∈ (s.run n).commits) :
    ∃ before, MadeAt graph engine initial settings before commit := by
  let P : Simulation → List Commit → Prop := fun s commits =>
    Reachable graph engine initial settings s ∧
      ∀ commit ∈ commits, ∃ before, MadeAt graph engine initial settings before commit
  have step : ∀ s commits iteration agent, P s commits →
      P ((s.cycle iteration agent).left s) (commits ++ (s.cycle iteration agent).made) := by
    rintro s commits iteration agent ⟨hs, hall⟩
    refine ⟨.cycled hs iteration agent, fun commit hcommit => ?_⟩
    rcases List.mem_append.1 hcommit with hold | hnew
    · exact hall commit hold
    · obtain ⟨after, hcycle⟩ := Cycle.mem_made_iff.1 hnew
      obtain ⟨rfl, hmade⟩ := committed_of_cycle (fun _ hclock => hs.timeline.finite hclock) hcycle
      rw [← hmade.own] at hcycle
      exact ⟨s, hs, after, hcycle⟩
  have hstart : P s [] := ⟨h, by simp⟩
  exact (Run.iterateFrom_preserves step hstart 0 n).2 commit hcommit

/-! ## What never changes -/

theorem fixed_of_create (h : create graph engine initial settings = .ok s) :
    s.graph = graph ∧ s.engine = engine ∧ s.readOffset = settings.readOffset := by
  unfold create at h
  obtain ⟨rules, -, h⟩ := exists_of_bind_eq_ok h
  dsimp only at h
  split at h
  · obtain ⟨_, hthrow, -⟩ := exists_of_bind_eq_ok h
    cases hthrow
  split at h
  · obtain ⟨_, hthrow, -⟩ := exists_of_bind_eq_ok h
    cases hthrow
  obtain ⟨clocks, -, h⟩ := exists_of_bind_eq_ok h
  obtain ⟨store, -, h⟩ := exists_of_bind_eq_ok h
  obtain rfl := Except.ok.inj h
  exact ⟨rfl, rfl, rfl⟩

/-- A simulation keeps its rules, its engine and its offset. -/
theorem Reachable.fixed (h : Reachable graph engine initial settings s) :
    s.graph = graph ∧ s.engine = engine ∧ s.readOffset = settings.readOffset := by
  refine h.preserves (fun s hs => fixed_of_create hs) fun s iteration agent ht hs => ?_
  rcases (ht.allOrNothing iteration agent).left_eq_or_moves with heq | ⟨r, hmoves⟩
  · rw [heq]
    exact hs
  · rw [hmoves.after]
    exact hs

end Simulation

end Orrery
