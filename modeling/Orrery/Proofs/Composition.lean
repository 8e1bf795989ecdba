import Orrery.Proofs.Observation

/-!
# Runs that follow each other

Whoever drives a simulation may do it in one go or in several.  A run keeps nothing to itself: all that it
has to know of the past is in the simulation that it is given, and the number of an iteration is told to
observers and to nobody else.  So a run that follows another one goes on where the other has ended, as if
both were one.

* `Run.andThen`: a run that counts on from another.  Its commits are numbered on, and its report is added
  to the other one's.
* `cycles_andThen`, `iterate_andThen`, `iterateFrom_andThen`: to take turns after another run is to take
  them alone and to put the other run in front.  The one place where numbers matter is `cycle_later`.
* `run_add`, `run_add_of_failed`: a run of `m + n` iterations is a run of `m` and one of `n` after it,
  unless the first one fails, and then it is the first one.
* `StopsAt`: where a run stops, said without the run itself: after some iterations, and after the turns of
  some agents of the next one.  `run_eq_of_stopsAt` says that a run which stops there is what there was up
  to then, and one failed turn.
-/

namespace Orrery

universe u

/-! ## Numbering on -/

/-- The counts of two runs together, as far as 64 bits can count. -/
def Report.plus (a b : Report) : Report :=
  ⟨saturated (a.iterations + b.iterations), saturated (a.commits + b.commits),
    saturated (a.skipped + b.skipped)⟩

theorem oneMore_saturated_add (a b : Nat) :
    oneMore (saturated (a + b)) = saturated (a + oneMore b) := by
  unfold oneMore saturated
  omega

/-- The same commit so many iterations later. -/
def Commit.later (offset : Nat) (c : Commit) : Commit := { c with iteration := offset + c.iteration }

/-- The same end of a cycle so many iterations later. -/
def Cycle.later (offset : Nat) : Cycle → Cycle
  | .skipped => .skipped
  | .committed after commit => .committed after (commit.later offset)
  | .failed after cause => .failed after cause

/-- **A cycle does not depend on the iteration**, which it only hands on. -/
theorem Simulation.cycle_later (s : Simulation) (offset iteration : Nat) (agent : String) :
    s.cycle (offset + iteration) agent = (s.cycle iteration agent).later offset := by
  unfold cycle
  cases s.clocks.get? agent with
  | none => rfl
  | some clock =>
    dsimp only
    by_cases hknown : (s.snapshot clock).keys = s.agents
    · rw [if_neg (not_not.2 hknown), if_neg (not_not.2 hknown)]
      cases s.advanced agent (s.snapshot clock) with
      | error e => rfl
      | ok result =>
        dsimp only
        cases s.clocks.advance agent result.2 with
        | error e => rfl
        | ok moved =>
          dsimp only
          cases s.store.insert clock result.2 (Table.single agent result.1) with
          | error e => rfl
          | ok store => rfl
    · rw [if_pos hknown, if_pos hknown]
      rfl

namespace Run

variable {r : Run} {e : SimulationError}

/-- A run after another one, of so many iterations, which did not fail. -/
def andThen (first : Run) (offset : Nat) (next : Run) : Run where
  simulation := next.simulation
  report := first.report.plus next.report
  commits := first.commits ++ next.commits.map (·.later offset)
  failure := next.failure

variable (first : Run) (offset : Nat)

@[simp] theorem simulation_andThen (next : Run) :
    (first.andThen offset next).simulation = next.simulation := rfl

@[simp] theorem failure_andThen (next : Run) :
    (first.andThen offset next).failure = next.failure := rfl

theorem record_andThen (r : Run) (c : Cycle) :
    (first.andThen offset r).record (c.later offset) = first.andThen offset (r.record c) := by
  cases c with
  | skipped => simp [record, andThen, Cycle.later, Report.plus, oneMore_saturated_add]
  | committed after commit => simp [record, andThen, Cycle.later, Report.plus, oneMore_saturated_add]
  | failed after cause => rfl

theorem cycles_andThen (r : Run) (iteration : Nat) (agents : List String) :
    (first.andThen offset r).cycles (offset + iteration) agents =
      first.andThen offset (r.cycles iteration agents) := by
  induction agents generalizing r with
  | nil => rfl
  | cons agent rest ih =>
    rw [cycles, cycles, simulation_andThen, Simulation.cycle_later, record_andThen, failure_andThen]
    cases (r.record (r.simulation.cycle iteration agent)).failure with
    | some e => rfl
    | none => exact ih _

theorem iterate_andThen (r : Run) (iteration : Nat) :
    (first.andThen offset r).iterate (offset + iteration) =
      first.andThen offset (r.iterate iteration) := by
  rw [iterate, iterate, simulation_andThen, cycles_andThen]
  generalize r.cycles iteration r.simulation.agents = done
  cases hfailure : done.failure with
  | some e => simp [andThen, hfailure]
  | none => simp [andThen, hfailure, Report.plus, oneMore_saturated_add]

/-- **Iterations after another run are the iterations alone, numbered on.** -/
theorem iterateFrom_andThen (r : Run) (iteration n : Nat) :
    (first.andThen offset r).iterateFrom (offset + iteration) n =
      first.andThen offset (r.iterateFrom iteration n) := by
  induction n generalizing r iteration with
  | zero => rfl
  | succ n ih =>
    rw [iterateFrom, iterateFrom, iterate_andThen, failure_andThen]
    cases (r.iterate iteration).failure with
    | some e => rfl
    | none => exact ih _ (iteration + 1)

/-- Nothing comes after a run: the counts of its report are counts of 64 bits already. -/
theorem andThen_start {first : Run} {iterations turns : Nat} (h : Tally first iterations turns)
    (hok : first.failure = none) (offset : Nat) :
    first.andThen offset (start first.simulation) = first := by
  obtain ⟨skips, -, hskips⟩ := h.skipped
  have hsaturated : ∀ n, saturated (saturated n) = saturated n := fun n => by
    unfold saturated
    omega
  have hreport : first.report.plus (start first.simulation).report = first.report := by
    rw [Report.plus]
    simp only [start, Nat.add_zero, h.iterations, h.commits, hskips, hsaturated]
    rw [← h.iterations, ← h.commits, ← hskips]
  rw [andThen, hreport]
  simp only [start, List.map_nil, List.append_nil]
  rw [← hok]

/-! ## Taking a run apart -/

/-- Turns that nothing has stopped are followed by the turns after them. -/
theorem cycles_append {iteration : Nat} {agents : List String}
    (hok : (r.cycles iteration agents).failure = none) (rest : List String) :
    r.cycles iteration (agents ++ rest) = (r.cycles iteration agents).cycles iteration rest := by
  induction agents generalizing r with
  | nil => rfl
  | cons agent agents ih =>
    obtain ⟨hfirst, hcycles⟩ := cycles_cons_of_done hok
    rw [hcycles] at hok ⊢
    rw [List.cons_append, cycles, hfirst]
    exact ih hok

theorem iterateFrom_succ_of_done {iteration n : Nat} (hok : (r.iterate iteration).failure = none) :
    r.iterateFrom iteration (n + 1) = (r.iterate iteration).iterateFrom (iteration + 1) n := by
  rw [iterateFrom, hok]

theorem iterateFrom_succ_of_failed {iteration n : Nat} (h : (r.iterate iteration).failure = some e) :
    r.iterateFrom iteration (n + 1) = r.iterate iteration := by
  rw [iterateFrom, h]

/-- Iterations that nothing has stopped are followed by the iterations after them. -/
theorem iterateFrom_add {iteration m : Nat} (hok : (r.iterateFrom iteration m).failure = none)
    (n : Nat) :
    r.iterateFrom iteration (m + n) = (r.iterateFrom iteration m).iterateFrom (iteration + m) n := by
  induction m generalizing r iteration with
  | zero =>
    rw [Nat.zero_add]
    rfl
  | succ m ih =>
    have hcount : m + 1 + n = m + n + 1 := by omega
    have hnumber : iteration + (m + 1) = iteration + 1 + m := by omega
    cases hfirst : (r.iterate iteration).failure with
    | some e =>
      rw [iterateFrom_succ_of_failed hfirst, hfirst] at hok
      cases hok
    | none =>
      rw [iterateFrom_succ_of_done hfirst] at hok
      rw [hcount, hnumber, iterateFrom_succ_of_done hfirst, iterateFrom_succ_of_done hfirst]
      exact ih hok

/-- **What stops iterations is one of them**, and those before it go through. -/
theorem exists_of_iterateFrom_failed {iteration n : Nat} (hok : r.failure = none)
    (h : (r.iterateFrom iteration n).failure = some e) :
    ∃ i < n, (r.iterateFrom iteration i).failure = none ∧
      ((r.iterateFrom iteration i).iterate (iteration + i)).failure = some e := by
  induction n generalizing r iteration with
  | zero =>
    rw [iterateFrom, hok] at h
    cases h
  | succ n ih =>
    cases hfirst : (r.iterate iteration).failure with
    | some cause =>
      rw [iterateFrom_succ_of_failed hfirst] at h
      exact ⟨0, Nat.succ_pos n, hok, h⟩
    | none =>
      rw [iterateFrom_succ_of_done hfirst] at h
      obtain ⟨i, hi, hdone, hfailed⟩ := ih hfirst h
      have hnumber : iteration + (i + 1) = iteration + 1 + i := by omega
      refine ⟨i + 1, Nat.succ_lt_succ hi, ?_, ?_⟩
      · rw [iterateFrom_succ_of_done hfirst]
        exact hdone
      · rw [iterateFrom_succ_of_done hfirst, hnumber]
        exact hfailed

/-- An iteration that fails is the last one. -/
theorem iterateFrom_eq_of_failed {iteration i n : Nat} (hi : i < n)
    (hok : (r.iterateFrom iteration i).failure = none)
    (h : ((r.iterateFrom iteration i).iterate (iteration + i)).failure = some e) :
    r.iterateFrom iteration n = (r.iterateFrom iteration i).iterate (iteration + i) := by
  obtain ⟨rest, rfl⟩ : ∃ rest, n = i + (rest + 1) := ⟨n - i - 1, by omega⟩
  rw [iterateFrom_add hok, iterateFrom_succ_of_failed h]

/-- **What stops turns is one of them**, and those before it go through. -/
theorem exists_of_cycles_failed {iteration : Nat} {agents : List String} (hok : r.failure = none)
    (h : (r.cycles iteration agents).failure = some e) :
    ∃ k agent after, agents[k]? = some agent ∧
      (r.cycles iteration (agents.take k)).failure = none ∧
      (r.cycles iteration (agents.take k)).simulation.cycle iteration agent = .failed after e := by
  induction agents generalizing r with
  | nil =>
    rw [cycles, hok] at h
    cases h
  | cons agent rest ih =>
    cases hfirst : (r.record (r.simulation.cycle iteration agent)).failure with
    | some cause =>
      rw [cycles, hfirst] at h
      obtain ⟨after, hafter⟩ := exists_failed_of_record hok h
      exact ⟨0, agent, after, rfl, hok, hafter⟩
    | none =>
      have hcycles : ∀ agents, r.cycles iteration (agent :: agents) =
          (r.record (r.simulation.cycle iteration agent)).cycles iteration agents := fun agents => by
        rw [cycles, hfirst]
      rw [hcycles] at h
      obtain ⟨k, other, after, hother, hdone, hafter⟩ := ih hfirst h
      refine ⟨k + 1, other, after, hother, ?_, ?_⟩
      · rw [List.take_succ_cons, hcycles]
        exact hdone
      · rw [List.take_succ_cons, hcycles]
        exact hafter

/-- A turn that fails is the last one. -/
theorem cycles_eq_of_failed {iteration k : Nat} {agents : List String} {agent : String}
    {after : Simulation} (hagent : agents[k]? = some agent)
    (hok : (r.cycles iteration (agents.take k)).failure = none)
    (h : (r.cycles iteration (agents.take k)).simulation.cycle iteration agent = .failed after e) :
    r.cycles iteration agents =
      { r.cycles iteration (agents.take k) with simulation := after, failure := some e } := by
  obtain ⟨hk, hget⟩ := List.getElem?_eq_some_iff.1 hagent
  have hsplit : agents.take k ++ agent :: agents.drop (k + 1) = agents := by
    rw [← hget, ← List.drop_eq_getElem_cons hk, List.take_append_drop]
  calc r.cycles iteration agents
      = (r.cycles iteration (agents.take k)).cycles iteration (agent :: agents.drop (k + 1)) := by
        rw [← cycles_append hok, hsplit]
    _ = _ := by
        rw [cycles, h]
        rfl

/-- An iteration that fails is its turns. -/
theorem iterate_eq_of_failed {iteration : Nat}
    (h : (r.cycles iteration r.simulation.agents).failure = some e) :
    r.iterate iteration = r.cycles iteration r.simulation.agents := by
  rw [iterate]
  simp only [h]

end Run

/-! ## One run after another -/

namespace Simulation

variable {graph : RuleGraph} {engine : String} {initial : States} {settings : Settings}
variable {s : Simulation} {e : SimulationError}

theorem tally_run {n : Nat} (hok : (s.run n).failure = none) :
    Tally (s.run n) n (n * s.agents.length) := by
  have houtcome : (s.run n).outcome = .ok (s.run n).report := Run.outcome_eq_ok_iff.2 ⟨hok, rfl⟩
  exact (tally_of_outcome houtcome).2

/-- **A run that did not fail can be gone on with**, and no difference can be seen afterwards. -/
theorem run_add {m : Nat} (hok : (s.run m).failure = none) (n : Nat) :
    s.run (m + n) = (s.run m).andThen m ((s.run m).simulation.run n) := by
  have hstart : s.run m = (s.run m).andThen m (Run.start (s.run m).simulation) :=
    (Run.andThen_start (tally_run hok) hok m).symm
  calc s.run (m + n)
      = (s.run m).iterateFrom (0 + m) n := Run.iterateFrom_add hok n
    _ = ((s.run m).andThen m (Run.start (s.run m).simulation)).iterateFrom (m + 0) n := by
        rw [← hstart, Nat.add_comm]
    _ = (s.run m).andThen m ((s.run m).simulation.run n) := Run.iterateFrom_andThen _ m _ 0 n

/-- **A run that has failed is over**, however many iterations were asked for. -/
theorem run_add_of_failed {m : Nat} (h : (s.run m).failure = some e) (n : Nat) :
    s.run (m + n) = s.run m := by
  obtain ⟨i, hi, hdone, hfailed⟩ := Run.exists_of_iterateFrom_failed rfl h
  calc s.run (m + n)
      = (s.run i).iterate (0 + i) :=
        Run.iterateFrom_eq_of_failed (Nat.lt_add_right n hi) hdone hfailed
    _ = s.run m := (Run.iterateFrom_eq_of_failed hi hdone hfailed).symm

theorem agents_run (s : Simulation) (n : Nat) : (s.run n).simulation.agents = s.agents :=
  run_preserves (P := fun later => later.agents = s.agents)
    (fun later iteration agent h => (later.agents_left iteration agent).trans h) rfl n

/-! ## Where a run stops -/

/-- A run up to a turn: so many iterations, and the turns of so many agents in the next one. -/
def upTo (s : Simulation) (i k : Nat) : Run := (s.run i).cycles i (s.agents.take k)

/-- Everything goes through until the turn of an agent, and this turn fails. -/
structure StopsAt (s : Simulation) (i k : Nat) (e : SimulationError) : Prop where
  /-- The iterations before go through. -/
  iterations : (s.run i).failure = none
  /-- The turns before go through. -/
  turns : (s.upTo i k).failure = none
  /-- The turn fails. -/
  fails : ∃ agent after, s.agents[k]? = some agent ∧
    (s.upTo i k).simulation.cycle i agent = .failed after e

/-- **A run that stops is what there was up to then, and a failure.** -/
theorem run_eq_of_stopsAt (h : Reachable graph engine initial settings s) {i k n : Nat} (hi : i < n)
    (hstops : StopsAt s i k e) : s.run n = { s.upTo i k with failure := some e } := by
  obtain ⟨agent, after, hagent, hfails⟩ := hstops.fails
  -- a turn that fails leaves everything as it was
  have hreach : Timeline graph engine initial settings (s.upTo i k).simulation :=
    Run.cycles_preserves (P := fun s _ => Timeline graph engine initial settings s)
      (fun _ _ iteration agent hs => hs.cycle iteration agent) (Reachable.driven h i).timeline i _
  have hnothing := hreach.allOrNothing i agent
  rw [hfails] at hnothing
  have hafter : after = (s.upTo i k).simulation := by
    cases hnothing
    rfl
  have hcycles : (s.run i).cycles i (s.run i).simulation.agents =
      { s.upTo i k with failure := some e } := by
    rw [s.agents_run]
    rw [hafter] at hfails
    exact Run.cycles_eq_of_failed hagent hstops.turns hfails
  have hiterate : (s.run i).iterate (0 + i) = { s.upTo i k with failure := some e } := by
    rw [Nat.zero_add, Run.iterate_eq_of_failed (by rw [hcycles]), hcycles]
  have hfailure : ((s.run i).iterate (0 + i)).failure = some e := by rw [hiterate]
  calc s.run n
      = (s.run i).iterate (0 + i) := Run.iterateFrom_eq_of_failed hi hstops.iterations hfailure
    _ = { s.upTo i k with failure := some e } := hiterate

/-- **A run fails exactly when it stops somewhere**, and then with the failure of the turn. -/
theorem failure_run_eq_some_iff (h : Reachable graph engine initial settings s) {n : Nat} :
    (s.run n).failure = some e ↔ ∃ i < n, ∃ k, StopsAt s i k e := by
  constructor
  · intro hfailure
    obtain ⟨i, hi, hdone, hfailed⟩ : ∃ i < n, (s.run i).failure = none ∧
        ((s.run i).iterate (0 + i)).failure = some e := Run.exists_of_iterateFrom_failed rfl hfailure
    rw [Nat.zero_add, ((s.run i).iterate_eq_cycles i).1, s.agents_run] at hfailed
    obtain ⟨k, agent, after, hagent, hturns, hfails⟩ := Run.exists_of_cycles_failed hdone hfailed
    exact ⟨i, hi, k, hdone, hturns, agent, after, hagent, hfails⟩
  · rintro ⟨i, hi, k, hstops⟩
    rw [run_eq_of_stopsAt h hi hstops]

/-- The counts of a run add up, and plainly so if there are not more turns than 64 bits can count. -/
theorem plus_of_outcome {m n : Nat} {first second : Report} (hfits : m + n ≤ 18446744073709551615)
    (hfirst : (s.run m).outcome = .ok first)
    (hsecond : ((s.run m).simulation.run n).outcome = .ok second) :
    saturated (first.iterations + second.iterations) = first.iterations + second.iterations ∧
    ((m + n) * s.agents.length ≤ 18446744073709551615 →
      saturated (first.commits + second.commits) = first.commits + second.commits ∧
      saturated (first.skipped + second.skipped) = first.skipped + second.skipped) := by
  obtain ⟨rfl, htally⟩ := tally_of_outcome hfirst
  obtain ⟨rfl, htally'⟩ := tally_of_outcome hsecond
  obtain ⟨skips, htaken, hskips⟩ := htally.skipped
  obtain ⟨skips', htaken', hskips'⟩ := htally'.skipped
  rw [s.agents_run] at htaken'
  rw [htally.iterations, htally'.iterations, htally.commits, htally'.commits, hskips, hskips']
  unfold saturated
  refine ⟨by omega, fun hturns => ?_⟩
  rw [Nat.add_mul] at hturns
  omega

/-- **Runs compose, and failures cut cleanly.**  If a run of `m` iterations ends well, a run of `n` after it
leaves the same simulation behind as a run of `m + n`; it fails with the same failure, or the counts of the
two reports add up to those of the long run.  If the run of `m` iterations fails, the long run fails in the
same way and leaves the same behind.  A run fails exactly when all goes through for some iterations and for
some turns of the next one, and then a turn fails; what it leaves behind is what there was before this
turn.  An observer is told of the commits and changes nothing of all this. -/
theorem runs_compose {M : Type → Type u} [Monad M] [LawfulMonad M]
    (h : Reachable graph engine initial settings s) (observer : Observer M) (m n : Nat)
    (hfits : m + n ≤ 18446744073709551615) :
    (∀ first, (s.run m).outcome = .ok first →
      (s.run (m + n)).simulation = ((s.run m).simulation.run n).simulation ∧
      (s.run (m + n)).commits =
        (s.run m).commits ++ ((s.run m).simulation.run n).commits.map (·.later m) ∧
      (∀ e, (s.run (m + n)).outcome = .error e ↔
        ((s.run m).simulation.run n).outcome = .error e) ∧
      ∀ second, ((s.run m).simulation.run n).outcome = .ok second →
        ∃ total, (s.run (m + n)).outcome = .ok total ∧
          total.iterations = first.iterations + second.iterations ∧
          total.commits = saturated (first.commits + second.commits) ∧
          total.skipped = saturated (first.skipped + second.skipped) ∧
          ((m + n) * s.agents.length ≤ 18446744073709551615 →
            total.commits = first.commits + second.commits ∧
            total.skipped = first.skipped + second.skipped)) ∧
    (∀ e, (s.run m).outcome = .error e →
      (s.run (m + n)).outcome = .error e ∧ (s.run (m + n)).simulation = (s.run m).simulation) ∧
    (∀ e, (s.run n).outcome = .error e ↔ ∃ i < n, ∃ k, StopsAt s i k e) ∧
    (∀ e, ∀ i < n, ∀ k, StopsAt s i k e → (s.run n).simulation = (s.upTo i k).simulation) ∧
    ∀ (t : Simulation) (count : Nat), t.observedRun observer count = (do
      (t.run count).commits.forM observer
      return t.run count) := by
  refine ⟨fun first hfirst => ?_, fun e herror => ?_, fun e => ?_, fun e i hi k hstops => ?_,
    fun t count => t.observedRun_eq observer count⟩
  · obtain ⟨hok, rfl⟩ := Run.outcome_eq_ok_iff.1 hfirst
    have hadd := run_add hok n
    have hfailure : (s.run (m + n)).failure = ((s.run m).simulation.run n).failure := by
      rw [hadd, Run.failure_andThen]
    refine ⟨by rw [hadd, Run.simulation_andThen], by rw [hadd, Run.andThen], fun e => ?_,
      fun second hsecond => ?_⟩
    · rw [Run.outcome_eq_error_iff, Run.outcome_eq_error_iff, hfailure]
    · obtain ⟨hiterations, hcounts⟩ := plus_of_outcome hfits hfirst hsecond
      obtain ⟨hdone, rfl⟩ := Run.outcome_eq_ok_iff.1 hsecond
      have htotal : (s.run (m + n)).outcome =
          .ok ((s.run m).report.plus ((s.run m).simulation.run n).report) :=
        Run.outcome_eq_ok_iff.2 ⟨hfailure.trans hdone, by rw [hadd, Run.andThen]⟩
      exact ⟨_, htotal, hiterations, rfl, rfl, hcounts⟩
  · rw [run_add_of_failed (Run.outcome_eq_error_iff.1 herror)]
    exact ⟨herror, rfl⟩
  · rw [Run.outcome_eq_error_iff]
    exact failure_run_eq_some_iff h
  · rw [run_eq_of_stopsAt h hi hstops]

end Simulation

/-! ## A clock that is out of digits

From 2⁵³ on binary64 has even numbers only.  The first agent goes by twos and does not mind, but a second
that is added to the clock of the other one is lost. -/

namespace Brink

/-- The state of an agent. -/
def stateAt (time step : Float) : Value := .mapping [("time", .ofFloat time), ("timeStep", .ofFloat step)]

/-- Where the agents start. -/
def initial : States :=
  ⟨[("early", stateAt 9007199254740990.0 2.0), ("late", stateAt 9007199254740991.0 1.0)],
    List.pairwise_pair.2 (by decide)⟩

/-- Snapshots are read a unit before the clock. -/
def settings : Settings := ⟨"brink", 2, 1.0, -10.0⟩

/-- The new simulation. -/
def start : Simulation :=
  ⟨Belated.graph, "watch", ["early", "late"],
    ⟨[⟨-10.0, 9007199254740991.0, initial, by decide⟩]⟩,
    ⟨[("early", 9007199254740990.0), ("late", 9007199254740991.0)], List.pairwise_pair.2 (by decide)⟩, 1.0⟩

theorem create_start : Simulation.create Belated.graph "watch" initial settings = .ok start := rfl

/-- The clock cannot move on. -/
def lost : SimulationError :=
  .clock (.regression "late" 9007199254740992.0 9007199254740992.0)

end Brink

/-- Two iterations in one go or one after the other make no difference to the agents of the watch.  On the
brink, the first iteration goes through, and so does a turn of the second one; then the run stops, whether
it began with the first iteration or with the second, and leaves behind what there was before. -/
theorem Simulation.brink_compose :
    ((Belated.start.run 2).simulation = ((Belated.start.run 1).simulation.run 1).simulation ∧
      ∃ total, (Belated.start.run 2).outcome = .ok total ∧
        total.iterations = 1 + 1 ∧ total.commits = 2 + 1 ∧ total.skipped = 0 + 1) ∧
    StopsAt Brink.start 1 1 Brink.lost ∧
    (Brink.start.run 2).simulation = (Brink.start.upTo 1 1).simulation ∧
    ((Brink.start.run 1).simulation.run 1).outcome = .error Brink.lost ∧
    (Brink.start.run 2).simulation = ((Brink.start.run 1).simulation.run 1).simulation := by
  have hwatch : Reachable Belated.graph "watch" Belated.initial Belated.settings Belated.start :=
    .created Belated.create_start
  have hfirst : (Belated.start.run 1).outcome = .ok ⟨1, 2, 0⟩ := by decide +kernel
  have hsecond : ((Belated.start.run 1).simulation.run 1).outcome = .ok ⟨1, 1, 1⟩ := by decide +kernel
  obtain ⟨hsame, -, -, hreport⟩ := (runs_compose hwatch Observer.counting 1 1 (by decide)).1 _ hfirst
  obtain ⟨total, htotal, hiterations, -, -, hcounts⟩ := hreport _ hsecond
  have hbrink : Reachable Belated.graph "watch" Brink.initial Brink.settings Brink.start :=
    .created Brink.create_start
  have hturns : (Brink.start.upTo 1 1).failure = none := by decide +kernel
  have hturn : ((Brink.start.upTo 1 1).record
      ((Brink.start.upTo 1 1).simulation.cycle 1 "late")).failure = some Brink.lost := by decide +kernel
  obtain ⟨after, hfails⟩ := Run.exists_failed_of_record hturns hturn
  have hstops : StopsAt Brink.start 1 1 Brink.lost :=
    ⟨by decide +kernel, hturns, "late", after, rfl, hfails⟩
  have hdone : (Brink.start.run 1).outcome = .ok ⟨1, 2, 0⟩ := by decide +kernel
  obtain ⟨hon, -, herror, -⟩ := (runs_compose hbrink Observer.counting 1 1 (by decide)).1 _ hdone
  obtain ⟨-, -, hfailed, hleft, -⟩ := runs_compose hbrink Observer.counting 0 2 (by decide)
  have houtcome : (Brink.start.run 2).outcome = .error Brink.lost :=
    (hfailed _).2 ⟨1, by decide, 1, hstops⟩
  exact ⟨⟨hsame, total, htotal, hiterations, hcounts (by decide)⟩, hstops,
    hleft _ 1 (by decide) 1 hstops, (herror _).1 houtcome, hon⟩

end Orrery
