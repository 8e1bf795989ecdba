import Orrery.Observer
import Orrery.Proofs.Progress

/-!
# What a run tells

A run leaves three accounts of what it has done: the records that it adds to the history, the commits
that it tells an observer of, and the counts of its report.  They are kept in different places, and a
failure can come between any two of them.  This file shows that they agree.

* `cycle_turn`: a turn comes to nothing, to a failure that leaves the history alone, or to a commit and
  one more record that says the same.  So the observer, who looks at the newest record, is told exactly
  this commit (`told_cycle`).
* `observedRun_eq`: an observed run is the run and, commit by commit, the observer.  Nothing that an
  observer does changes the run, in whatever monad it lives.
* `exists_added`: the history grows by the commits, in their order.
* `turns`: an iteration gives every agent one turn, and commits are made in the order of the turns.
* `Tally`: in a run that has not failed every turn is counted once, as a commit or as skipped.
-/

namespace Orrery

universe u

/-! ## Counts -/

/-- A number as a count of 64 bits shows it. -/
def saturated (n : Nat) : Nat := min n 18446744073709551615

theorem oneMore_saturated (n : Nat) : oneMore (saturated n) = saturated (n + 1) := by
  unfold oneMore saturated
  omega

theorem saturated_of_le {n : Nat} (h : n ≤ 18446744073709551615) : saturated n = n :=
  Nat.min_eq_left h

theorem saturated_toNat (n : UInt64) : saturated n.toNat = n.toNat :=
  saturated_of_le (Nat.le_of_lt_succ n.toNat_lt)

/-! ## One turn -/

/-- A record says what a commit says. -/
structure Commit.RecordedAs (c : Commit) (r : Record States) : Prop where
  /-- It begins where the clock was. -/
  low : r.low = c.low
  /-- It ends where the clock is. -/
  high : r.high = c.high
  /-- It holds the state of the agent and nothing else. -/
  value : r.value = Table.single c.agent c.state

/-- Whose turn a commit was made in. -/
def Commit.turn (c : Commit) : Nat × String := (c.iteration, c.agent)

namespace Simulation

variable {s : Simulation} {agent : String} {iteration : Nat}

/-- What a turn of an agent comes to. -/
inductive Turn (s : Simulation) (turn : Nat × String) : Cycle → Prop
  /-- The agent is skipped. -/
  | skipped : Turn s turn .skipped
  /-- The run stops, and the history is as it was. -/
  | failed {after : Simulation} {cause : SimulationError} (store : after.store = s.store) :
      Turn s turn (.failed after cause)
  /-- A commit is made, and one record is added that says the same. -/
  | committed {after : Simulation} {commit : Commit} {r : Record States} (own : commit.turn = turn)
      (store : after.store = s.store.append r) (recorded : commit.RecordedAs r) :
      Turn s turn (.committed after commit)

/-- **A turn comes to nothing, to a failure, or to a commit and its record.** -/
theorem cycle_turn (s : Simulation) (iteration : Nat) (agent : String) :
    Turn s (iteration, agent) (s.cycle iteration agent) := by
  unfold cycle
  split
  · exact .failed rfl
  · next clock _ =>
    dsimp only
    split
    · exact .skipped
    split
    · exact .failed rfl
    · next state time _ =>
      split
      · exact .failed rfl
      · -- the clock has moved, and the store decides
        by_cases hlt : clock < time
        · rw [Store.insert_of_lt _ _ hlt]
          exact .committed rfl rfl ⟨rfl, rfl, rfl⟩
        · rw [Store.insert_of_not_lt _ _ hlt]
          exact .failed rfl

/-- The commit of a turn is a commit of this turn. -/
theorem turn_of_mem_made {commit : Commit} (h : commit ∈ (s.cycle iteration agent).made) :
    commit.turn = (iteration, agent) := by
  have hturn := cycle_turn s iteration agent
  generalize s.cycle iteration agent = c at h hturn
  cases hturn with
  | skipped => simp [Cycle.made] at h
  | failed => simp [Cycle.made] at h
  | committed own => rwa [List.mem_singleton.1 h]

/-- A turn adds to the history what it commits. -/
theorem exists_added_left (s : Simulation) (iteration : Nat) (agent : String) :
    ∃ added, ((s.cycle iteration agent).left s).store.records = s.store.records ++ added ∧
      List.Forall₂ Commit.RecordedAs (s.cycle iteration agent).made added := by
  have hturn := cycle_turn s iteration agent
  generalize s.cycle iteration agent = c at hturn
  cases hturn with
  | skipped => exact ⟨[], (List.append_nil _).symm, .nil⟩
  | failed store => exact ⟨[], by rw [Cycle.left, store, List.append_nil], .nil⟩
  | @committed after commit r _ store recorded =>
    exact ⟨[r], by rw [Cycle.left, store, Store.records_append], .cons recorded .nil⟩

/-- **An observer is told of the commit**, because the newest record is the one that says the same. -/
theorem told_cycle (s : Simulation) (iteration : Nat) (agent : String) :
    (s.cycle iteration agent).told.toList = (s.cycle iteration agent).made := by
  have hturn := cycle_turn s iteration agent
  generalize s.cycle iteration agent = c at hturn
  cases hturn with
  | skipped => rfl
  | failed => rfl
  | @committed after commit r _ store recorded =>
    have hnewest : (after.store.records.getLast?.bind fun r => r.value.get? commit.agent) =
        some commit.state := by
      rw [store, Store.records_append, List.getLast?_concat, Option.bind_some, recorded.value,
        Table.get?_single, if_pos rfl]
    rw [Cycle.told, hnewest]
    rfl

end Simulation

/-! ## Observers -/

namespace Run

variable {m : Type → Type u} [Monad m] [LawfulMonad m] (observer : Observer m)

/-- Turns under observation are the turns, and telling what they commit. -/
theorem observedCycles_eq (r : Run) (iteration : Nat) (agents : List String) :
    ∃ made, (r.cycles iteration agents).commits = r.commits ++ made ∧
      r.observedCycles observer iteration agents = (do
        made.forM observer
        return r.cycles iteration agents) := by
  induction agents generalizing r with
  | nil => exact ⟨[], (List.append_nil _).symm, by simp [observedCycles, cycles]⟩
  | cons agent rest ih =>
    have hcommits := r.commits_record (r.simulation.cycle iteration agent)
    rw [cycles, observedCycles, Simulation.told_cycle]
    generalize r.simulation.cycle iteration agent = c at hcommits
    cases hfailure : (r.record c).failure with
    | some cause => exact ⟨c.made, by simpa [hfailure] using hcommits, by simp [hfailure]⟩
    | none =>
      obtain ⟨made, hmade, hobserved⟩ := ih (r.record c)
      refine ⟨c.made ++ made, ?_, ?_⟩
      · simp only [hmade, hcommits, List.append_assoc]
      · simp [hfailure, hobserved, List.forM_append]

theorem observedIterate_eq (r : Run) (iteration : Nat) :
    ∃ made, (r.iterate iteration).commits = r.commits ++ made ∧
      r.observedIterate observer iteration = (do
        made.forM observer
        return r.iterate iteration) := by
  obtain ⟨made, hmade, hobserved⟩ :=
    r.observedCycles_eq observer iteration r.simulation.agents
  refine ⟨made, ?_, ?_⟩
  · rw [(r.iterate_eq_cycles iteration).2.1, hmade]
  · rw [observedIterate, hobserved, iterate]
    cases hfailure : (r.cycles iteration r.simulation.agents).failure <;> simp [hfailure]

theorem observedFrom_eq (r : Run) (iteration n : Nat) :
    ∃ made, (r.iterateFrom iteration n).commits = r.commits ++ made ∧
      r.observedFrom observer iteration n = (do
        made.forM observer
        return r.iterateFrom iteration n) := by
  induction n generalizing r iteration with
  | zero => exact ⟨[], (List.append_nil _).symm, by simp [observedFrom, iterateFrom]⟩
  | succ n ih =>
    obtain ⟨made, hmade, hobserved⟩ := r.observedIterate_eq observer iteration
    rw [iterateFrom, observedFrom, hobserved]
    cases hfailure : (r.iterate iteration).failure with
    | some cause => exact ⟨made, by simpa [hfailure] using hmade, by simp [hfailure]⟩
    | none =>
      obtain ⟨more, hmore, hlater⟩ := ih (r.iterate iteration) (iteration + 1)
      refine ⟨made ++ more, ?_, ?_⟩
      · simp only [hmore, hmade, List.append_assoc]
      · simp [hfailure, hlater, List.forM_append]

end Run

/-- **An observed run is the run, and telling its commits one by one.** -/
theorem Simulation.observedRun_eq {m : Type → Type u} [Monad m] [LawfulMonad m]
    (observer : Observer m) (s : Simulation) (n : Nat) :
    s.observedRun observer n = (do
      (s.run n).commits.forM observer
      return s.run n) := by
  obtain ⟨made, hmade, hobserved⟩ := (Run.start s).observedFrom_eq observer 0 n
  have hcommits : (s.run n).commits = made := hmade
  rw [observedRun, hobserved, hcommits]
  rfl

/-- The count of an observer who is told of some commits. -/
theorem Observer.run_forM_counting (commits : List Commit) (seen : Nat) :
    (commits.forM counting).run (saturated seen) = (⟨⟩, saturated (seen + commits.length)) := by
  induction commits generalizing seen with
  | nil => rfl
  | cons c rest ih =>
    have hfirst : (counting c).run (saturated seen) = (⟨⟩, saturated (seen + 1)) := by
      rw [← oneMore_saturated]
      rfl
    have hlength : seen + (c :: rest).length = seen + 1 + rest.length := by
      rw [List.length_cons]
      omega
    rw [List.forM_eq_forM, List.forM_cons, StateT.run_bind, hfirst, hlength]
    exact ih (seen + 1)

/-! ## The history -/

/-- **The history grows by the commits**, in their order. -/
theorem Simulation.exists_added (s : Simulation) (n : Nat) :
    ∃ added, (s.run n).simulation.store.records = s.store.records ++ added ∧
      List.Forall₂ Commit.RecordedAs (s.run n).commits added := by
  let P : Simulation → List Commit → Prop := fun later commits =>
    ∃ added, later.store.records = s.store.records ++ added ∧
      List.Forall₂ Commit.RecordedAs commits added
  have step : ∀ later commits iteration agent, P later commits →
      P ((later.cycle iteration agent).left later)
        (commits ++ (later.cycle iteration agent).made) := by
    rintro later commits iteration agent ⟨added, hrecords, hall⟩
    obtain ⟨more, hmore, hmade⟩ := exists_added_left later iteration agent
    exact ⟨added ++ more, by rw [hmore, hrecords, List.append_assoc], List.rel_append hall hmade⟩
  have hstart : P s [] := ⟨[], (List.append_nil _).symm, .nil⟩
  exact Run.iterateFrom_preserves step hstart 0 n

/-! ## The order of the turns -/

/-- The turns of some iterations from a number on. -/
def turns (agents : List String) (first : Nat) : Nat → List (Nat × String)
  | 0 => []
  | n + 1 => agents.map (first, ·) ++ turns agents (first + 1) n

theorem first_le_of_mem_turns {agents : List String} {first n : Nat} {turn : Nat × String}
    (h : turn ∈ turns agents first n) : first ≤ turn.1 := by
  induction n generalizing first with
  | zero => simp [turns] at h
  | succ n ih =>
    rw [turns, List.mem_append] at h
    rcases h with h | h
    · obtain ⟨agent, -, rfl⟩ := List.mem_map.1 h
      exact Nat.le_refl _
    · exact Nat.le_of_succ_le (ih h)

/-- In a list without repetition the places increase. -/
theorem pairwise_idxOf_lt {names : List String} (h : names.Nodup) :
    names.Pairwise fun a b => names.idxOf a < names.idxOf b := by
  rw [List.pairwise_iff_getElem]
  intro i j hi hj hij
  rwa [h.idxOf_getElem, h.idxOf_getElem]

/-- **Turns follow each other**: by iterations, and within an iteration by the places of the agents. -/
theorem pairwise_turns {agents : List String} (h : agents.Nodup) (first n : Nat) :
    ((turns agents first n).map fun turn => toLex (turn.1, agents.idxOf turn.2)).Pairwise
      (· < ·) := by
  induction n generalizing first with
  | zero => exact .nil
  | succ n ih =>
    rw [turns, List.map_append, List.pairwise_append]
    refine ⟨?_, ih (first + 1), ?_⟩
    · rw [List.map_map, List.pairwise_map]
      refine (pairwise_idxOf_lt h).imp fun hlt => ?_
      simpa [Prod.Lex.toLex_lt_toLex] using hlt
    · intro x hx y hy
      obtain ⟨turn, hturn, rfl⟩ := List.mem_map.1 hx
      obtain ⟨agent, -, rfl⟩ := List.mem_map.1 hturn
      obtain ⟨later, hlater, rfl⟩ := List.mem_map.1 hy
      exact Prod.Lex.toLex_lt_toLex.2 (.inl (first_le_of_mem_turns hlater))

namespace Run

/-- The commits of some turns are made in the order of the turns. -/
theorem turns_cycles (r : Run) (iteration : Nat) (agents : List String) :
    ∃ made, (r.cycles iteration agents).commits = r.commits ++ made ∧
      (made.map (·.turn)).Sublist (agents.map (iteration, ·)) := by
  induction agents generalizing r with
  | nil => exact ⟨[], (List.append_nil _).symm, .slnil⟩
  | cons agent rest ih =>
    have hcommits := r.commits_record (r.simulation.cycle iteration agent)
    have hmade : ((r.simulation.cycle iteration agent).made.map (·.turn)).Sublist
        [(iteration, agent)] := by
      cases hcycle : r.simulation.cycle iteration agent with
      | skipped => exact List.nil_sublist _
      | failed => exact List.nil_sublist _
      | committed after commit =>
        have hown := Simulation.turn_of_mem_made (Cycle.mem_made_iff.2 ⟨after, hcycle⟩)
        rw [Cycle.made, List.map_singleton, hown]
    rw [cycles]
    generalize r.simulation.cycle iteration agent = c at hcommits hmade
    cases hfailure : (r.record c).failure with
    | some cause =>
      exact ⟨c.made, by simpa [hfailure] using hcommits,
        hmade.trans (List.singleton_sublist.2 (List.mem_cons_self ..))⟩
    | none =>
      obtain ⟨made, hrest, hsub⟩ := ih (r.record c)
      refine ⟨c.made ++ made, ?_, ?_⟩
      · simp only [hrest, hcommits, List.append_assoc]
      · rw [List.map_append]
        exact hmade.append hsub

theorem agents_iterate (r : Run) (iteration : Nat) :
    (r.iterate iteration).simulation.agents = r.simulation.agents :=
  iterate_preserves (P := fun s _ => s.agents = r.simulation.agents)
    (fun s _ iteration agent h => (s.agents_left iteration agent).trans h) rfl iteration

/-- **Commits are made in the order of the turns**, and at most one in each. -/
theorem turns_iterateFrom (r : Run) (first n : Nat) :
    ∃ made, (r.iterateFrom first n).commits = r.commits ++ made ∧
      (made.map (·.turn)).Sublist (turns r.simulation.agents first n) := by
  induction n generalizing r first with
  | zero => exact ⟨[], (List.append_nil _).symm, .slnil⟩
  | succ n ih =>
    obtain ⟨made, hmade, hsub⟩ := r.turns_cycles first r.simulation.agents
    rw [← (r.iterate_eq_cycles first).2.1] at hmade
    rw [iterateFrom, turns]
    cases hfailure : (r.iterate first).failure with
    | some cause =>
      exact ⟨made, by simpa [hfailure] using hmade, hsub.trans (List.sublist_append_left _ _)⟩
    | none =>
      obtain ⟨more, hmore, hlater⟩ := ih (r.iterate first) (first + 1)
      rw [r.agents_iterate] at hlater
      refine ⟨made ++ more, ?_, ?_⟩
      · simp only [hmore, hmade, List.append_assoc]
      · rw [List.map_append]
        exact hsub.append hlater

end Run

/-! ## The report -/

/-- So many iterations are over, so many turns have been taken, and each turn was counted as a commit or
as skipped. -/
structure Tally (r : Run) (iterations turns : Nat) : Prop where
  /-- Iterations that are over. -/
  iterations : r.report.iterations = saturated iterations
  /-- Every commit is counted. -/
  commits : r.report.commits = saturated r.commits.length
  /-- All other turns are counted as skipped. -/
  skipped : ∃ skips, r.commits.length + skips = turns ∧ r.report.skipped = saturated skips

namespace Tally

variable {r : Run} {iterations taken : Nat}

theorem start (s : Simulation) : Tally (Run.start s) 0 0 := ⟨rfl, rfl, 0, rfl, rfl⟩

/-- A turn that does not stop the run is counted once. -/
theorem record (h : Tally r iterations taken) {c : Cycle} (hok : (r.record c).failure = none) :
    Tally (r.record c) iterations (taken + 1) := by
  obtain ⟨skips, htaken, hskipped⟩ := h.skipped
  cases c with
  | failed after cause => cases hok
  | skipped =>
    refine ⟨h.iterations, h.commits, skips + 1, ?_, ?_⟩
    · rw [← htaken]
      rfl
    · rw [← oneMore_saturated, ← hskipped]
      rfl
  | committed after commit =>
    have hlength : (r.record (.committed after commit)).commits.length = r.commits.length + 1 :=
      List.length_append
    refine ⟨h.iterations, ?_, skips, ?_, hskipped⟩
    · rw [hlength, ← oneMore_saturated, ← h.commits]
      rfl
    · rw [hlength]
      omega

theorem cycles {agents : List String} {iteration : Nat} (h : Tally r iterations taken)
    (hok : (r.cycles iteration agents).failure = none) :
    Tally (r.cycles iteration agents) iterations (taken + agents.length) := by
  induction agents generalizing r taken with
  | nil => exact h
  | cons agent rest ih =>
    obtain ⟨hfirst, hcycles⟩ := Run.cycles_cons_of_done hok
    rw [hcycles] at hok ⊢
    have hlength : taken + (agent :: rest).length = taken + 1 + rest.length := by
      rw [List.length_cons]
      omega
    rw [hlength]
    exact ih (h.record hfirst) hok

theorem iterate {iteration : Nat} (h : Tally r iterations taken)
    (hok : (r.iterate iteration).failure = none) :
    Tally (r.iterate iteration) (iterations + 1) (taken + r.simulation.agents.length) := by
  rw [(r.iterate_eq_cycles iteration).1] at hok
  have hcycles := h.cycles hok
  rw [Run.iterate]
  simp only [hok]
  refine ⟨?_, hcycles.commits, hcycles.skipped⟩
  rw [hcycles.iterations, oneMore_saturated]

/-- **In a run that does not fail every turn is counted once.** -/
theorem iterateFrom (h : Tally r iterations taken) (first n : Nat)
    (hok : (r.iterateFrom first n).failure = none) :
    Tally (r.iterateFrom first n) (iterations + n) (taken + n * r.simulation.agents.length) := by
  induction n generalizing r iterations taken first with
  | zero =>
    rw [Nat.zero_mul]
    exact h
  | succ n ih =>
    rw [Run.iterateFrom] at hok ⊢
    cases hfailure : (r.iterate first).failure with
    | some cause =>
      simp only [hfailure] at hok
      cases hok
    | none =>
      simp only [hfailure] at hok ⊢
      have hrest := ih (h.iterate hfailure) (first + 1) hok
      rw [r.agents_iterate] at hrest
      have hiterations : iterations + (n + 1) = iterations + 1 + n := by omega
      rw [hiterations, Nat.succ_mul, Nat.add_comm (n * _), ← Nat.add_assoc]
      exact hrest

end Tally

/-! ## The three accounts -/

namespace Simulation

variable {graph : RuleGraph} {engine : String} {initial : States} {settings : Settings}
variable {s : Simulation} {n : Nat}

/-- Agents take their turns in the order of their names, so none is listed twice. -/
theorem Timeline.nodup_agents (h : Timeline graph engine initial settings s) : s.agents.Nodup := by
  rw [← h.agents]
  exact initial.nodup_keys

/-- Every turn of a run that does not fail is a commit or skipped. -/
theorem tally_of_outcome {report : Report} (h : (s.run n).outcome = .ok report) :
    (s.run n).report = report ∧ Tally (s.run n) n (n * s.agents.length) := by
  obtain ⟨hok, hreport⟩ := Run.outcome_eq_ok_iff.1 h
  have htally := (Tally.start s).iterateFrom 0 n hok
  rw [Nat.zero_add, Nat.zero_add] at htally
  exact ⟨hreport, htally⟩

/-- The summary of a run that does not fail. -/
theorem summary_of_outcome {report : Report} (h : (s.run n).outcome = .ok report) :
    (s.run n).summary = .ok ⟨(s.run n).simulation.engine, report,
      (s.run n).simulation.clocks.entries, (s.run n).simulation.store.size⟩ := by
  obtain ⟨hok, hreport⟩ := Run.outcome_eq_ok_iff.1 h
  rw [Run.summary, hok, hreport]

/-- **History, observer and report agree.**  Whether a run ends well or not, an observer of whatever kind
is told of its commits one by one and changes nothing; the commits are made in the order of the turns,
which go by iterations and within an iteration by the places of the agents, at most one in a turn; and
the history has grown by exactly the records of the commits, in the same order.  A run that ends well
reports its iterations and the number of added records, as far as 64 bits can count, and every turn is
a commit or skipped.  The summary gives the clocks and the size of the history after the run. -/
theorem accounts_of_reachable {m : Type → Type u} [Monad m] [LawfulMonad m]
    (h : Reachable graph engine initial settings s) (observer : Observer m) (n : UInt64) :
    s.observedRun observer n.toNat = (do
      (s.run n.toNat).commits.forM observer
      return s.run n.toNat) ∧
    s.drive observer n.toNat = (do
      (s.run n.toNat).commits.forM observer
      return ((s.run n.toNat).summary, (s.run n.toNat).simulation)) ∧
    ((s.run n.toNat).commits.map (·.turn)).Sublist (turns s.agents 0 n.toNat) ∧
    ((s.run n.toNat).commits.map fun c => toLex (c.iteration, s.agents.idxOf c.agent)).Pairwise
      (· < ·) ∧
    ∃ added, (s.run n.toNat).simulation.store.records = s.store.records ++ added ∧
      List.Forall₂ Commit.RecordedAs (s.run n.toNat).commits added ∧
      ((s.observedRun Observer.counting n.toNat).run 0).2 = saturated added.length ∧
      ∀ report, (s.run n.toNat).outcome = .ok report →
        report.iterations = n.toNat ∧ report.commits = saturated added.length ∧
        (n.toNat * s.agents.length ≤ 18446744073709551615 →
          report.commits = added.length ∧
          report.commits + report.skipped = n.toNat * s.agents.length) ∧
        (s.run n.toNat).summary = .ok ⟨engine, report, (s.run n.toNat).simulation.clocks.entries,
          (s.run n.toNat).simulation.store.records.length⟩ := by
  obtain ⟨made, hmade, hturns⟩ := (Run.start s).turns_iterateFrom 0 n.toNat
  obtain rfl : (s.run n.toNat).commits = made := hmade
  obtain ⟨added, hadded, hrecorded⟩ := s.exists_added n.toNat
  refine ⟨s.observedRun_eq observer n.toNat, ?_, hturns, ?_, added, hadded, hrecorded, ?_, ?_⟩
  · simp [drive, s.observedRun_eq observer n.toNat]
  · have hsub := hturns.map fun turn => toLex (turn.1, s.agents.idxOf turn.2)
    rw [List.map_map] at hsub
    exact (pairwise_turns h.timeline.nodup_agents 0 n.toNat).sublist hsub
  · have hcount := Observer.run_forM_counting (s.run n.toNat).commits 0
    rw [Nat.zero_add, hrecorded.length_eq] at hcount
    rw [s.observedRun_eq, StateT.run_bind]
    exact congrArg Prod.snd hcount
  · intro report hreport
    obtain ⟨rfl, htally⟩ := tally_of_outcome hreport
    obtain ⟨skips, htaken, hskipped⟩ := htally.skipped
    have hcommits := htally.commits
    rw [hrecorded.length_eq] at htaken hcommits
    refine ⟨htally.iterations.trans (saturated_toNat n), hcommits, fun hfits => ?_, ?_⟩
    · rw [hcommits, hskipped, saturated_of_le (by omega), saturated_of_le (by omega)]
      exact ⟨rfl, htaken⟩
    · rw [summary_of_outcome hreport, (Reachable.driven h n.toNat).fixed.2.1]
      rfl

end Simulation

/-- In two iterations the early agent commits twice and the late one once; its second turn is skipped. -/
theorem Simulation.belated_accounts :
    Reachable Belated.graph "watch" Belated.initial Belated.settings Belated.start ∧
    (Belated.start.run 2).outcome = .ok ⟨2, 3, 1⟩ ∧
    (Belated.start.run 2).commits.map (·.turn) = [(0, "early"), (0, "late"), (1, "early")] ∧
    ((Belated.start.observedRun Observer.counting 2).run 0).2 = 3 ∧
    ∃ added, (Belated.start.run 2).simulation.store.records =
        Belated.start.store.records ++ added ∧
      List.Forall₂ Commit.RecordedAs (Belated.start.run 2).commits added := by
  have hreach : Reachable Belated.graph "watch" Belated.initial Belated.settings Belated.start :=
    .created Belated.create_start
  obtain ⟨-, -, -, -, added, hadded, hrecorded, hcount, -⟩ :=
    accounts_of_reachable hreach Observer.counting 2
  have hcommits : (Belated.start.run 2).commits.map (·.turn) =
      [(0, "early"), (0, "late"), (1, "early")] := by decide +kernel
  have hlength : added.length = 3 := by
    rw [← hrecorded.length_eq]
    exact List.length_map (f := Commit.turn) ▸ congrArg List.length hcommits
  refine ⟨hreach, by decide +kernel, hcommits, ?_, added, hadded, hrecorded⟩
  rw [hlength] at hcount
  exact hcount

end Orrery
