import Orrery.Proofs.Barrier
import Orrery.Proofs.Failure

/-!
# Whose turn comes to something

An agent is skipped while the snapshot it reads lacks someone.  Which turns are skipped can be told from
the clocks and the seed alone: at a point, an agent is known exactly when the point lies between its
initial time and its clock, or in the seed (`Timeline.exists_get?_merge_iff`).  Two questions are
answered here.

* Can everyone wait for everyone else?  No: the agent with the smallest clock has nobody to wait for, as
  long as the point it reads is not before the seed and lies before its clock at all
  (`slowest_moves_on`).
* Who is skipped in the first iteration?  An agent whose first read does not fall into the seed, and no
  one else (`first_turns`).  A seed that is accepted need not reach that far back: it is enough that it
  begins before the latest initial time (`shallow_skips`).
-/

namespace Orrery

namespace Simulation

variable {graph : RuleGraph} {engine : String} {initial : States} {settings : Settings}
variable {s : Simulation} {agent other : String} {iteration : Nat}
variable {point last clock start : Float} {own : Value}

/-! ## Who is known at a point -/

/-- **An agent is known at a point exactly when the point lies between its initial time and its clock,
or in the seed.** -/
theorem Timeline.exists_get?_merge_iff (h : Timeline graph engine initial settings s)
    (hlast : LatestStart initial last) (hown : initial.get? agent = some own)
    (hstart : own.time? = some start) (hclock : s.clocks.get? agent = some clock) :
    (∃ state, (s.store.merge point).get? agent = some state) ↔
      (start ≤ point ∧ point < clock) ∨ (settings.seedLow ≤ point ∧ point < last) := by
  obtain ⟨own', start', clock', high, hown', hstart', hclock', hhigh, hrecalls⟩ :=
    h.recalls (h.clocked agent clock hclock) point
  obtain rfl : own = own' := Option.some.inj (hown.symm.trans hown')
  obtain rfl : start = start' := Option.some.inj (hstart.symm.trans hstart')
  obtain rfl : clock = clock' := Option.some.inj (hclock.symm.trans hclock')
  generalize (s.store.merge point).get? agent = found at hrecalls
  cases hrecalls with
  | recorded inside => exact ⟨fun _ => .inl inside, fun _ => ⟨_, rfl⟩⟩
  | seeded _ inside =>
    have hbelow := Binary64.lt_of_lt_of_le inside.2 (hhigh.le hlast)
    exact ⟨fun _ => .inr ⟨inside.1, hbelow⟩, fun _ => ⟨_, rfl⟩⟩
  | absent outside unseeded =>
    constructor
    · rintro ⟨state, hstate⟩
      cases hstate
    · rintro (hinside | ⟨hlow, hbelow⟩)
      · exact absurd hinside outside
      · exact absurd ⟨hlow, Binary64.lt_of_lt_of_le hbelow (hlast.le hhigh)⟩ unseeded

/-- A snapshot holds the agents exactly when it holds each of them. -/
theorem Timeline.keys_merge_eq_iff (h : Timeline graph engine initial settings s) :
    (s.store.merge point).keys = s.agents ↔
      ∀ agent ∈ s.agents, ∃ state, (s.store.merge point).get? agent = some state := by
  constructor
  · intro hkeys agent hagent
    rw [← hkeys] at hagent
    exact Table.mem_keys_iff.1 hagent
  · intro hall
    rw [← h.agents]
    refine Table.keys_eq_of_mem_iff fun name => ?_
    rw [h.agents, Table.mem_keys_iff]
    constructor
    · rintro ⟨state, hstate⟩
      exact h.mem_agents_of_get?_merge hstate
    · exact hall name

/-- A turn is skipped exactly when the snapshot lacks someone. -/
theorem cycle_eq_skipped_iff (hclock : s.clocks.get? agent = some clock) :
    s.cycle iteration agent = .skipped ↔ (s.snapshot clock).keys ≠ s.agents := by
  unfold cycle
  simp only [hclock]
  by_cases hkeys : (s.snapshot clock).keys ≠ s.agents
  · rw [if_pos hkeys]
    exact ⟨fun _ => hkeys, fun _ => rfl⟩
  · rw [if_neg hkeys]
    refine ⟨fun hskipped => ?_, fun h => absurd h hkeys⟩
    split at hskipped
    · cases hskipped
    split at hskipped
    · cases hskipped
    split at hskipped
    · cases hskipped
    · cases hskipped

/-! ## The others during a turn -/

/-- A turn of one agent leaves the clocks of the others alone. -/
theorem Timeline.get?_clocks_left (h : Timeline graph engine initial settings s) (iteration : Nat)
    (hne : other ≠ agent) :
    ((s.cycle iteration other).left s).clocks.get? agent = s.clocks.get? agent := by
  rcases (h.allOrNothing iteration other).left_eq_or_moves with heq | ⟨r, hmoves⟩
  · rw [heq]
  · rw [hmoves.get?_clocks, if_neg hne]

/-- No clock shows less than that of the agent. -/
structure Slowest (s : Simulation) (agent : String) (clock : Float) : Prop where
  /-- The agent's clock. -/
  shown : s.clocks.get? agent = some clock
  /-- It is the smallest. -/
  least : ∀ peer time, s.clocks.get? peer = some time → clock ≤ time

/-- **The slowest agent stays the slowest during the turns of others**, because clocks move forward. -/
theorem Slowest.cycle (hs : Slowest s agent clock) (h : Timeline graph engine initial settings s)
    (iteration : Nat) (hne : other ≠ agent) :
    Slowest ((s.cycle iteration other).left s) agent clock := by
  refine ⟨(h.get?_clocks_left iteration hne).trans hs.shown, fun peer time htime => ?_⟩
  rcases (h.allOrNothing iteration other).left_eq_or_moves with heq | ⟨r, hmoves⟩
  · rw [heq] at htime
    exact hs.least peer time htime
  · rw [hmoves.get?_clocks] at htime
    by_cases hpeer : other = peer
    · rw [if_pos hpeer, Option.some.injEq] at htime
      rw [← htime]
      exact Binary64.le_trans (hs.least other r.low hmoves.low) (Binary64.le_of_lt r.low_lt_high)
    · rw [if_neg hpeer] at htime
      exact hs.least peer time htime

/-- Among finite times there is a smallest one. -/
theorem exists_least {l : List (String × Float)} (hne : l ≠ [])
    (hfinite : ∀ e ∈ l, e.2.isFinite = true) : ∃ e ∈ l, ∀ e' ∈ l, e.2 ≤ e'.2 := by
  induction l with
  | nil => exact absurd rfl hne
  | cons first rest ih =>
    obtain ⟨hfirst, hrest⟩ := List.forall_mem_cons.1 hfinite
    by_cases hnil : rest = []
    · subst hnil
      exact ⟨first, List.mem_cons_self .., by simpa using Binary64.le_refl hfirst⟩
    · obtain ⟨e, he, hleast⟩ := ih hnil hrest
      have hself := Binary64.le_refl (hrest e he)
      rcases Binary64.lt_or_le (Binary64.le_refl hfirst) hself with hlt | hle
      · refine ⟨first, List.mem_cons_self .., List.forall_mem_cons.2 ⟨Binary64.le_refl hfirst, ?_⟩⟩
        intro e' he'
        exact Binary64.le_trans (Binary64.le_of_lt hlt) (hleast e' he')
      · exact ⟨e, List.mem_cons_of_mem _ he, List.forall_mem_cons.2 ⟨hle, hleast⟩⟩

/-- Some agent is the slowest. -/
theorem Timeline.exists_slowest (h : Timeline graph engine initial settings s) :
    ∃ agent clock, Slowest s agent clock := by
  obtain ⟨seed, -, -, ⟨⟨agent, state, hstate, -⟩, -⟩, -⟩ := h.exists_records
  have hagent : agent ∈ s.agents := by
    rw [← h.agents]
    exact Table.mem_keys_iff.2 ⟨state, hstate⟩
  obtain ⟨clock, hclock⟩ := h.exists_clock hagent
  have hne : s.clocks.entries ≠ [] := List.ne_nil_of_mem (Table.mem_entries_iff.2 hclock)
  obtain ⟨⟨slowest, time⟩, he, hleast⟩ := exists_least hne fun e he =>
    h.finite (Table.mem_entries_iff.1 he)
  exact ⟨slowest, time, Table.mem_entries_iff.1 he, fun peer shown hshown =>
    hleast (peer, shown) (Table.mem_entries_iff.2 hshown)⟩

/-- **The slowest agent waits for no one**: every peer has passed the point it reads, or has not
started there, and then the seed knows it. -/
theorem Timeline.cycle_ne_skipped (h : Timeline graph engine initial settings s)
    (hs : Slowest s agent clock) (hlow : settings.seedLow ≤ clock - s.readOffset)
    (hback : clock - s.readOffset < clock) (iteration : Nat) :
    s.cycle iteration agent ≠ .skipped := by
  rw [ne_eq, cycle_eq_skipped_iff hs.shown, not_not, snapshot, h.keys_merge_eq_iff]
  intro peer hpeer
  obtain ⟨seed, -, -, hlast, -⟩ := h.exists_records
  obtain ⟨start, shown, hline⟩ := h.lines peer hpeer
  obtain ⟨own, hown, hstart⟩ := hline.started
  rw [h.exists_get?_merge_iff hlast hown hstart hline.shown]
  have hpassed := Binary64.lt_of_lt_of_le hback (hs.least peer shown hline.shown)
  have hstarted : start ≤ seed.high := hlast.2 peer own start hown hstart
  rcases Binary64.lt_or_le (Binary64.le_self_of_le hlow).2 (Binary64.le_self_of_le hstarted).2 with
    hseeded | hafter
  · exact .inr ⟨hlow, hseeded⟩
  · exact .inl ⟨Binary64.le_trans hstarted hafter, hpassed⟩

end Simulation

/-! ## Iterations -/

namespace Run

variable {r : Run}

/-- Turns that nothing has stopped are the first one and the rest. -/
theorem cycles_cons_of_done {iteration : Nat} {agent : String} {rest : List String}
    (h : (r.cycles iteration (agent :: rest)).failure = none) :
    (r.record (r.simulation.cycle iteration agent)).failure = none ∧
    r.cycles iteration (agent :: rest) =
      (r.record (r.simulation.cycle iteration agent)).cycles iteration rest := by
  rw [cycles] at h ⊢
  split at h
  · next cause hfailure =>
    rw [hfailure] at h
    cases h
  · next hok => exact ⟨hok, rfl⟩

theorem commits_prefix_cycles (r : Run) (iteration : Nat) (agents : List String) :
    r.commits <+: (r.cycles iteration agents).commits :=
  cycles_preserves (P := fun _ commits => r.commits <+: commits)
    (fun _ _ _ _ h => h.trans (List.prefix_append ..)) List.prefix_rfl iteration agents

/-- An iteration is the turns of all agents, and one more on the count. -/
theorem iterate_eq_cycles (r : Run) (iteration : Nat) :
    (r.iterate iteration).failure = (r.cycles iteration r.simulation.agents).failure ∧
    (r.iterate iteration).commits = (r.cycles iteration r.simulation.agents).commits ∧
    (r.iterate iteration).report.skipped =
      (r.cycles iteration r.simulation.agents).report.skipped := by
  rw [iterate]
  dsimp only
  split
  · exact ⟨rfl, rfl, rfl⟩
  · exact ⟨rfl, rfl, rfl⟩

theorem iterateFrom_one (r : Run) (iteration : Nat) :
    r.iterateFrom iteration 1 = r.iterate iteration := by
  rw [iterateFrom]
  split
  · rfl
  · rfl

theorem outcome_cases (r : Run) :
    (∃ e, r.outcome = .error e) ∨ (r.failure = none ∧ r.outcome = .ok r.report) := by
  unfold outcome
  cases r.failure with
  | none => exact .inr ⟨rfl, rfl⟩
  | some e => exact .inl ⟨e, rfl⟩

end Run

namespace Simulation

variable {graph : RuleGraph} {engine : String} {initial : States} {settings : Settings}
variable {s : Simulation} {agent : String} {iteration : Nat} {last clock : Float} {r : Run}

/-- A turn that is not skipped and stops nothing has made a commit. -/
theorem Timeline.exists_commit (h : Timeline graph engine initial settings r.simulation)
    (hclock : r.simulation.clocks.get? agent = some clock)
    (hskipped : r.simulation.cycle iteration agent ≠ .skipped)
    (hok : (r.record (r.simulation.cycle iteration agent)).failure = none) :
    ∃ commit : Commit,
      (r.record (r.simulation.cycle iteration agent)).commits = r.commits ++ [commit] ∧
      commit.iteration = iteration ∧ commit.agent = agent ∧ commit.low = clock := by
  cases hcycle : r.simulation.cycle iteration agent with
  | skipped => exact absurd hcycle hskipped
  | failed after cause =>
    rw [hcycle, Run.record] at hok
    cases hok
  | committed after commit =>
    obtain ⟨hiteration, hcommitted⟩ :=
      committed_of_cycle (fun _ hshown => h.finite hshown) hcycle
    have hlow := hcommitted.clock
    rw [hclock, Option.some.injEq] at hlow
    exact ⟨commit, rfl, hiteration, hcommitted.own, hlow.symm⟩

/-- **In the turns of all agents the slowest one makes a commit**, unless something stops them. -/
theorem Slowest.commits_cycles {agents : List String}
    (hreach : Reachable graph engine initial settings r.simulation)
    (hs : Slowest r.simulation agent clock) (hlow : settings.seedLow ≤ clock - settings.readOffset)
    (hback : clock - settings.readOffset < clock) (hagent : agent ∈ agents)
    (hdone : (r.cycles iteration agents).failure = none) :
    ∃ (made : List Commit) (commit : Commit),
      (r.cycles iteration agents).commits = r.commits ++ made ∧ commit ∈ made ∧
      commit.iteration = iteration ∧ commit.agent = agent ∧ commit.low = clock := by
  -- until its turn comes, the agent stays the slowest; after it, commits are only added
  induction agents generalizing r with
  | nil => simp at hagent
  | cons first rest ih =>
    obtain ⟨hok, hcycles⟩ := Run.cycles_cons_of_done hdone
    rw [hcycles] at hdone ⊢
    by_cases heq : first = agent
    · subst heq
      have hoffset := hreach.fixed.2.2
      rw [← hoffset] at hlow hback
      have hturn := hreach.timeline.cycle_ne_skipped hs hlow hback iteration
      obtain ⟨commit, hcommits, hcommit⟩ := hreach.timeline.exists_commit hs.shown hturn hok
      obtain ⟨more, hmore⟩ := Run.commits_prefix_cycles
        (r.record (r.simulation.cycle iteration first)) iteration rest
      refine ⟨commit :: more, commit, ?_, List.mem_cons_self .., hcommit⟩
      rw [← hmore, hcommits, List.append_assoc, List.singleton_append]
    · have hs' : Slowest (r.record (r.simulation.cycle iteration first)).simulation agent clock := by
        rw [Run.simulation_record]
        exact hs.cycle hreach.timeline iteration heq
      have hrest := (List.mem_cons.1 hagent).resolve_left fun h => heq h.symm
      obtain ⟨made, commit, hcommits, hmem, hcommit⟩ :=
        ih (hreach.record iteration first) hs' hrest hdone
      refine ⟨(r.simulation.cycle iteration first).made ++ made, commit, ?_,
        List.mem_append_right _ hmem, hcommit⟩
      rw [hcommits, Run.commits_record, List.append_assoc]

/-- **Not everyone waits.**  At every moment of every simulation some agent is the slowest.  If the
point that such an agent reads is not before the seed and lies before its clock, then an iteration that
starts here fails, or the agent commits an interval that begins at its clock. -/
theorem slowest_moves_on (h : Reachable graph engine initial settings s) :
    (∃ agent clock, Slowest s agent clock) ∧
    ∀ agent clock, Slowest s agent clock → settings.seedLow ≤ clock - settings.readOffset →
      clock - settings.readOffset < clock →
      ∀ (r : Run) (iteration : Nat), r.simulation = s →
        (∃ e, (r.iterate iteration).outcome = .error e) ∨
        ∃ (report : Report) (made : List Commit) (commit : Commit),
          (r.iterate iteration).outcome = .ok report ∧
          (r.iterate iteration).commits = r.commits ++ made ∧ commit ∈ made ∧
          commit.iteration = iteration ∧ commit.agent = agent ∧ commit.low = clock := by
  refine ⟨h.timeline.exists_slowest, ?_⟩
  rintro agent clock hs hlow hback r iteration rfl
  obtain ⟨hfailure, hcommits, -⟩ := r.iterate_eq_cycles iteration
  rcases (r.iterate iteration).outcome_cases with herror | ⟨hnone, hreport⟩
  · exact .inl herror
  · rw [hfailure] at hnone
    obtain ⟨made, commit, hmade, hcommit⟩ := hs.commits_cycles h hlow hback
      (h.timeline.clocked agent clock hs.shown) hnone
    exact .inr ⟨_, made, commit, hreport, hcommits.trans hmade, hcommit⟩

/-- After one iteration the early agent is far behind, and goes on. -/
theorem belated_moves_on :
    Reachable Belated.graph "watch" Belated.initial Belated.settings
      (Belated.start.run 1).simulation ∧
    Slowest (Belated.start.run 1).simulation "early" 1.0 ∧
    ((∃ e, ((Belated.start.run 1).iterate 1).outcome = .error e) ∨
      ∃ (report : Report) (made : List Commit) (commit : Commit),
        ((Belated.start.run 1).iterate 1).outcome = .ok report ∧
        ((Belated.start.run 1).iterate 1).commits = (Belated.start.run 1).commits ++ made ∧
        commit ∈ made ∧ commit.iteration = 1 ∧ commit.agent = "early" ∧ commit.low = 1.0) := by
  have hreach : Reachable Belated.graph "watch" Belated.initial Belated.settings
      (Belated.start.run 1).simulation := .driven (.created Belated.create_start) 1
  have hleast : ∀ e ∈ (Belated.start.run 1).simulation.clocks.entries, (1.0 : Float) ≤ e.2 := by
    decide +kernel
  have hslowest : Slowest (Belated.start.run 1).simulation "early" 1.0 :=
    ⟨by decide +kernel, fun peer time htime => hleast (peer, time) (Table.mem_entries_iff.2 htime)⟩
  refine ⟨hreach, hslowest, ?_⟩
  exact (slowest_moves_on hreach).2 "early" 1.0 hslowest (by decide +kernel) (by decide +kernel)
    (Belated.start.run 1) 1 rfl

/-! ## The first iteration -/

/-- Whether the first read of an agent falls into a seed that ends at the latest initial time. -/
def servedBySeed (initial : States) (settings : Settings) (last : Float) (agent : String) : Bool :=
  ((initial.get? agent).bind Value.time?).any fun start =>
    decide (settings.seedLow ≤ start - settings.readOffset ∧ start - settings.readOffset < last)

/-- The clock of an agent shows its initial time. -/
def AtStart (initial : States) (s : Simulation) (agent : String) : Prop :=
  ∃ own start, initial.get? agent = some own ∧ own.time? = some start ∧
    s.clocks.get? agent = some start

/-- **An agent that has not moved is skipped exactly when the seed does not serve its read.**  Its own
records are of no help, because it has none, and the seed that serves it knows everyone. -/
theorem Reachable.cycle_eq_skipped_iff_of_atStart (h : Reachable graph engine initial settings s)
    (hlast : LatestStart initial last) (hagent : AtStart initial s agent) (iteration : Nat) :
    s.cycle iteration agent = .skipped ↔ servedBySeed initial settings last agent = false := by
  obtain ⟨own, start, hown, hstart, hclock⟩ := hagent
  have hserved : servedBySeed initial settings last agent = true ↔
      settings.seedLow ≤ start - settings.readOffset ∧ start - settings.readOffset < last := by
    simp [servedBySeed, hown, hstart]
  rw [← Bool.not_eq_true, hserved, cycle_eq_skipped_iff hclock, snapshot, h.fixed.2.2, ne_eq,
    h.timeline.keys_merge_eq_iff, not_iff_not]
  constructor
  · intro hall
    have hknown := hall agent (h.timeline.clocked agent start hclock)
    rw [h.timeline.exists_get?_merge_iff hlast hown hstart hclock] at hknown
    exact hknown.resolve_left fun hinside => Binary64.not_le_of_lt hinside.2 hinside.1
  · intro hseeded peer hpeer
    obtain ⟨began, shown, hline⟩ := h.timeline.lines peer hpeer
    obtain ⟨state, hstate, hbegan⟩ := hline.started
    rw [h.timeline.exists_get?_merge_iff hlast hstate hbegan hline.shown]
    exact .inr hseeded

/-- The largest count. -/
def mostCounted : Nat := 18446744073709551615

/-- The first turn of an agent: a commit if the seed serves it, and else one more on the count. -/
theorem first_turn (hlast : LatestStart initial last)
    (hreach : Reachable graph engine initial settings r.simulation)
    (hagent : AtStart initial r.simulation agent) (hcount : r.report.skipped ≤ mostCounted)
    (hok : (r.record (r.simulation.cycle iteration agent)).failure = none) :
    (r.record (r.simulation.cycle iteration agent)).commits.map (·.agent) =
      r.commits.map (·.agent) ++ [agent].filter (servedBySeed initial settings last) ∧
    (r.record (r.simulation.cycle iteration agent)).report.skipped =
      min (r.report.skipped + [agent].countP fun agent => !servedBySeed initial settings last agent)
        mostCounted := by
  have hskipped := hreach.cycle_eq_skipped_iff_of_atStart hlast hagent iteration
  cases hcycle : r.simulation.cycle iteration agent with
  | skipped =>
    have hserved := hskipped.1 hcycle
    rw [List.filter_singleton, hserved, List.countP_singleton, hserved]
    exact ⟨(List.append_nil _).symm, rfl⟩
  | failed after cause =>
    rw [hcycle, Run.record] at hok
    cases hok
  | committed after commit =>
    have hserved : servedBySeed initial settings last agent = true := by
      rw [← Bool.not_eq_false, ← hskipped, hcycle]
      simp
    rw [List.filter_singleton, hserved, List.countP_singleton, hserved]
    refine ⟨?_, (Nat.min_eq_left hcount).symm⟩
    rw [Run.record, List.map_append, List.map_singleton,
      (hreach.timeline.committed hcycle).own]
    rfl

/-- **In turns of agents that have not moved, those served by the seed commit and the others are
skipped**, unless something stops them. -/
theorem first_cycles {agents : List String} (hlast : LatestStart initial last)
    (hreach : Reachable graph engine initial settings r.simulation) (hnodup : agents.Nodup)
    (hstart : ∀ agent ∈ agents, AtStart initial r.simulation agent)
    (hcount : r.report.skipped ≤ mostCounted) (hdone : (r.cycles iteration agents).failure = none) :
    (r.cycles iteration agents).commits.map (·.agent) =
      r.commits.map (·.agent) ++ agents.filter (servedBySeed initial settings last) ∧
    (r.cycles iteration agents).report.skipped =
      min (r.report.skipped + agents.countP fun agent => !servedBySeed initial settings last agent)
        mostCounted := by
  induction agents generalizing r with
  | nil =>
    refine ⟨(List.append_nil _).symm, ?_⟩
    rw [List.countP_nil, Nat.add_zero, Nat.min_eq_left hcount]
    rfl
  | cons first rest ih =>
    obtain ⟨hfirst, hrest⟩ := List.forall_mem_cons.1 hstart
    obtain ⟨hnew, hnodup'⟩ := List.nodup_cons.1 hnodup
    obtain ⟨hok, hcycles⟩ := Run.cycles_cons_of_done hdone
    rw [hcycles] at hdone ⊢
    obtain ⟨hcommits, hskipped⟩ := first_turn hlast hreach hfirst hcount hok
    -- the others have not moved meanwhile
    have hstart' : ∀ agent ∈ rest,
        AtStart initial (r.record (r.simulation.cycle iteration first)).simulation agent := by
      intro agent hagent
      obtain ⟨own, start, hown, hbegan, hclock⟩ := hrest agent hagent
      have hne : first ≠ agent := fun heq => hnew (heq ▸ hagent)
      refine ⟨own, start, hown, hbegan, ?_⟩
      rw [Run.simulation_record, hreach.timeline.get?_clocks_left iteration hne]
      exact hclock
    obtain ⟨hcommits', hskipped'⟩ := ih (hreach.record iteration first) hnodup' hstart'
      (by rw [hskipped]; exact Nat.min_le_right ..) hdone
    have hcons : first :: rest = [first] ++ rest := rfl
    refine ⟨?_, ?_⟩
    · rw [hcommits', hcommits, List.append_assoc, ← List.filter_append, hcons]
    · rw [hskipped', hskipped, hcons, List.countP_append]
      omega

/-- The clocks of a new simulation show the initial times. -/
theorem Seeded.atStart {seed : Record States} (h : Seeded graph engine initial settings s seed) :
    ∀ agent ∈ s.agents, AtStart initial s agent := by
  intro agent hagent
  rw [← h.agents] at hagent
  obtain ⟨own, hown⟩ := Table.mem_keys_iff.1 hagent
  obtain ⟨start, hclock, hstart⟩ := h.clocks.exists_get? hown
  exact ⟨own, start, hown, (startOf?_eq_some hstart).1, hclock⟩

/-- **Who is skipped in the first iteration.**  A new simulation that is driven for one iteration fails,
or the agents whose first read falls into the seed commit, in their order, and the others are skipped.
So nobody is skipped exactly when the seed serves every first read. -/
theorem first_turns (h : create graph engine initial settings = .ok s) :
    ∃ last, LatestStart initial last ∧
      ((∃ e, (s.run 1).outcome = .error e) ∨
       ∃ report, (s.run 1).outcome = .ok report ∧
        (s.run 1).commits.map (·.agent) = s.agents.filter (servedBySeed initial settings last) ∧
        report.skipped =
          min (s.agents.countP fun agent => !servedBySeed initial settings last agent) mostCounted ∧
        (report.skipped = 0 ↔ ∀ agent ∈ s.agents, servedBySeed initial settings last agent = true)) := by
  obtain ⟨seed, hseeded⟩ := seeded_of_create h
  have hlast := hseeded.latestStart
  have hnodup : s.agents.Nodup := by
    rw [← hseeded.agents]
    exact initial.nodup_keys
  have hrun : s.run 1 = (Run.start s).iterate 0 := Run.iterateFrom_one _ 0
  obtain ⟨hfailure, hcommits, hskipped⟩ := (Run.start s).iterate_eq_cycles 0
  rw [← hrun] at hfailure hcommits hskipped
  refine ⟨seed.high, hlast, ?_⟩
  rcases (s.run 1).outcome_cases with herror | ⟨hnone, hreport⟩
  · exact .inl herror
  · rw [hfailure] at hnone
    obtain ⟨hfirst, hcounted⟩ := first_cycles (r := Run.start s) hlast (.created h) hnodup
      hseeded.atStart (Nat.zero_le _) hnone
    have hcount : (s.run 1).report.skipped = min (s.agents.countP fun agent =>
        !servedBySeed initial settings seed.high agent) mostCounted := by
      rw [hskipped]
      exact hcounted.trans (by rw [Run.start, Nat.zero_add])
    refine .inr ⟨_, hreport, by rw [hcommits]; exact hfirst, hcount, ?_⟩
    have hsome : mostCounted ≠ 0 := by decide
    rw [hcount, Nat.min_eq_zero_iff, or_iff_left hsome, List.countP_eq_zero]
    simp

end Simulation

/-- The seed reaches far enough back for both agents, and neither is skipped. -/
theorem Simulation.belated_first_turns :
    create Belated.graph "watch" Belated.initial Belated.settings = .ok Belated.start ∧
    (Belated.start.run 1).outcome = .ok ⟨1, 2, 0⟩ ∧
    ∃ last, LatestStart Belated.initial last ∧
      (Belated.start.run 1).commits.map (·.agent) =
        Belated.start.agents.filter (servedBySeed Belated.initial Belated.settings last) ∧
      ∀ agent ∈ Belated.start.agents,
        servedBySeed Belated.initial Belated.settings last agent = true := by
  have houtcome : (Belated.start.run 1).outcome = .ok ⟨1, 2, 0⟩ := by decide +kernel
  obtain ⟨last, hlast, ⟨e, herror⟩ | ⟨report, hreport, hcommits, -, hserved⟩⟩ :=
    first_turns Belated.create_start
  · rw [houtcome] at herror
    cases herror
  · rw [houtcome] at hreport
    obtain rfl := Except.ok.inj hreport
    exact ⟨Belated.create_start, houtcome, last, hlast, hcommits, hserved.1 rfl⟩

/-! ## A shallow seed

The hand starts at zero and reads half a unit before that, but the seed begins only a quarter of a unit
before it. -/

namespace Clockwork

/-- A seed that is half as deep as the reads. -/
def shallow : Settings := ⟨"shallow", 1, 0.5, -0.25⟩

/-- The new simulation. -/
def shallowStart : Simulation :=
  ⟨graph, "wall", ["hand"], ⟨[⟨-0.25, 0.0, initial, by decide⟩]⟩, Table.single "hand" 0.0, 0.5⟩

theorem create_shallowStart : Simulation.create graph "wall" initial shallow = .ok shallowStart := rfl

end Clockwork

/-- **A simulation that is accepted may skip an agent in its first iteration**: the settings are valid,
the seed is not empty, and the hand does not move. -/
theorem Simulation.shallow_skips :
    RuleGraph.ofRules Clockwork.graph.engines = .ok Clockwork.graph ∧
    ({ Config.standard with settings := Clockwork.shallow } : Config).validate = .ok () ∧
    create Clockwork.graph "wall" Clockwork.initial Clockwork.shallow = .ok Clockwork.shallowStart ∧
    (Clockwork.shallowStart.run 1).outcome = .ok ⟨1, 0, 1⟩ :=
  ⟨rfl, rfl, Clockwork.create_shallowStart, by decide +kernel⟩

end Orrery
