import Orrery.Physics
import Orrery.Proofs.FloatOrder
import Orrery.Proofs.Table
import Orrery.Simulation

/-!
# The timeline of a simulation

A cycle moves a clock and then adds a record to the store, and the store may refuse.  If it did, the
clock would be ahead of the history, and every later run would start from there.  This file shows that
it never does, and what follows for the whole history.

* `cycle_allOrNothing`: a cycle does nothing, or moves its agent's clock *and* adds the record that goes
  with it.  The clock lets a time pass that is finite and not at most its own; the store wants the clock
  below that time.  For finite times these are the same, and clocks are always finite.
* `Timeline`: the first record is the seed, every later record is about one agent and ends at the time
  that the agent's state carries, and the records of one agent follow each other without a gap from its
  initial time up to its clock.
* `timeline_of_reachable`: the timeline holds whenever a simulation can be looked at, in the middle of a
  run or after it, and no matter how many runs have failed before.
-/

namespace Orrery

universe u

namespace Record

variable {α : Type u}

/-- Records that follow each other without a gap, from one time to another. -/
def Chained : Float → List (Record α) → Float → Prop
  | start, [], finish => start = finish
  | start, r :: rest, finish => r.low = start ∧ r.low < r.high ∧ Chained r.high rest finish

theorem Chained.concat {start finish : Float} {records : List (Record α)}
    (h : Chained start records finish) {r : Record α} (hr : r.low = finish) :
    Chained start (records ++ [r]) r.high := by
  induction records generalizing start with
  | nil =>
    have hstart : start = finish := h
    exact ⟨hr.trans hstart.symm, r.low_lt_high, rfl⟩
  | cons first rest ih =>
    obtain ⟨hlow, hlt, hrest⟩ := h
    exact ⟨hlow, hlt, ih hrest⟩

/-- A chain leads forward: nothing in it begins before its start. -/
theorem Chained.start_le_low {start finish : Float} {records : List (Record α)}
    (h : Chained start records finish) (hstart : start ≤ start) :
    ∀ r ∈ records, start ≤ r.low := by
  induction records generalizing start with
  | nil => simp
  | cons first rest ih =>
    obtain ⟨rfl, hlt, hrest⟩ := h
    intro r hr
    rcases List.mem_cons.1 hr with rfl | hr
    · exact hstart
    · have hle := Binary64.le_of_lt hlt
      exact Binary64.le_trans hle (ih hrest (Binary64.le_self_of_lt hlt) r hr)

/-- A chain leads forward: its end is not before its start. -/
theorem Chained.start_le_finish {start finish : Float} {records : List (Record α)}
    (h : Chained start records finish) (hstart : start ≤ start) : start ≤ finish := by
  induction records generalizing start with
  | nil =>
    obtain rfl : start = finish := h
    exact hstart
  | cons first rest ih =>
    obtain ⟨rfl, hlt, hrest⟩ := h
    exact Binary64.le_trans (Binary64.le_of_lt hlt) (ih hrest (Binary64.le_self_of_lt hlt))

/-- Nothing in a chain ends after its end. -/
theorem Chained.high_le_finish {start finish : Float} {records : List (Record α)}
    (h : Chained start records finish) : ∀ r ∈ records, r.high ≤ finish := by
  induction records generalizing start with
  | nil => simp
  | cons first rest ih =>
    obtain ⟨-, hlt, hrest⟩ := h
    intro r hr
    rcases List.mem_cons.1 hr with rfl | hr
    · exact hrest.start_le_finish (Binary64.le_self_of_lt hlt)
    · exact ih hrest r hr

/-- Records in a chain do not overlap: each ends before the later ones begin. -/
theorem Chained.pairwise {start finish : Float} {records : List (Record α)}
    (h : Chained start records finish) : records.Pairwise fun r later => r.high ≤ later.low := by
  induction records generalizing start with
  | nil => exact .nil
  | cons first rest ih =>
    obtain ⟨-, hlt, hrest⟩ := h
    exact List.pairwise_cons.2
      ⟨hrest.start_le_low (Binary64.le_self_of_lt hlt), ih hrest⟩

end Record

/-- The simulation that a cycle leaves behind. -/
def Cycle.left (s : Simulation) : Cycle → Simulation
  | .skipped => s
  | .committed after _ => after
  | .failed after _ => after

/-- The commit that a cycle makes, if it makes one. -/
def Cycle.made : Cycle → List Commit
  | .committed _ commit => [commit]
  | .skipped | .failed .. => []

namespace Simulation

/-! ## The start -/

theorem startOf?_eq_some {state : Value} {time : Float} (h : startOf? state = some time) :
    state.time? = some time ∧ time.isFinite = true := by
  unfold startOf? at h
  split at h
  · next t step ht _ =>
    by_cases hfinite : (t.isFinite && step.isFinite) = true
    · rw [if_pos hfinite, Option.some.injEq] at h
      rw [← h]
      exact ⟨ht, (Bool.and_eq_true_iff.1 hfinite).1⟩
    · rw [if_neg hfinite] at h
      exact absurd h (by simp)
  · exact absurd h (by simp)

/-- The clocks at the start are set agent by agent. -/
theorem forall₂_of_initialClocks {l : Entries Value} {clocks : List (String × Float)}
    (h : initialClocks l = .ok clocks) :
    List.Forall₂ (fun e c => e.1 = c.1 ∧ startOf? e.2 = some c.2) l clocks := by
  induction l generalizing clocks with
  | nil =>
    rw [initialClocks, Except.ok.injEq] at h
    rw [← h]
    exact .nil
  | cons e rest ih =>
    obtain ⟨agent, state⟩ := e
    rw [initialClocks] at h
    cases hstart : startOf? state with
    | none =>
      rw [hstart] at h
      exact absurd h (by simp)
    | some time =>
      rw [hstart] at h
      cases hrest : initialClocks rest with
      | error fault =>
        rw [hrest] at h
        exact absurd h (by simp [Except.map])
      | ok others =>
        rw [hrest] at h
        obtain rfl : (agent, time) :: others = clocks := by simpa [Except.map] using h
        exact .cons ⟨rfl, hstart⟩ (ih hrest)

/-- The later of two times, the first if neither is. -/
def later (a b : Float) : Float := if a < b then b else a

theorem latest_eq_foldl (times : List Float) : latest times = times.foldl later (-1.0 / 0.0) := rfl

/-- The latest of finite times, found by comparing one after the other. -/
theorem foldl_later (times : List Float) (first : Float) (hfirst : first.isFinite = true)
    (htimes : ∀ t ∈ times, t.isFinite = true) :
    times.foldl later first ∈ first :: times ∧
    ∀ t ∈ first :: times, t ≤ times.foldl later first := by
  induction times generalizing first with
  | nil => exact ⟨List.mem_cons_self .., by simpa using Binary64.le_refl hfirst⟩
  | cons second rest ih =>
    have hsecond := htimes second (List.mem_cons_self ..)
    have hrest : ∀ t ∈ rest, t.isFinite = true := fun t ht => htimes t (List.mem_cons_of_mem _ ht)
    rw [List.foldl_cons, later]
    by_cases hlt : first < second
    · rw [if_pos hlt]
      obtain ⟨hmem, hall⟩ := ih second hsecond hrest
      refine ⟨List.mem_cons_of_mem _ hmem, List.forall_mem_cons.2 ⟨?_, hall⟩⟩
      exact Binary64.le_trans (Binary64.le_of_lt hlt) (hall second (List.mem_cons_self ..))
    · rw [if_neg hlt]
      obtain ⟨hmem, hall⟩ := ih first hfirst hrest
      obtain ⟨hhead, htail⟩ := List.forall_mem_cons.1 hall
      refine ⟨?_, List.forall_mem_cons.2 ⟨hhead, List.forall_mem_cons.2 ⟨?_, htail⟩⟩⟩
      · rcases List.mem_cons.1 hmem with heq | hmem
        · rw [heq]
          exact List.mem_cons_self ..
        · exact List.mem_cons_of_mem _ (List.mem_cons_of_mem _ hmem)
      · exact Binary64.le_trans (Binary64.le_of_not_lt hfirst hsecond hlt) hhead

/-- **The latest of finite times is one of them, and none is later.** -/
theorem latest_spec {times : List Float} (hne : times ≠ [])
    (htimes : ∀ t ∈ times, t.isFinite = true) :
    latest times ∈ times ∧ ∀ t ∈ times, t ≤ latest times := by
  cases times with
  | nil => exact absurd rfl hne
  | cons first rest =>
    obtain ⟨hfirst, hrest⟩ := List.forall_mem_cons.1 htimes
    -- the comparison with the lower infinity picks the first time
    rw [latest_eq_foldl, List.foldl_cons, later, if_pos (Binary64.negInfinity_lt hfirst)]
    exact foldl_later rest first hfirst hrest

/-- What a new simulation is made of. -/
structure Seeded (graph : RuleGraph) (engine : String) (initial : States) (settings : Settings)
    (s : Simulation) (seed : Record States) : Prop where
  /-- The agents are those with rules. -/
  declared : ∃ rules, graph.agents engine = .ok rules ∧ rules.keys = s.agents
  /-- They are also those with an initial state. -/
  agents : initial.keys = s.agents
  /-- There is an agent. -/
  nonempty : s.agents ≠ []
  /-- The history is the seed. -/
  records : s.store.records = [seed]
  /-- The seed begins where it is told to. -/
  low : seed.low = settings.seedLow
  /-- It ends at the latest clock. -/
  high : seed.high = latest s.clocks.values
  /-- It holds the whole initial state. -/
  value : seed.value = initial
  /-- The clocks show the initial times. -/
  clocks : Table.Rel (fun state time => startOf? state = some time) initial s.clocks

/-- Clocks that are set agent by agent, as a table. -/
theorem rel_ofList_of_initialClocks {initial : States} {clocks : List (String × Float)}
    (h : initialClocks initial.entries = .ok clocks) :
    (Table.ofList clocks).entries = clocks ∧
    Table.Rel (fun state time => startOf? state = some time) initial (Table.ofList clocks) := by
  have hall := forall₂_of_initialClocks h
  have hnames : initial.entries.map (·.1) = clocks.map (·.1) := by
    rw [← List.forall₂_eq_eq_eq, List.forall₂_map_left_iff, List.forall₂_map_right_iff]
    exact hall.imp fun _ _ hab => hab.1
  have hsorted : Entries.Sorted clocks := by
    have hs := List.pairwise_map.2 initial.sorted
    rw [hnames, List.pairwise_map] at hs
    exact hs
  have htable : Table.ofList clocks = ⟨clocks, hsorted⟩ :=
    Table.ext_get? fun name => Table.get?_ofList hsorted name
  rw [htable]
  exact ⟨rfl, hall⟩

theorem seeded_of_create {graph : RuleGraph} {engine : String} {initial : States}
    {settings : Settings} {s : Simulation} (h : create graph engine initial settings = .ok s) :
    ∃ seed, Seeded graph engine initial settings s seed := by
  unfold create at h
  cases hrules : graph.agents engine with
  | error e =>
    rw [hrules] at h
    exact absurd h (by simp [Except.mapError, bind, Except.bind])
  | ok rules =>
    simp only [hrules, Except.mapError, bind, Except.bind, throw, throwThe, MonadExceptOf.throw,
      pure, Except.pure] at h
    by_cases hempty : rules.keys.isEmpty = true
    · rw [if_pos hempty] at h
      exact absurd h (by simp)
    rw [if_neg hempty] at h
    by_cases hnames : initial.keys = rules.keys
    · rw [if_neg (not_not.2 hnames)] at h
      cases hclocks : initialClocks initial.entries with
      | error fault =>
        rw [hclocks] at h
        exact absurd h (by simp)
      | ok clocks =>
        simp only [hclocks] at h
        obtain ⟨hentries, hrel⟩ := rel_ofList_of_initialClocks hclocks
        by_cases hlt : settings.seedLow < latest (clocks.map (·.2))
        · rw [Store.insert_of_lt _ _ hlt] at h
          obtain rfl := Except.ok.inj h
          refine ⟨⟨_, _, initial, hlt⟩, ⟨rules, hrules, rfl⟩, hnames, ?_, rfl, rfl, ?_, rfl, hrel⟩
          · exact fun hnil => hempty (List.isEmpty_iff.2 hnil)
          · rw [Table.values, hentries]
        · rw [Store.insert_of_not_lt _ _ hlt] at h
          exact absurd h (by simp)
    · rw [if_pos hnames] at h
      exact absurd h (by simp)

/-! ## One cycle -/

/-- An agent moves on: its clock goes to the end of a record, which begins where the clock was, holds
the agent's new state and ends at the time of that state, and the record joins the history. -/
structure Moves (s : Simulation) (agent : String) (r : Record States) (after : Simulation) : Prop where
  /-- The record begins at the clock. -/
  low : s.clocks.get? agent = some r.low
  /-- It holds the state of the agent, and ends at the time of that state. -/
  state : ∃ state, r.value = Table.single agent state ∧ state.time? = some r.high
  /-- That time is finite. -/
  finite : r.high.isFinite = true
  /-- The clock and the store change together, and nothing else does. -/
  after : after = { s with store := s.store.append r, clocks := s.clocks.insert agent r.high }

/-- A cycle moves its agent on, or leaves everything as it was. -/
inductive AllOrNothing (s : Simulation) (agent : String) : Cycle → Prop
  | skipped : AllOrNothing s agent .skipped
  | failed (cause : SimulationError) : AllOrNothing s agent (.failed s cause)
  | committed {r : Record States} {after : Simulation} (commit : Commit)
      (low : commit.low = r.low) (high : commit.high = r.high) (moves : Moves s agent r after) :
      AllOrNothing s agent (.committed after commit)

theorem AllOrNothing.left_eq_or_moves {s : Simulation} {agent : String} {c : Cycle}
    (h : AllOrNothing s agent c) : c.left s = s ∨ ∃ r, Moves s agent r (c.left s) := by
  cases h with
  | skipped => exact .inl rfl
  | failed cause => exact .inl rfl
  | committed commit low high moves => exact .inr ⟨_, moves⟩

/-- A clock that moves was below the time it moves to, if it is finite. -/
theorem clock_lt_of_advance {clocks after : Clocks} {agent : String} {time clock old : Float}
    (hclock : clocks.get? agent = some clock) (hfinite : clock.isFinite = true)
    (h : clocks.advance agent time = .ok (old, after)) :
    clock < time ∧ time.isFinite = true ∧ after = clocks.insert agent time := by
  unfold Clocks.advance at h
  simp only [hclock] at h
  by_cases htime : time.isFinite = true
  · rw [if_pos htime] at h
    by_cases hle : time ≤ clock
    · rw [if_pos hle] at h
      exact absurd h (by simp)
    · rw [if_neg hle, Except.ok.injEq, Prod.mk.injEq] at h
      exact ⟨Binary64.lt_of_not_le hfinite htime hle, htime, h.2.symm⟩
  · rw [if_neg htime] at h
    exact absurd h (by simp)

/-- The state that an agent is given carries its time. -/
theorem time?_of_advanced {s : Simulation} {agent : String} {snapshot : States} {state : Value}
    {time : Float} (h : s.advanced agent snapshot = .ok (state, time)) :
    state.time? = some time := by
  unfold advanced at h
  cases hstep : s.graph.step s.engine (Table.single s.engine snapshot) with
  | error e =>
    rw [hstep] at h
    exact absurd h (by simp)
  | ok states =>
    simp only [hstep] at h
    cases hget : states.get? agent with
    | none =>
      rw [hget] at h
      exact absurd h (by simp)
    | some own =>
      simp only [hget] at h
      cases htime : own.time? with
      | none =>
        rw [htime] at h
        exact absurd h (by simp)
      | some t =>
        rw [htime, Except.ok.injEq, Prod.mk.injEq] at h
        rw [← h.1, htime, h.2]

/-- **A cycle of an agent whose clock is finite moves it on, or leaves everything as it was.** -/
theorem cycle_allOrNothing {s : Simulation} {agent : String}
    (hfinite : ∀ clock, s.clocks.get? agent = some clock → clock.isFinite = true)
    (iteration : Nat) : AllOrNothing s agent (s.cycle iteration agent) := by
  unfold cycle
  cases hclock : s.clocks.get? agent with
  | none => exact .failed _
  | some clock =>
    dsimp only
    by_cases hknown : (s.snapshot clock).keys ≠ s.agents
    · rw [if_pos hknown]
      exact .skipped
    rw [if_neg hknown]
    cases hadvanced : s.advanced agent (s.snapshot clock) with
    | error e => exact .failed e
    | ok result =>
      obtain ⟨state, time⟩ := result
      dsimp only
      cases hadvance : s.clocks.advance agent time with
      | error e => exact .failed (.clock e)
      | ok result =>
        obtain ⟨old, clocks⟩ := result
        -- the clock has let the time pass, so the store takes the interval
        obtain ⟨hlt, htime, rfl⟩ := clock_lt_of_advance hclock (hfinite clock hclock) hadvance
        dsimp only
        rw [Store.insert_of_lt _ _ hlt]
        have hmoves : Moves s agent ⟨clock, time, Table.single agent state, hlt⟩ _ :=
          ⟨hclock, ⟨state, rfl, time?_of_advanced hadvanced⟩, htime, rfl⟩
        exact .committed _ rfl rfl hmoves

/-- Whatever becomes of a cycle, it changes the history and the clocks at most. -/
theorem exists_left_eq (s : Simulation) (iteration : Nat) (agent : String) :
    ∃ store clocks, (s.cycle iteration agent).left s = { s with store := store, clocks := clocks } := by
  unfold cycle
  split
  · exact ⟨_, _, rfl⟩
  dsimp only
  split
  · exact ⟨_, _, rfl⟩
  split
  · exact ⟨_, _, rfl⟩
  split
  · exact ⟨_, _, rfl⟩
  split
  · exact ⟨_, _, rfl⟩
  · exact ⟨_, _, rfl⟩

/-! ## The invariant -/

/-- What the history says about an agent, the seed apart. -/
def ownRecords (s : Simulation) (agent : String) : List (Record States) :=
  s.store.records.tail.filter fun r => r.value.contains agent

/-- The latest time that an initial state carries. -/
def LatestStart (initial : States) (time : Float) : Prop :=
  (∃ agent state, initial.get? agent = some state ∧ state.time? = some time) ∧
  ∀ agent state start, initial.get? agent = some state → state.time? = some start → start ≤ time

/-- An agent has got from its initial time to its clock, and its records tell how. -/
structure Line (initial : States) (s : Simulation) (agent : String) (start clock : Float) : Prop where
  /-- It started at its initial time. -/
  started : ∃ state, initial.get? agent = some state ∧ state.time? = some start
  /-- It has got to its clock. -/
  shown : s.clocks.get? agent = some clock
  /-- Clocks are finite. -/
  finite : clock.isFinite = true
  /-- There is no gap on the way. -/
  chained : Record.Chained start (s.ownRecords agent) clock

/-- **The timeline**: what holds of a simulation whenever it can be looked at. -/
structure Timeline (graph : RuleGraph) (engine : String) (initial : States) (settings : Settings)
    (s : Simulation) : Prop where
  /-- The agents are those with rules. -/
  declared : ∃ rules, graph.agents engine = .ok rules ∧ rules.keys = s.agents
  /-- They are also those with an initial state. -/
  agents : initial.keys = s.agents
  /-- The first record is the seed. -/
  seed : ∃ r, s.store.records.head? = some r ∧ r.low = settings.seedLow ∧
    LatestStart initial r.high ∧ r.value = initial
  /-- Every later record holds the state of one agent and ends at the time of that state. -/
  later : ∀ r ∈ s.store.records.tail, ∃ agent ∈ s.agents, ∃ state,
    r.value = Table.single agent state ∧ state.time? = some r.high ∧ r.high.isFinite = true
  /-- Every agent has come to its clock without a gap. -/
  lines : ∀ agent ∈ s.agents, ∃ start clock, Line initial s agent start clock
  /-- No one else has a clock. -/
  clocked : ∀ agent clock, s.clocks.get? agent = some clock → agent ∈ s.agents

variable {graph : RuleGraph} {engine : String} {initial : States} {settings : Settings}
variable {s after : Simulation} {agent : String}

/-- The seed ends at the latest initial time. -/
theorem Seeded.latestStart {seed : Record States}
    (h : Seeded graph engine initial settings s seed) : LatestStart initial seed.high := by
  have hstart : ∀ t ∈ s.clocks.values, ∃ agent state, initial.get? agent = some state ∧
      startOf? state = some t := by
    intro t ht
    obtain ⟨e, he, rfl⟩ := List.mem_map.1 ht
    obtain ⟨e', he', -, hstart⟩ := h.clocks.exists_mem he
    exact ⟨e'.1, e'.2, Table.mem_entries_iff.1 he', hstart⟩
  have hne : s.clocks.values ≠ [] := by
    intro hnil
    obtain ⟨agent, hagent⟩ := List.exists_mem_of_ne_nil _ h.nonempty
    rw [← h.agents] at hagent
    obtain ⟨state, hstate⟩ := Table.mem_keys_iff.1 hagent
    obtain ⟨time, htime, -⟩ := h.clocks.exists_get? hstate
    have hmem : time ∈ s.clocks.values := List.mem_map_of_mem (Table.mem_entries_iff.2 htime)
    rw [hnil] at hmem
    exact absurd hmem (by simp)
  have hfinite : ∀ t ∈ s.clocks.values, t.isFinite = true := by
    intro t ht
    obtain ⟨agent, state, -, hstart⟩ := hstart t ht
    exact (startOf?_eq_some hstart).2
  obtain ⟨hmem, hall⟩ := latest_spec hne hfinite
  rw [h.high]
  refine ⟨?_, ?_⟩
  · obtain ⟨agent, state, hstate, hstart⟩ := hstart _ hmem
    exact ⟨agent, state, hstate, (startOf?_eq_some hstart).1⟩
  · intro agent state start hstate hstart
    obtain ⟨time, htime, hsame⟩ := h.clocks.exists_get? hstate
    rw [(startOf?_eq_some hsame).1, Option.some.injEq] at hstart
    rw [← hstart]
    exact hall time (List.mem_map_of_mem (Table.mem_entries_iff.2 htime))

/-- A new simulation has a timeline: the seed and nothing after it. -/
theorem Seeded.timeline {seed : Record States}
    (h : Seeded graph engine initial settings s seed) :
    Timeline graph engine initial settings s := by
  refine ⟨h.declared, h.agents, ⟨seed, ?_, h.low, h.latestStart, h.value⟩, ?_, ?_, ?_⟩
  · rw [h.records, List.head?_cons]
  · rw [h.records, List.tail_cons]
    simp
  · intro agent hagent
    rw [← h.agents] at hagent
    obtain ⟨state, hstate⟩ := Table.mem_keys_iff.1 hagent
    obtain ⟨time, htime, hstart⟩ := h.clocks.exists_get? hstate
    obtain ⟨hsame, hfinite⟩ := startOf?_eq_some hstart
    refine ⟨time, time, ⟨state, hstate, hsame⟩, htime, hfinite, ?_⟩
    rw [ownRecords, h.records, List.tail_cons, List.filter_nil]
    rfl
  · intro agent clock hclock
    obtain ⟨state, hstate, -⟩ := h.clocks.symm.exists_get? hclock
    rw [← h.agents]
    exact Table.mem_keys_iff.2 ⟨state, hstate⟩

/-- Clocks are finite. -/
theorem Timeline.finite (h : Timeline graph engine initial settings s) {clock : Float}
    (hclock : s.clocks.get? agent = some clock) : clock.isFinite = true := by
  obtain ⟨start, shown, hline⟩ := h.lines agent (h.clocked agent clock hclock)
  rw [hline.shown, Option.some.injEq] at hclock
  rw [← hclock]
  exact hline.finite

/-- **No cycle leaves a moved clock without its record.** -/
theorem Timeline.allOrNothing (h : Timeline graph engine initial settings s) (iteration : Nat)
    (agent : String) : AllOrNothing s agent (s.cycle iteration agent) :=
  cycle_allOrNothing (fun _ hclock => h.finite hclock) iteration

/-! ## What a cycle does to the timeline -/

theorem Moves.records {r : Record States} (h : Moves s agent r after) :
    after.store.records = s.store.records ++ [r] := by
  rw [h.after]
  rfl

theorem Moves.get?_clocks {r : Record States} (h : Moves s agent r after) (other : String) :
    after.clocks.get? other = if agent = other then some r.high else s.clocks.get? other := by
  rw [h.after]
  exact Table.get?_insert ..

/-- The record of a move is about the agent that moves, and comes last. -/
theorem Moves.ownRecords {r : Record States} (h : Moves s agent r after)
    (hne : s.store.records ≠ []) (other : String) :
    after.ownRecords other = s.ownRecords other ++ if agent = other then [r] else [] := by
  obtain ⟨state, hvalue, -⟩ := h.state
  have hlast : [r].filter (fun r => r.value.contains other) = if agent = other then [r] else [] := by
    by_cases heq : agent = other
    · simp [hvalue, heq]
    · simp [hvalue, heq]
  rw [Simulation.ownRecords, h.records, List.tail_append_of_ne_nil hne, List.filter_append, hlast]
  rfl

/-- **An agent that moves on prolongs its line, and leaves the others alone.** -/
theorem Line.moves {r : Record States} {other : String} {start clock : Float}
    (hline : Line initial s other start clock) (h : Moves s agent r after)
    (hne : s.store.records ≠ []) : ∃ clock', Line initial after other start clock' := by
  have hown := h.ownRecords hne other
  have hclocks := h.get?_clocks other
  by_cases heq : agent = other
  · rw [if_pos heq] at hown hclocks
    have hlow := h.low
    rw [heq, hline.shown, Option.some.injEq] at hlow
    refine ⟨r.high, hline.started, hclocks, h.finite, ?_⟩
    rw [hown]
    exact hline.chained.concat hlow.symm
  · rw [if_neg heq] at hown hclocks
    rw [List.append_nil] at hown
    refine ⟨clock, hline.started, hclocks.trans hline.shown, hline.finite, ?_⟩
    rw [hown]
    exact hline.chained

/-- **A move keeps the timeline.** -/
theorem Timeline.moves {r : Record States} (h : Timeline graph engine initial settings s)
    (hm : Moves s agent r after) : Timeline graph engine initial settings after := by
  obtain ⟨seed, hseed, hbounds⟩ := h.seed
  have hne : s.store.records ≠ [] := by
    intro hnil
    rw [hnil] at hseed
    exact absurd hseed (by simp)
  have hagents : after.agents = s.agents := by rw [hm.after]
  have hagent : agent ∈ s.agents := h.clocked agent r.low hm.low
  refine ⟨?_, h.agents.trans hagents.symm, ⟨seed, ?_, hbounds⟩, ?_, ?_, ?_⟩
  · rw [hagents]
    exact h.declared
  · rw [hm.records, List.head?_append_of_ne_nil _ hne]
    exact hseed
  · rw [hm.records, List.tail_append_of_ne_nil hne, hagents]
    intro r' hr'
    rcases List.mem_append.1 hr' with hr' | hr'
    · exact h.later r' hr'
    · obtain ⟨state, hvalue, htime⟩ := hm.state
      rw [List.mem_singleton.1 hr']
      exact ⟨agent, hagent, state, hvalue, htime, hm.finite⟩
  · rw [hagents]
    intro other hother
    obtain ⟨start, clock, hline⟩ := h.lines other hother
    exact ⟨start, hline.moves hm hne⟩
  · intro other clock hclock
    rw [hm.get?_clocks] at hclock
    rw [hagents]
    by_cases heq : agent = other
    · rw [← heq]
      exact hagent
    · rw [if_neg heq] at hclock
      exact h.clocked other clock hclock

/-- **A cycle keeps the timeline**, whether it commits, is skipped or fails. -/
theorem Timeline.cycle (h : Timeline graph engine initial settings s) (iteration : Nat)
    (agent : String) :
    Timeline graph engine initial settings ((s.cycle iteration agent).left s) := by
  rcases (h.allOrNothing iteration agent).left_eq_or_moves with heq | ⟨r, hmoves⟩
  · rw [heq]
    exact h
  · exact h.moves hmoves

/-- A cycle takes nothing out of the history. -/
theorem Timeline.records_cycle (h : Timeline graph engine initial settings s) (iteration : Nat)
    (agent : String) :
    s.store.records <+: ((s.cycle iteration agent).left s).store.records := by
  rcases (h.allOrNothing iteration agent).left_eq_or_moves with heq | ⟨r, hmoves⟩
  · exact heq.symm ▸ List.prefix_rfl
  · rw [hmoves.records]
    exact List.prefix_append ..

end Simulation

/-! ## Runs -/

namespace Run

theorem simulation_record (r : Run) (c : Cycle) : (r.record c).simulation = c.left r.simulation := by
  cases c <;> rfl

theorem commits_record (r : Run) (c : Cycle) : (r.record c).commits = r.commits ++ c.made := by
  cases c with
  | committed after commit => rfl
  | skipped => exact (List.append_nil _).symm
  | failed after cause => exact (List.append_nil _).symm

-- what a run keeps may be about the simulation and the commits so far; the counts play no part
variable {P : Simulation → List Commit → Prop}

theorem cycles_preserves
    (step : ∀ s commits iteration agent, P s commits →
      P ((s.cycle iteration agent).left s) (commits ++ (s.cycle iteration agent).made)) {r : Run}
    (h : P r.simulation r.commits) (iteration : Nat) (agents : List String) :
    P (r.cycles iteration agents).simulation (r.cycles iteration agents).commits := by
  induction agents generalizing r with
  | nil => exact h
  | cons agent rest ih =>
    have hnext : P (r.record (r.simulation.cycle iteration agent)).simulation
        (r.record (r.simulation.cycle iteration agent)).commits := by
      rw [simulation_record, commits_record]
      exact step _ _ iteration agent h
    rw [cycles]
    split
    · exact hnext
    · exact ih hnext

theorem iterate_preserves
    (step : ∀ s commits iteration agent, P s commits →
      P ((s.cycle iteration agent).left s) (commits ++ (s.cycle iteration agent).made)) {r : Run}
    (h : P r.simulation r.commits) (iteration : Nat) :
    P (r.iterate iteration).simulation (r.iterate iteration).commits := by
  have hcycles := cycles_preserves step h iteration r.simulation.agents
  rw [iterate]
  dsimp only
  split
  · exact hcycles
  · exact hcycles

theorem iterateFrom_preserves
    (step : ∀ s commits iteration agent, P s commits →
      P ((s.cycle iteration agent).left s) (commits ++ (s.cycle iteration agent).made)) {r : Run}
    (h : P r.simulation r.commits) (iteration n : Nat) :
    P (r.iterateFrom iteration n).simulation (r.iterateFrom iteration n).commits := by
  induction n generalizing r iteration with
  | zero => exact h
  | succ n ih =>
    have hnext := iterate_preserves step h iteration
    rw [iterateFrom]
    split
    · exact hnext
    · exact ih hnext (iteration + 1)

end Run

namespace Simulation

/-- **What every cycle keeps, a run keeps**, also one that fails. -/
theorem run_preserves {P : Simulation → Prop}
    (step : ∀ s iteration agent, P s → P ((s.cycle iteration agent).left s)) {s : Simulation}
    (h : P s) (n : Nat) : P (s.run n).simulation :=
  Run.iterateFrom_preserves (P := fun s _ => P s) (fun s _ => step s) h 0 n

/-- The simulations that come from a configuration: the new one, what any run leaves behind, whether it
fails or not, and every moment between two cycles. -/
inductive Reachable (graph : RuleGraph) (engine : String) (initial : States) (settings : Settings) :
    Simulation → Prop
  | created {s : Simulation} (h : create graph engine initial settings = .ok s) :
      Reachable graph engine initial settings s
  | driven {s : Simulation} (h : Reachable graph engine initial settings s) (iterations : Nat) :
      Reachable graph engine initial settings (s.run iterations).simulation
  | cycled {s : Simulation} (h : Reachable graph engine initial settings s) (iteration : Nat)
      (agent : String) :
      Reachable graph engine initial settings ((s.cycle iteration agent).left s)

variable {graph : RuleGraph} {engine : String} {initial : States} {settings : Settings}
variable {s : Simulation}

theorem Reachable.timeline (h : Reachable graph engine initial settings s) :
    Timeline graph engine initial settings s := by
  induction h with
  | created h =>
    obtain ⟨seed, hseeded⟩ := seeded_of_create h
    exact hseeded.timeline
  | driven _ iterations ih =>
    exact run_preserves (fun _ iteration agent h => h.cycle iteration agent) ih iterations
  | cycled _ iteration agent ih => exact ih.cycle iteration agent

/-- **What holds at the start and is kept by every cycle holds of every simulation.** -/
theorem Reachable.preserves {P : Simulation → Prop}
    (start : ∀ s, create graph engine initial settings = .ok s → P s)
    (step : ∀ s iteration agent, Timeline graph engine initial settings s → P s →
      P ((s.cycle iteration agent).left s))
    (h : Reachable graph engine initial settings s) : P s := by
  induction h with
  | created h => exact start _ h
  | @driven s h iterations ih =>
    let Q : Simulation → Prop := fun s => Timeline graph engine initial settings s ∧ P s
    have hstep : ∀ s iteration agent, Q s → Q ((s.cycle iteration agent).left s) := by
      rintro s iteration agent ⟨ht, hs⟩
      exact ⟨ht.cycle iteration agent, step s iteration agent ht hs⟩
    have hstart : Q s := ⟨h.timeline, ih⟩
    exact (run_preserves hstep hstart iterations).2
  | cycled h iteration agent ih => exact step _ iteration agent h.timeline ih

/-- The records of one agent do not overlap. -/
theorem Timeline.pairwise (h : Timeline graph engine initial settings s) {agent : String}
    (hagent : agent ∈ s.agents) :
    (s.ownRecords agent).Pairwise fun r later => r.high ≤ later.low := by
  obtain ⟨start, clock, hline⟩ := h.lines agent hagent
  exact hline.chained.pairwise

/-- A run takes nothing out of the history. -/
theorem Timeline.records_run (h : Timeline graph engine initial settings s) (iterations : Nat) :
    s.store.records <+: (s.run iterations).simulation.store.records := by
  let P : Simulation → Prop := fun later =>
    Timeline graph engine initial settings later ∧ s.store.records <+: later.store.records
  have step : ∀ later iteration agent, P later → P ((later.cycle iteration agent).left later) := by
    rintro later iteration agent ⟨hlater, hpre⟩
    exact ⟨hlater.cycle iteration agent, hpre.trans (hlater.records_cycle iteration agent)⟩
  have hstart : P s := ⟨h, List.prefix_rfl⟩
  exact (run_preserves step hstart iterations).2

/-- **The timeline holds at every moment of every simulation.**  The first record is the seed; every
later one holds the state of one agent and ends at a finite time that this state carries; the records
of an agent lead without gap or overlap from its initial time to its clock.  A run only ever adds
records, and a cycle, of whatever agent, moves a clock and adds the record that goes with it, or leaves
everything as it was. -/
theorem timeline_of_reachable (h : Reachable graph engine initial settings s) :
    Timeline graph engine initial settings s ∧
    (∀ agent ∈ s.agents, (s.ownRecords agent).Pairwise fun r later => r.high ≤ later.low) ∧
    (∀ iterations, s.store.records <+: (s.run iterations).simulation.store.records) ∧
    ∀ iteration agent, AllOrNothing s agent (s.cycle iteration agent) :=
  ⟨h.timeline, fun _ hagent => h.timeline.pairwise hagent, h.timeline.records_run,
    h.timeline.allOrNothing⟩

end Simulation

/-! ## A clock with one hand

The hand goes where its state says, but the new state does not say where to go next. -/

namespace Clockwork

/-- The only rule of the hand. -/
def graph : RuleGraph :=
  ⟨Table.single "wall" (Table.single "hand"
    [⟨.prev (.base "next"), .base "time", "identity", Producer.identity, rfl⟩])⟩

/-- Where the hand starts, and where it goes. -/
def initial : States :=
  Table.single "hand"
    (.mapping [("next", .ofFloat 1.0), ("time", .ofFloat 0.0), ("timeStep", .ofFloat 1.0)])

/-- Snapshots are read half a unit before the clock. -/
def settings : Settings := ⟨"clockwork", 2, 0.5, -1.0⟩

/-- The new simulation. -/
def start : Simulation :=
  ⟨graph, "wall", ["hand"], ⟨[⟨-1.0, 0.0, initial, by decide⟩]⟩, Table.single "hand" 0.0, 0.5⟩

theorem create_start : Simulation.create graph "wall" initial settings = .ok start := rfl

end Clockwork

/-- The hand moves once, and the second iteration fails; the timeline holds of what is left. -/
theorem Simulation.clockwork_timeline :
    Reachable Clockwork.graph "wall" Clockwork.initial Clockwork.settings
      (Clockwork.start.run 2).simulation ∧
    (Clockwork.start.run 2).failure.isSome = true ∧
    (Clockwork.start.run 2).simulation.store.size = 2 ∧
    Timeline Clockwork.graph "wall" Clockwork.initial Clockwork.settings
      (Clockwork.start.run 2).simulation := by
  have hreach : Reachable Clockwork.graph "wall" Clockwork.initial Clockwork.settings
      (Clockwork.start.run 2).simulation := .driven (.created Clockwork.create_start) 2
  exact ⟨hreach, by decide +kernel, by decide +kernel, (timeline_of_reachable hreach).1⟩

end Orrery
