import Orrery.Proofs.Replay

/-!
# Engines do not see each other

All engines of a configuration share one graph of rules, and the graph is checked as a whole.  Still, what
a simulation does comes from the part of the graph that belongs to its own engine, so the rest of the graph
can be taken away or replaced without a difference.

Replacing the graph is an operation on simulations (`Simulation.under`), on the ends of cycles and on runs,
and the argument is that everything a simulation does commutes with it:

* `advanced_under`, `cycle_under`: one cycle, as long as the two graphs agree on the engine (`Agrees`).
* `Agrees.cycle`: a cycle leaves the agreement as it was.
* `Run.cycles_under`, `Run.iterateFrom_under`, `runs_under`: iterations, runs, and any sequence of runs.
* `create_under`: also the start, with its checks and its seed.

What is left is to find the other graph.  `RuleGraph.build_single` builds it: references are resolved
within an engine, so the rules of one engine are sound by themselves.
-/

namespace Orrery

/-! ## Another graph -/

/-- The same simulation over another graph. -/
def Simulation.under (g : RuleGraph) (s : Simulation) : Simulation := { s with graph := g }

/-- The same end of a cycle over another graph. -/
def Cycle.under (g : RuleGraph) : Cycle → Cycle
  | .skipped => .skipped
  | .committed after commit => .committed (after.under g) commit
  | .failed after cause => .failed (after.under g) cause

/-- The same run over another graph. -/
def Run.under (g : RuleGraph) (r : Run) : Run := { r with simulation := r.simulation.under g }

section Fields

variable (g : RuleGraph) (s : Simulation) (r : Run)

@[simp] theorem Simulation.agents_under : (s.under g).agents = s.agents := rfl
@[simp] theorem Simulation.store_under : (s.under g).store = s.store := rfl
@[simp] theorem Simulation.clocks_under : (s.under g).clocks = s.clocks := rfl
@[simp] theorem Run.simulation_under : (r.under g).simulation = r.simulation.under g := rfl
@[simp] theorem Run.failure_under : (r.under g).failure = r.failure := rfl

end Fields

/-- A step looks at the rules of its own engine only. -/
theorem RuleGraph.step_congr {g g' : RuleGraph} {engine : String}
    (h : g'.agents engine = g.agents engine) (snapshot : Universe) :
    g'.step engine snapshot = g.step engine snapshot := by
  unfold step
  rw [h]

namespace Simulation

variable {g : RuleGraph} {s : Simulation}

/-- A graph has the same rules for the engine of a simulation as the simulation's own. -/
def Agrees (g : RuleGraph) (s : Simulation) : Prop := g.agents s.engine = s.graph.agents s.engine

theorem advanced_under (h : Agrees g s) (agent : String) (snapshot : States) :
    (s.under g).advanced agent snapshot = s.advanced agent snapshot := by
  have hstep := RuleGraph.step_congr h (Table.single s.engine snapshot)
  unfold advanced
  simp only [under, hstep]

/-- **One cycle is the same over both graphs.** -/
theorem cycle_under (h : Agrees g s) (iteration : Nat) (agent : String) :
    (s.under g).cycle iteration agent = (s.cycle iteration agent).under g := by
  have hsnapshot : ∀ clock, (s.under g).snapshot clock = s.snapshot clock := fun _ => rfl
  unfold cycle
  simp only [advanced_under h, hsnapshot, clocks_under, agents_under, store_under]
  cases s.clocks.get? agent with
  | none => rfl
  | some clock =>
    dsimp only
    by_cases hknown : (s.snapshot clock).keys = s.agents
    · rw [if_neg (not_not.2 hknown), if_neg (not_not.2 hknown)]
      cases s.advanced agent (s.snapshot clock) with
      | error e => rfl
      | ok result =>
        dsimp only
        cases s.clocks.advance agent result.2 with
        | error e => rfl
        | ok moved =>
          dsimp only
          cases s.store.insert clock result.2 (Table.single agent result.1) with
          | error e => rfl
          | ok store => rfl
    · rw [if_pos hknown, if_pos hknown]
      rfl

/-- A cycle drives the same engine by the same rules. -/
theorem Agrees.cycle (h : Agrees g s) (iteration : Nat) (agent : String) :
    Agrees g ((s.cycle iteration agent).left s) := by
  obtain ⟨store, clocks, hleft⟩ := s.exists_left_eq iteration agent
  rw [hleft]
  exact h

theorem Agrees.run (h : Agrees g s) (n : Nat) : Agrees g (s.run n).simulation :=
  run_preserves (fun _ iteration agent hs => hs.cycle iteration agent) h n

end Simulation

/-! ## Runs over another graph -/

namespace Run

open Simulation

variable {g : RuleGraph} {r : Run}

theorem record_under (g : RuleGraph) (r : Run) (c : Cycle) :
    (r.under g).record (c.under g) = (r.record c).under g := by
  cases c <;> rfl

theorem cycles_under (h : Agrees g r.simulation) (iteration : Nat) (agents : List String) :
    (r.under g).cycles iteration agents = (r.cycles iteration agents).under g := by
  induction agents generalizing r with
  | nil => rfl
  | cons agent rest ih =>
    have hnext : Agrees g (r.record (r.simulation.cycle iteration agent)).simulation := by
      rw [simulation_record]
      exact h.cycle iteration agent
    rw [cycles, cycles, simulation_under, cycle_under h, record_under,
      failure_under]
    cases hfailure : (r.record (r.simulation.cycle iteration agent)).failure with
    | some e => rfl
    | none => exact ih hnext

theorem iterate_under (h : Agrees g r.simulation) (iteration : Nat) :
    (r.under g).iterate iteration = (r.iterate iteration).under g := by
  rw [iterate, iterate, simulation_under, agents_under, cycles_under h]
  dsimp only
  rw [failure_under]
  cases (r.cycles iteration r.simulation.agents).failure with
  | some e => rfl
  | none => rfl

/-- **Iterations are the same over both graphs.** -/
theorem iterateFrom_under (h : Agrees g r.simulation) (iteration n : Nat) :
    (r.under g).iterateFrom iteration n = (r.iterateFrom iteration n).under g := by
  induction n generalizing r iteration with
  | zero => rfl
  | succ n ih =>
    have hnext : Agrees g (r.iterate iteration).simulation :=
      iterate_preserves (P := fun s _ => Agrees g s) (fun _ _ i a hs => hs.cycle i a) h iteration
    rw [iterateFrom, iterateFrom, iterate_under h, failure_under]
    cases (r.iterate iteration).failure with
    | some e => rfl
    | none => exact ih hnext (iteration + 1)

end Run

namespace Simulation

variable {g : RuleGraph} {s t u : Simulation}

/-- Runs of some lengths, one after the other, each with what it counts and commits. -/
def runs (s : Simulation) : List Nat → List Run
  | [] => []
  | n :: rest => s.run n :: (s.run n).simulation.runs rest

theorem run_under (h : Agrees g s) (n : Nat) : (s.under g).run n = (s.run n).under g :=
  Run.iterateFrom_under (r := Run.start s) h 0 n

theorem runs_under (h : Agrees g s) (lengths : List Nat) :
    (s.under g).runs lengths = (s.runs lengths).map (Run.under g) := by
  induction lengths generalizing s with
  | nil => rfl
  | cons n rest ih =>
    rw [runs, runs, List.map_cons, run_under h, List.cons.injEq]
    exact ⟨rfl, ih (h.run n)⟩

theorem afterRuns_under (h : Agrees g s) (lengths : List Nat) :
    (s.under g).afterRuns lengths = (s.afterRuns lengths).under g := by
  induction lengths generalizing s with
  | nil => rfl
  | cons n rest ih =>
    have hrest := ih (h.run n)
    unfold afterRuns at hrest ⊢
    rw [List.foldl_cons, List.foldl_cons, run_under h]
    exact hrest

/-- Two simulations cannot be told apart by driving them: every sequence of runs returns the same counts
or failures with the same commits, and leaves the same history and the same clocks. -/
structure SameRuns (s t : Simulation) : Prop where
  /-- What every run returns. -/
  outcomes : ∀ lengths, (s.runs lengths).map (·.outcome) = (t.runs lengths).map (·.outcome)
  /-- What every run commits. -/
  commits : ∀ lengths, (s.runs lengths).map (·.commits) = (t.runs lengths).map (·.commits)
  /-- The history that is left. -/
  stores : ∀ lengths, (s.afterRuns lengths).store = (t.afterRuns lengths).store
  /-- The clocks that are left. -/
  clocks : ∀ lengths, (s.afterRuns lengths).clocks = (t.afterRuns lengths).clocks

theorem SameRuns.symm (h : SameRuns s t) : SameRuns t s :=
  ⟨fun l => (h.outcomes l).symm, fun l => (h.commits l).symm, fun l => (h.stores l).symm,
    fun l => (h.clocks l).symm⟩

theorem SameRuns.trans (h : SameRuns s t) (h' : SameRuns t u) : SameRuns s u :=
  ⟨fun l => (h.outcomes l).trans (h'.outcomes l), fun l => (h.commits l).trans (h'.commits l),
    fun l => (h.stores l).trans (h'.stores l), fun l => (h.clocks l).trans (h'.clocks l)⟩

/-- **Nothing but the rules of the own engine can be noticed.** -/
theorem Agrees.sameRuns (h : Agrees g s) : SameRuns s (s.under g) := by
  refine ⟨fun lengths => ?_, fun lengths => ?_, fun lengths => ?_, fun lengths => ?_⟩
  · rw [runs_under h, List.map_map]
    rfl
  · rw [runs_under h, List.map_map]
    rfl
  · rw [afterRuns_under h]
    rfl
  · rw [afterRuns_under h]
    rfl

/-- The start is checked and seeded in the same way over both graphs. -/
theorem create_under {graph : RuleGraph} {engine : String} {initial : States} {settings : Settings}
    (hg : g.agents engine = graph.agents engine) (h : create graph engine initial settings = .ok s) :
    create g engine initial settings = .ok (s.under g) := by
  unfold create at h ⊢
  rw [hg]
  obtain ⟨rules, hrules, h⟩ := exists_of_bind_eq_ok h
  rw [hrules]
  dsimp only [bind, Except.bind] at h ⊢
  split at h
  · cases h
  · next hempty =>
    rw [if_neg hempty]
    dsimp only [pure, Except.pure] at h ⊢
    split at h
    · cases h
    · next hagents =>
      rw [if_neg hagents]
      obtain ⟨clocks, hclocks, h⟩ := exists_of_bind_eq_ok h
      obtain ⟨store, hstore, h⟩ := exists_of_bind_eq_ok h
      rw [hclocks]
      dsimp only
      rw [hstore, ← Except.ok.inj h]
      rfl

end Simulation

/-! ## The graph of one engine -/

namespace RuleGraph

variable {provider : Provider} {registry : Registry} {engines : Table EngineSpec} {graph : RuleGraph}

/-- **The rules of one engine make a graph by themselves.** -/
theorem build_single {engine : String} {spec : EngineSpec}
    (hgraph : build provider registry engines = .ok graph) (hspec : engines.get? engine = some spec) :
    ∃ g, build provider registry (Table.single engine spec) = .ok g ∧
      g.agents engine = graph.agents engine := by
  obtain ⟨hread, hsound⟩ := build_eq_ok_iff.1 hgraph
  obtain ⟨rules, hrules, hrel⟩ := hread.exists_get? hspec
  have hagents : graph.agents engine = .ok rules := agents_eq_ok_iff.2 hrules
  refine ⟨⟨Table.single engine rules⟩, build_eq_ok_iff.2 ⟨.cons ⟨rfl, hrel⟩ .nil, ?_⟩, ?_⟩
  · refine ofRules_eq_ok_iff.2 ⟨rfl, List.forall_mem_singleton.2 ?_⟩
    exact sound_of_ofRules hsound hagents
  · rw [hagents, agents_eq_ok_iff]
    exact Table.get?_insert_self ..

end RuleGraph

namespace Simulation

variable {provider : Provider} {registry : Registry} {settings : Settings} {engines : Table EngineSpec}
variable {simulations : List Simulation} {s t : Simulation} {name : String} {spec : EngineSpec}

/-- Every engine has one simulation, in the order of the names. -/
theorem engines_of_built (hbuilt : buildAll provider registry engines settings = .ok simulations) :
    simulations.map (·.engine) = engines.keys := by
  obtain ⟨graph, -, hall⟩ := buildAll_eq_ok_iff.1 hbuilt
  rw [Table.keys, ← List.forall₂_eq_eq_eq, List.forall₂_map_left_iff, List.forall₂_map_right_iff]
  refine hall.flip.imp fun s e hcreate => ?_
  exact (fixed_of_create hcreate).2.1

/-- An engine of a configuration has a simulation, and no other one. -/
theorem existsUnique_of_built (hbuilt : buildAll provider registry engines settings = .ok simulations)
    (hspec : engines.get? name = some spec) : ∃! s, s ∈ simulations ∧ s.engine = name := by
  have hnames := engines_of_built hbuilt
  have hmem : name ∈ simulations.map (·.engine) := by
    rw [hnames]
    exact Table.mem_keys_iff.2 ⟨spec, hspec⟩
  have hnodup : (simulations.map (·.engine)).Nodup := by
    rw [hnames]
    exact engines.nodup_keys
  obtain ⟨s, hs, hname⟩ := List.mem_map.1 hmem
  refine ⟨s, ⟨hs, hname⟩, fun t ht => ?_⟩
  exact List.inj_on_of_nodup_map hnodup ht.1 hs (ht.2.trans hname.symm)

/-- The simulation of an engine, and the one that is built from the engine alone. -/
theorem buildAll_single (hbuilt : buildAll provider registry engines settings = .ok simulations)
    (hspec : engines.get? name = some spec) (hs : s ∈ simulations) (hname : s.engine = name) :
    ∃ g, Agrees g s ∧
      buildAll provider registry (Table.single name spec) settings = .ok [s.under g] := by
  obtain ⟨graph, hgraph, hall⟩ := buildAll_eq_ok_iff.1 hbuilt
  obtain ⟨g, hg, hagents⟩ := RuleGraph.build_single hgraph hspec
  obtain ⟨e, he, hcreate⟩ := Table.exists_mem_of_forall₂ hall hs
  obtain ⟨hsame, hengine, -⟩ := fixed_of_create hcreate
  obtain ⟨engine, own⟩ := e
  obtain rfl : engine = name := hengine.symm.trans hname
  obtain rfl : own = spec := Option.some.inj ((Table.mem_entries_iff.1 he).symm.trans hspec)
  refine ⟨g, ?_, buildAll_eq_ok_iff.2 ⟨g, hg, .cons (create_under hagents hcreate) .nil⟩⟩
  rw [Agrees, hsame, hname]
  exact hagents

end Simulation

/-- The configuration with one engine left. -/
def Config.only (c : Config) (name : String) (spec : EngineSpec) : Config :=
  { c with engines := Table.single name spec }

open Simulation in
/-- **Engines are independent.**  If a configuration can be built, so can the one that keeps a single
engine of it, and the simulations of that engine in both cannot be told apart by any sequence of runs.
Nor can the simulations of the engine in two configurations that agree on it, whatever else they hold. -/
theorem Config.engine_independent {provider : Provider} {registry : Registry} {c : Config}
    {simulations : List Simulation} {name : String} {spec : EngineSpec}
    (hbuilt : buildAll provider registry c.engines c.settings = .ok simulations)
    (hspec : c.engines.get? name = some spec) :
    ∃ s, (s ∈ simulations ∧ s.engine = name) ∧
      (∀ s' ∈ simulations, s'.engine = name → s' = s) ∧
      (∃ alone, buildAll provider registry (c.only name spec).engines (c.only name spec).settings =
          .ok [alone] ∧ alone.engine = name ∧ SameRuns s alone) ∧
      ∀ (d : Config) (others : List Simulation), d.settings = c.settings →
        d.engines.get? name = some spec → buildAll provider registry d.engines d.settings = .ok others →
        ∃ t ∈ others, t.engine = name ∧ SameRuns s t := by
  obtain ⟨s, ⟨hs, hname⟩, honly⟩ := existsUnique_of_built hbuilt hspec
  obtain ⟨g, hagrees, halone⟩ := buildAll_single hbuilt hspec hs hname
  refine ⟨s, ⟨hs, hname⟩, fun s' hs' hname' => honly s' ⟨hs', hname'⟩,
    ⟨s.under g, halone, hname, hagrees.sameRuns⟩, fun d others hsettings hspec' hbuilt' => ?_⟩
  obtain ⟨t, ⟨ht, hname'⟩, -⟩ := existsUnique_of_built hbuilt' hspec'
  obtain ⟨g', hagrees', halone'⟩ := buildAll_single hbuilt' hspec' ht hname'
  -- both are the simulation that is built from the engine alone
  rw [hsettings, halone, Except.ok.injEq, List.singleton_inj] at halone'
  refine ⟨t, ht, hname', hagrees.sameRuns.trans ?_⟩
  rw [halone']
  exact hagrees'.sameRuns.symm

/-! ## Two shelves

The doll has a namesake on a lower shelf, whose clock does not move. -/

namespace Nested

/-- The engine of the namesake: its time stays as it is. -/
def frozen : EngineSpec :=
  ⟨initial 0, Table.single "doll"
    [declare (.prev (.base "time")) "time" "identity",
      declare (.prev (.base "timeStep")) "timeStep" "identity"]⟩

/-- Both shelves. -/
def twoShelves : Config :=
  { config 1 with engines := (config 1).engines.insert "lower shelf" frozen }

/-- The rules of both, read. -/
def shelves : RuleGraph :=
  ⟨graph.engines.insert "lower shelf" (Table.single "doll"
    [.forField "time" (.prev (.base "time")) "identity" Producer.identity,
      .forField "timeStep" (.prev (.base "timeStep")) "identity" Producer.identity])⟩

/-- The new simulation of the namesake. -/
def namesake : Simulation :=
  ⟨shelves, "lower shelf", ["doll"], ⟨[⟨-10.0, 0.0, initial 0, seedLow_lt⟩]⟩, Table.single "doll" 0.0,
    0.5⟩

theorem buildAll_twoShelves :
    Simulation.buildAll Provider.wire registry twoShelves.engines twoShelves.settings =
      .ok [namesake, (start 1).under shelves] :=
  Simulation.buildAll_eq_ok_iff.2 ⟨shelves, rfl, .cons rfl (.cons rfl .nil)⟩

end Nested

open Simulation in
/-- The namesake fails at once, and the doll runs as it does alone. -/
theorem Config.doll_independent :
    buildAll Provider.wire Nested.registry Nested.twoShelves.engines Nested.twoShelves.settings =
      .ok [Nested.namesake, (Nested.start 1).under Nested.shelves] ∧
    (Nested.namesake.run 3).outcome = .error (.clock (.regression "doll" 0.0 0.0)) ∧
    SameRuns ((Nested.start 1).under Nested.shelves) (Nested.start 1) ∧
    ((Nested.start 1).runs [2, 1]).map (·.outcome) = [.ok ⟨2, 2, 0⟩, .ok ⟨1, 1, 0⟩] := by
  have hspec : Nested.twoShelves.engines.get? "shelf" =
      some ⟨Nested.initial 1, Table.single "doll" Nested.specs⟩ := rfl
  obtain ⟨s, ⟨hs, hname⟩, honly, ⟨alone, halone, -, hsame⟩, -⟩ :=
    engine_independent Nested.buildAll_twoShelves hspec
  obtain rfl : (Nested.start 1).under Nested.shelves = s := honly _ (by simp) rfl
  obtain rfl : alone = Nested.start 1 :=
    List.singleton_inj.1 (Except.ok.inj (halone.symm.trans (Nested.buildAll_start 1)))
  exact ⟨Nested.buildAll_twoShelves, by decide +kernel, hsame, by decide +kernel⟩

end Orrery
