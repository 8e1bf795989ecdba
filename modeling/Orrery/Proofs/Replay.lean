import Orrery.Config.Basic
import Orrery.Proofs.Artifact
import Orrery.Proofs.Building
import Orrery.Proofs.FieldOrder
import Orrery.Proofs.Interleaving

/-!
# The history of a run, read back and replayed

A configuration is built into simulations, the simulations are driven for a while, and what they have
committed is written to one text.

* `Simulation.afterRuns`: runs one after the other, each from where the last one stopped.
* `RunExport.exportable_of_built`: the history holds what a reader needs, whatever the runs were and
  however they ended.  Only its depth is left.
* `RunExport.reads_back`: the text is read back exactly when no state nests too deeply, and then every
  store can be made again record by record.
* `RunExport.nested_unreadable`: depth is not bounded by anything.  A rule may put what it reads into a
  list, and after enough runs the history cannot be read any more.
-/

namespace Orrery

namespace Simulation

/-- Runs of some lengths, one after the other, whether they fail or not. -/
def afterRuns (s : Simulation) (lengths : List Nat) : Simulation :=
  lengths.foldl (fun s n => (s.run n).simulation) s

variable {graph : RuleGraph} {engine : String} {initial : States} {settings : Settings}
variable {s : Simulation}

theorem Reachable.afterRuns (h : Reachable graph engine initial settings s) (lengths : List Nat) :
    Reachable graph engine initial settings (s.afterRuns lengths) := by
  induction lengths generalizing s with
  | nil => exact h
  | cons n rest ih => exact ih (h.driven n)

end Simulation

theorem Config.isFinite_of_validate {c : Config} (h : c.validate = .ok ()) :
    c.settings.seedLow.isFinite = true := by
  unfold validate at h
  split at h
  · cases h
  · split at h
    · cases h
    · next hlow => simpa using hlow

namespace RuleGraph

variable {provider : Provider} {registry : Registry} {engines : Table EngineSpec} {g : RuleGraph}

/-- A graph whose producers come from a registry that keeps the order keeps it. -/
theorem ReadFrom.keepsOrder (h : ReadFrom provider registry engines g) (hr : registry.KeepsOrder) :
    g.KeepsOrder := by
  intro engine rules hrules agent own hown r hmem
  obtain ⟨name, hname⟩ := h.exists_produce hrules hown hmem
  exact hr name r.produce hname

end RuleGraph

namespace RunExport

open Simulation

variable {runId : RunId} {name : String} {now : Instant}

/-! ## What the simulations leave -/

section Histories

variable {graph : RuleGraph} {settings : Settings} {engines : Table EngineSpec}
variable {simulations : List Simulation}

/-- Every engine of a configuration has a simulation, in the order of the names. -/
def Histories (graph : RuleGraph) (settings : Settings) (engines : Table EngineSpec)
    (simulations : List Simulation) : Prop :=
  List.Forall₂ (fun x s => Reachable graph x.1 x.2.initial settings s) engines.entries simulations

/-- The names in a history are those of the engines, and the records those of the stores. -/
theorem Histories.entries (h : Histories graph settings engines simulations) :
    (ofSimulations runId name now simulations).engines.entries =
      simulations.map fun s => (s.engine, s.store.records) := by
  have hnames : engines.entries.map (·.1) =
      (simulations.map fun s => (s.engine, s.store.records)).map (·.1) := by
    rw [List.map_map, ← List.forall₂_eq_eq_eq, List.forall₂_map_left_iff, List.forall₂_map_right_iff]
    exact h.imp fun _ _ hs => hs.fixed.2.1.symm
  have hsorted : Entries.Sorted (simulations.map fun s => (s.engine, s.store.records)) := by
    have hs := List.pairwise_map.2 engines.sorted
    rw [hnames, List.pairwise_map] at hs
    exact hs
  exact Table.entries_ofList hsorted

/-- What a history has to say about every engine to be as good as the simulations. -/
structure Replays (e : RunExport) (simulations : List Simulation) : Prop where
  /-- The engines are those of the simulations. -/
  names : e.replay.keys = simulations.map (·.engine)
  /-- The records of an engine, added one by one to an empty store, make its store. -/
  inserts : ∀ s ∈ simulations, ∃ records, e.engines.get? s.engine = some records ∧
    Store.empty.insertAll records = .ok s.store
  /-- Replaying gives every store back. -/
  stores : ∀ s ∈ simulations, e.replay.get? s.engine = some s.store
  /-- So every reading of it is as before. -/
  merges : ∀ s ∈ simulations, ∀ point, (e.merges point).get? s.engine = some (s.store.merge point)

theorem Histories.replays (h : Histories graph settings engines simulations) :
    (ofSimulations runId name now simulations).Replays simulations := by
  have hentries : (ofSimulations runId name now simulations).engines.entries = _ := h.entries
  have hget : ∀ s ∈ simulations,
      (ofSimulations runId name now simulations).engines.get? s.engine = some s.store.records := by
    intro s hs
    rw [← Table.mem_entries_iff, hentries]
    exact List.mem_map_of_mem hs
  have hstores : ∀ s ∈ simulations,
      (ofSimulations runId name now simulations).replay.get? s.engine = some s.store := by
    intro s hs
    rw [replay, Table.get?_map, hget s hs, Option.map_some, Store.ofRecords_records]
  refine ⟨?_, fun s hs => ⟨_, hget s hs, ?_⟩, hstores, fun s hs point => ?_⟩
  · rw [replay, Table.keys_map, Table.keys, hentries, List.map_map]
    rfl
  · rw [Store.insertAll_eq]
    rfl
  · rw [merges, Table.get?_map, hstores s hs, Option.map_some]

/-- **A history holds what a reader needs, its depth apart**: bounds that are finite, states in order. -/
theorem Histories.exportable (h : Histories graph settings engines simulations)
    (hlow : settings.seedLow.isFinite = true) (hinitial : ∀ x ∈ engines.entries, x.2.initial.Ordered)
    (hg : graph.KeepsOrder) : (ofSimulations runId name now simulations).Exportable := by
  intro x hx r hr
  rw [h.entries] at hx
  obtain ⟨s, hs, rfl⟩ := List.mem_map.1 hx
  obtain ⟨y, hy, hreach⟩ := Table.exists_mem_of_forall₂ h hs
  exact hreach.exportable hlow (hinitial y hy) hg r hr

theorem Histories.shallow_iff (h : Histories graph settings engines simulations) :
    (ofSimulations runId name now simulations).Shallow ↔
      ∀ s ∈ simulations, ∀ r ∈ s.store.records, ∀ state ∈ r.value.entries,
        state.2.nesting ≤ stateDepth := by
  rw [Shallow, h.entries, List.forall_mem_map]

end Histories

/-! ## From a configuration to its history -/

variable {provider : Provider} {registry : Registry} {c : Config} {built : List Simulation}

/-- The simulations of a configuration after the runs that a plan has for each engine. -/
def driven (built : List Simulation) (plan : String → List Nat) : List Simulation :=
  built.map fun s => s.afterRuns (plan s.engine)

theorem exists_histories_of_built
    (hbuilt : buildAll provider registry c.engines c.settings = .ok built)
    (hr : registry.KeepsOrder) (plan : String → List Nat) :
    ∃ graph : RuleGraph, graph.KeepsOrder ∧ Histories graph c.settings c.engines (driven built plan) := by
  obtain ⟨graph, hgraph, hall⟩ := buildAll_eq_ok_iff.1 hbuilt
  obtain ⟨hread, -⟩ := RuleGraph.build_eq_ok_iff.1 hgraph
  refine ⟨graph, hread.keepsOrder hr, ?_⟩
  rw [Histories, driven, List.forall₂_map_right_iff]
  exact hall.imp fun _ _ hs => (Reachable.created hs).afterRuns _

/-- **Whatever the runs were and however they ended**, their history holds what a reader needs, its depth
apart. -/
theorem exportable_of_built (hvalid : c.validate = .ok ())
    (hbuilt : buildAll provider registry c.engines c.settings = .ok built)
    (hinitial : ∀ x ∈ c.engines.entries, x.2.initial.Ordered) (hr : registry.KeepsOrder)
    (plan : String → List Nat) : (ofSimulations runId name now (driven built plan)).Exportable := by
  obtain ⟨graph, hg, hall⟩ := exists_histories_of_built hbuilt hr plan
  exact hall.exportable (Config.isFinite_of_validate hvalid) hinitial hg

/-- **The history of a run is read back exactly when no state in it is too deep**, and then it can be
replayed.  This is so for every configuration that is valid and can be built, whatever runs its
simulations are driven through, and however these runs end.  That mappings are in order is what the
initial states and the producers promise; that a number and a time are read back from their own texts is
what their texts promise. -/
theorem reads_back (hvalid : c.validate = .ok ())
    (hbuilt : buildAll provider registry c.engines c.settings = .ok built)
    (hinitial : ∀ x ∈ c.engines.entries, x.2.initial.Ordered) (hr : registry.KeepsOrder)
    (plan : String → List Nat) (hnow : Instant.ofText? now.text = some now)
    (hnumbers : ∀ n ∈ (ofSimulations runId name now (driven built plan)).enginesValue.numbers,
      n.reread? = some n) :
    (ofText? (ofSimulations runId name now (driven built plan)).text =
      if ∀ s ∈ driven built plan, ∀ r ∈ s.store.records, ∀ state ∈ r.value.entries,
        state.2.nesting ≤ 122
      then some (ofSimulations runId name now (driven built plan)) else none) ∧
    (ofSimulations runId name now (driven built plan)).Replays (driven built plan) := by
  obtain ⟨graph, -, hall⟩ := exists_histories_of_built hbuilt hr plan
  have htext := ofText?_text (exportable_of_built hvalid hbuilt hinitial hr plan) hnow hnumbers
  simp only [hall.shallow_iff] at htext
  exact ⟨htext, hall.replays⟩

end RunExport

/-! ## A shell around a shell

The doll puts its shell into another one at every step. -/

namespace Nested

/-- An empty list inside so many others. -/
def shell : Nat → Value
  | 0 => .list []
  | n + 1 => .list [shell n]

/-- The doll at the start. -/
def initial (depth : Nat) : States :=
  Table.single "doll"
    (.mapping [("shell", shell depth), ("time", .ofFloat 0.0), ("timeStep", .ofFloat 1.0)])

/-- A rule for a field. -/
def declare (consumed : Query) (field function : String) : RuleSpec :=
  ⟨.query consumed, .query (.base field), function⟩

/-- The rules of the doll: a tuple in a tuple hands over a list of one item. -/
def specs : List RuleSpec :=
  [declare (.tuple [.prev (.base "time"), .prev (.base "timeStep")]) "time" "time_manager",
    declare (.prev (.base "timeStep")) "timeStep" "identity",
    declare (.tuple [.tuple [.prev (.base "shell")]]) "shell" "identity"]

/-- Snapshots are read half a unit before the clock. -/
def settings : Settings := ⟨"nested", 5, 0.5, -10.0⟩

/-- One engine, one doll. -/
def config (depth : Nat) : Config :=
  { Config.standard with
    settings
    engines := Table.single "shelf" ⟨initial depth, Table.single "doll" specs⟩ }

/-- The same rules, read. -/
def graph : RuleGraph :=
  ⟨Table.single "shelf" (Table.single "doll"
    [.forField "time" (.tuple [.prev (.base "time"), .prev (.base "timeStep")]) "time_manager"
        Producer.timeManager,
      .forField "timeStep" (.prev (.base "timeStep")) "identity" Producer.identity,
      .forField "shell" (.tuple [.tuple [.prev (.base "shell")]]) "identity" Producer.identity])⟩

/-- The seed begins before the doll does. -/
theorem seedLow_lt : (-10.0 : Float) < 0.0 := by decide

/-- The new simulation. -/
def start (depth : Nat) : Simulation :=
  ⟨graph, "shelf", ["doll"], ⟨[⟨-10.0, 0.0, initial depth, seedLow_lt⟩]⟩, Table.single "doll" 0.0, 0.5⟩

/-- The built-in producers. -/
def registry : Registry := .builtin Config.standardStep

theorem build_graph (depth : Nat) :
    RuleGraph.build Provider.wire registry (config depth).engines = .ok graph := rfl

theorem create_start (depth : Nat) :
    Simulation.create graph "shelf" (initial depth) settings = .ok (start depth) := rfl

theorem buildAll_start (depth : Nat) :
    Simulation.buildAll Provider.wire registry (config depth).engines (config depth).settings =
      .ok [start depth] :=
  Simulation.buildAll_eq_ok_iff.2 ⟨graph, build_graph depth, .cons (create_start depth) .nil⟩

theorem ordered_shell (depth : Nat) : (shell depth).Ordered := by
  induction depth with
  | zero => exact .list (by simp)
  | succ depth ih => exact .list (List.forall_mem_singleton.2 ih)

theorem ordered_initial (depth : Nat) :
    ∀ x ∈ (config depth).engines.entries, x.2.initial.Ordered := by
  refine List.forall_mem_singleton.2 (States.ordered_single (.mapping ?_ ?_))
  · exact List.pairwise_map.1 (by decide : ["shell", "time", "timeStep"].Pairwise (· < ·))
  · simp only [List.forall_mem_cons]
    exact ⟨ordered_shell depth, .number _, .number _, by simp⟩

/-- When the history is written. -/
def now : Instant := ⟨20000, 45296, 123456000⟩

/-- What the doll leaves behind after some runs. -/
def ran (depth : Nat) (lengths : List Nat) : List Simulation :=
  RunExport.driven [start depth] fun _ => lengths

/-- Its history. -/
def history (depth : Nat) (lengths : List Nat) : RunExport :=
  .ofSimulations ⟨0x01932a4c7d5e7f80a1b2c3d4e5f60718⟩ "nested" now (ran depth lengths)

end Nested

/-- A small doll that is driven twice can be read back and replayed. -/
theorem RunExport.nested_reads_back :
    (Nested.config 2).validate = .ok () ∧
    ofText? (Nested.history 2 [2, 1]).text = some (Nested.history 2 [2, 1]) ∧
    (Nested.history 2 [2, 1]).recordCount = 4 ∧
    (Nested.history 2 [2, 1]).Replays (Nested.ran 2 [2, 1]) := by
  have hvalid : (Nested.config 2).validate = .ok () := by decide +kernel
  have hshallow : ∀ s ∈ Nested.ran 2 [2, 1], ∀ r ∈ s.store.records, ∀ state ∈ r.value.entries,
      state.2.nesting ≤ 122 := by decide +kernel
  have hnow : Instant.ofText? Nested.now.text = some Nested.now := by decide +kernel
  have hnumbers : ∀ n ∈ (Nested.history 2 [2, 1]).enginesValue.numbers, n.reread? = some n := by
    decide +kernel
  obtain ⟨htext, hreplays⟩ := reads_back hvalid (Nested.buildAll_start 2) (Nested.ordered_initial 2)
    (Registry.keepsOrder_builtin _) (fun _ => [2, 1]) hnow hnumbers
  exact ⟨hvalid, htext.trans (if_pos hshallow), by decide +kernel, hreplays⟩

/-- A large doll that is driven for five iterations without failing cannot be read back. -/
theorem RunExport.nested_unreadable :
    (Nested.config 117).validate = .ok () ∧
    Simulation.buildAll Provider.wire Nested.registry (Nested.config 117).engines
      (Nested.config 117).settings = .ok [Nested.start 117] ∧
    ((Nested.start 117).run 5).outcome = .ok ⟨5, 5, 0⟩ ∧
    Instant.ofText? Nested.now.text = some Nested.now ∧
    (∀ n ∈ (Nested.history 117 [5]).enginesValue.numbers, n.reread? = some n) ∧
    ofText? (Nested.history 117 [5]).text = none := by
  have hvalid : (Nested.config 117).validate = .ok () := by decide +kernel
  have hnow : Instant.ofText? Nested.now.text = some Nested.now := by decide +kernel
  have hnumbers : ∀ n ∈ (Nested.history 117 [5]).enginesValue.numbers, n.reread? = some n := by
    decide +kernel
  have hexport : (Nested.history 117 [5]).Exportable :=
    exportable_of_built hvalid (Nested.buildAll_start 117) (Nested.ordered_initial 117)
      (Registry.keepsOrder_builtin _) fun _ => [5]
  have hdeep : ¬ (Nested.history 117 [5]).Shallow := by decide +kernel
  refine ⟨hvalid, Nested.buildAll_start 117, by decide +kernel, hnow, hnumbers, ?_⟩
  rw [ofText?_text hexport hnow hnumbers, if_neg hdeep]

end Orrery
