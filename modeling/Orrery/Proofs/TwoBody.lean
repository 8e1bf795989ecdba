import Orrery.Config.Basic
import Orrery.Proofs.Building
import Orrery.Proofs.ReadBack
import Orrery.Proofs.Shape

/-!
# Two bodies keep their form

The rules of the built-in scenario are typed: position and velocity are vectors, mass, time and step are
numbers, and within a step velocity and mass come first, position and step after the velocity, and time
after the step.  So whatever the two bodies start with, as long as it has the form, every state that a run
commits has it too, and no run ends in a deadlock or with an argument of the wrong shape.

* `Producer.maps_propagateVelocity` and the others: what the built-in producers take and give.
* `TwoBody.typed`: the rules of the two bodies are typed, whatever else is in the graph.
* `TwoBody.keeps_form`: what follows for all runs.
-/

namespace Orrery

/-! ## What the built-in producers take and give -/

namespace Producer

theorem exists_scalar {v : Value} (h : Shape.number.Holds v) (index : Nat) :
    ∃ x, scalar index v = .ok x := by
  obtain ⟨x, hx⟩ := Option.isSome_iff_exists.1 h
  exact ⟨x, by rw [scalar, hx]⟩

theorem exists_vector {v : Value} (h : Shape.vector.Holds v) (index : Nat) :
    ∃ a, vector index v = .ok a := by
  obtain ⟨x, hx⟩ := Option.isSome_iff_exists.1 (h "x" (by simp))
  obtain ⟨y, hy⟩ := Option.isSome_iff_exists.1 (h "y" (by simp))
  obtain ⟨z, hz⟩ := Option.isSome_iff_exists.1 (h "z" (by simp))
  have hvector : Vector3.ofValue? v = some ⟨x, y, z⟩ := by
    rw [Vector3.ofValue?, hx, hy, hz]
    rfl
  exact ⟨⟨x, y, z⟩, by rw [vector, hvector]⟩

theorem gives_finite (what : String) (x : Float) : Gives .number (finite what x) := by
  unfold finite
  split
  · exact .inl ⟨_, rfl, rfl⟩
  · exact .inr ⟨what, rfl⟩

theorem gives_vectorValue (what : String) (a : Vector3) : Gives .vector (vectorValue what a) := by
  unfold vectorValue
  rcases gives_finite what a.x with ⟨x, hx, hnumber⟩ | ⟨other, hx⟩
  · rcases gives_finite what a.y with ⟨y, hy, hnumber'⟩ | ⟨other, hy⟩
    · rcases gives_finite what a.z with ⟨z, hz, hnumber''⟩ | ⟨other, hz⟩
      · refine .inl ⟨_, by rw [hx, hy, hz]; rfl, ?_⟩
        simp only [Shape.Holds, List.forall_mem_cons]
        exact ⟨hnumber, hnumber', hnumber'', by simp⟩
      · exact .inr ⟨other, by rw [hx, hy, hz]; rfl⟩
    · exact .inr ⟨other, by rw [hx, hy]; rfl⟩
  · exact .inr ⟨other, by rw [hx]; rfl⟩

theorem maps_propagateVelocity :
    Maps [.number, .vector, .vector, .vector, .number] .vector propagateVelocity := by
  intro args h
  simp only [List.forall₂_cons_left_iff, List.forall₂_nil_left_iff] at h
  obtain ⟨dt, _, hdt, ⟨position, _, hposition, ⟨velocity, _, hvelocity, ⟨other, _, hother,
    ⟨mass, _, hmass, rfl, rfl⟩, rfl⟩, rfl⟩, rfl⟩, rfl⟩ := h
  obtain ⟨dt', hdt'⟩ := exists_scalar hdt 0
  obtain ⟨r, hr⟩ := exists_vector hposition 1
  obtain ⟨v, hv⟩ := exists_vector hvelocity 2
  obtain ⟨r', hr'⟩ := exists_vector hother 3
  obtain ⟨m, hm⟩ := exists_scalar hmass 4
  simp only [propagateVelocity, hdt', hr, hv, hr', hm, bind, Except.bind]
  exact gives_vectorValue ..

theorem maps_propagatePosition : Maps [.number, .vector, .vector] .vector propagatePosition := by
  intro args h
  simp only [List.forall₂_cons_left_iff, List.forall₂_nil_left_iff] at h
  obtain ⟨dt, _, hdt, ⟨position, _, hposition, ⟨velocity, _, hvelocity, rfl, rfl⟩, rfl⟩, rfl⟩ := h
  obtain ⟨dt', hdt'⟩ := exists_scalar hdt 0
  obtain ⟨r, hr⟩ := exists_vector hposition 1
  obtain ⟨v, hv⟩ := exists_vector hvelocity 2
  simp only [propagatePosition, hdt', hr, hv, bind, Except.bind]
  exact gives_vectorValue ..

theorem maps_propagateMass : Maps [.number] .number propagateMass := by
  intro args h
  simp only [List.forall₂_cons_left_iff, List.forall₂_nil_left_iff] at h
  obtain ⟨mass, _, hmass, rfl, rfl⟩ := h
  obtain ⟨m, hm⟩ := exists_scalar hmass 0
  simp only [propagateMass, hm, bind, Except.bind]
  exact .inl ⟨mass, rfl, hmass⟩

theorem maps_timeManager : Maps [.number, .number] .number timeManager := by
  intro args h
  simp only [List.forall₂_cons_left_iff, List.forall₂_nil_left_iff] at h
  obtain ⟨time, _, htime, ⟨step, _, hstep, rfl, rfl⟩, rfl⟩ := h
  obtain ⟨t, ht⟩ := exists_scalar htime 0
  obtain ⟨dt, hdt⟩ := exists_scalar hstep 1
  simp only [timeManager, ht, hdt, bind, Except.bind]
  exact gives_finite ..

/-- A step that is not finite is refused for that reason. -/
theorem maps_timestepManager (fixedStep : Float) (takes : List Shape) :
    Maps takes .number (timestepManager fixedStep) := fun _ _ => gives_finite ..

end Producer

/-! ## The rules of the two bodies -/

namespace TwoBody

/-- What a body is described by. -/
def form : Form :=
  ⟨[("mass", .number), ("position", .vector), ("time", .number), ("timeStep", .number),
    ("velocity", .vector)],
    List.pairwise_map.1
      (by decide : ["mass", "position", "time", "timeStep", "velocity"].Pairwise (· < ·))⟩

/-- The order in which the fields of a body are made. -/
def rank (field : String) : Nat :=
  if field = "time" then 2 else if field = "position" ∨ field = "timeStep" then 1 else 0

variable {provider : Provider} {fixedStep : Float} {r : Rule} {other : String}

/-- A declared rule makes its field if its producer takes what it reads. -/
theorem makes_of_readAs {registry : Registry} {items : List Query} {field function : String}
    {takes : List Shape} {gives : Shape} {p : Producer}
    (h : (rule items field function).ReadAs provider registry r)
    (hreads : List.Forall₂ (Query.Reads form) items takes)
    (hproducer : registry.get? function = some p) (hmaps : p.Maps takes gives)
    (hfield : form.get? field = some gives)
    (hrank : ∀ earlier, .base earlier ∈ items → rank earlier < rank field) :
    r.Makes form rank field := by
  obtain rfl : p = r.produce := Option.some.inj (hproducer.symm.trans h.produce)
  refine ⟨(Except.ok.inj h.produced).symm, items, takes, gives, (Except.ok.inj h.consumed).symm, hreads,
    hmaps, hfield, hrank⟩

/-- The producers that the rules of a body name. -/
theorem get?_builtin (fixedStep : Float) :
    (Registry.builtin fixedStep).get? "propagate_velocity" = some Producer.propagateVelocity ∧
    (Registry.builtin fixedStep).get? "propagate_position" = some Producer.propagatePosition ∧
    (Registry.builtin fixedStep).get? "propagate_mass" = some Producer.propagateMass ∧
    (Registry.builtin fixedStep).get? "time_manager" = some Producer.timeManager ∧
    (Registry.builtin fixedStep).get? "timestep_manager" =
      some (Producer.timestepManager fixedStep) := by
  simp [Registry.builtin, Table.ofList, Table.get?_insert]

/-- Every rule of a body makes a field. -/
theorem makes_of_mem {spec : RuleSpec} (hspec : spec ∈ rules other)
    (h : spec.ReadAs provider (.builtin fixedStep) r) : ∃ field, r.Makes form rank field := by
  obtain ⟨hvelocity, hposition, hmass, htime, hstep⟩ := get?_builtin fixedStep
  simp only [rules, List.mem_cons, List.not_mem_nil, or_false] at hspec
  rcases hspec with rfl | rfl | rfl | rfl | rfl
  · refine ⟨"velocity", makes_of_readAs h ?_ hvelocity Producer.maps_propagateVelocity rfl ?_⟩
    · exact .cons (.previous rfl) (.cons (.previous rfl) (.cons (.previous rfl)
        (.cons (.other other rfl) (.cons (.other other rfl) .nil))))
    · simp [previous]
  · refine ⟨"position", makes_of_readAs h ?_ hposition Producer.maps_propagatePosition rfl ?_⟩
    · exact .cons (.previous rfl) (.cons (.previous rfl) (.cons (.current rfl) .nil))
    · simp [previous, rank]
  · refine ⟨"mass", makes_of_readAs h ?_ hmass Producer.maps_propagateMass rfl ?_⟩
    · exact .cons (.previous rfl) .nil
    · simp [previous]
  · refine ⟨"time", makes_of_readAs h ?_ htime Producer.maps_timeManager rfl ?_⟩
    · exact .cons (.previous rfl) (.cons (.current rfl) .nil)
    · simp [previous, rank, Value.timeStepField]
  · refine ⟨"timeStep", makes_of_readAs h ?_ hstep (Producer.maps_timestepManager _ [.vector]) rfl ?_⟩
    · exact .cons (.current rfl) .nil
    · simp [rank]

/-- Every field of a body is declared. -/
theorem exists_mem_of_field (other : String) {field : String} (h : field ∈ form.keys) :
    ∃ spec ∈ rules other, spec.produced = .query (.base field) := by
  have hfields : (rules other).map (·.produced) =
      ["velocity", "position", "mass", "time", "timeStep"].map fun f => .query (.base f) := rfl
  have hlisted : ∀ f ∈ form.keys, f ∈ ["velocity", "position", "mass", "time", "timeStep"] := by decide
  have hmem : QuerySpec.query (.base field) ∈ (rules other).map (·.produced) := by
    rw [hfields]
    exact List.mem_map_of_mem (hlisted field h)
  exact List.mem_map.1 hmem

/-- **The rules of the two bodies are typed**, wherever they stand and whatever else is in the graph. -/
theorem typed {engines : Table EngineSpec} {graph : RuleGraph} {name : String} {spec : EngineSpec}
    (hread : graph.ReadFrom provider (.builtin fixedStep) engines)
    (hspec : engines.get? name = some spec) (hagents : spec.agents = engine.agents) :
    ∃ table, graph.agents name = .ok table ∧ table.Typed form rank := by
  obtain ⟨table, htable, hrel⟩ := hread.exists_get? hspec
  rw [hagents] at hrel
  have hown : ∀ agent own, table.get? agent = some own →
      ∃ other, List.Forall₂ (RuleSpec.ReadAs provider (.builtin fixedStep)) (rules other) own := by
    intro agent own hget
    obtain ⟨specs, hspecs, hall⟩ := hrel.symm.exists_get? hget
    have hmem := Table.mem_of_get?_ofList hspecs
    simp only [List.mem_cons, Prod.mk.injEq, List.not_mem_nil, or_false] at hmem
    rcases hmem with ⟨-, rfl⟩ | ⟨-, rfl⟩
    · exact ⟨_, hall⟩
    · exact ⟨_, hall⟩
  refine ⟨table, RuleGraph.agents_eq_ok_iff.2 htable, ?_, ?_⟩
  · intro agent own hget r hr
    obtain ⟨other, hall⟩ := hown agent own hget
    obtain ⟨s, hs, hreadAs⟩ := Table.exists_mem_of_forall₂ hall hr
    exact makes_of_mem hs hreadAs
  · intro agent own hget field hfield
    obtain ⟨other, hall⟩ := hown agent own hget
    obtain ⟨s, hs, hproduced⟩ := exists_mem_of_field other hfield
    obtain ⟨r, hr, hreadAs⟩ := Table.exists_mem_of_forall₂ hall.flip hs
    refine ⟨r, hr, ?_⟩
    have htarget := hreadAs.produced
    rw [hproduced] at htarget
    exact (Except.ok.inj htarget).symm

open Simulation

/-- **Two bodies keep their form and never wait for each other for ever.**  Whatever the fixed step is and
whatever the bodies start with, as long as it has the form, every state that is committed has the form and
no other field, in every run and however many runs have failed before.  A run stops only because the result
of a producer is not finite, or because a time does not lie ahead of its clock. -/
theorem keeps_form {provider : Provider} {fixedStep : Float}
    {engines : Table EngineSpec} {graph : RuleGraph} {name : String} {spec : EngineSpec}
    {initial : States} {settings : Settings} {s : Simulation}
    (hgraph : RuleGraph.build provider (.builtin fixedStep) engines = .ok graph)
    (hspec : engines.get? name = some spec) (hagents : spec.agents = engine.agents)
    (hinitial : ∀ agent v, initial.get? agent = some v → v.Fits form)
    (h : Reachable graph name initial settings s) :
    (∀ r ∈ s.store.records.tail, ∀ agent v, r.value.get? agent = some v → v.Exact form) ∧
    ∀ n, (∀ commit ∈ (s.run n).commits, commit.state.Exact form) ∧
      ∀ e, (s.run n).outcome = .error e → TypedFailure e := by
  obtain ⟨hread, haccepted⟩ := RuleGraph.build_eq_ok_iff.1 hgraph
  obtain ⟨table, htable, htyped⟩ := typed hread hspec hagents
  have hstart : ∀ s, create graph name initial settings = .ok s → OverTyped form rank s := by
    intro s hs
    obtain ⟨hsame, hengine, -⟩ := fixed_of_create hs
    obtain ⟨seed, hseeded⟩ := seeded_of_create hs
    obtain ⟨own, hown, hkeys⟩ := hseeded.declared
    obtain rfl : table = own := Except.ok.inj (htable.symm.trans hown)
    refine ⟨?_, ⟨table, ?_, hkeys, htyped⟩, rfl⟩
    · rw [hsame]
      exact haccepted
    · rw [hsame, hengine]
      exact htable
  exact ⟨(h.historyFits hstart hinitial).2.exact, h.run_typed hstart hinitial⟩

/-! ## The built-in scenario -/

/-- The rules of a body, read. -/
def read (other : String) : List Rule :=
  [.forField "velocity" (.tuple [previous "timeStep", previous "position", previous "velocity",
      .access (.agent other) "position", .access (.agent other) "mass"]) "propagate_velocity"
      Producer.propagateVelocity,
    .forField "position" (.tuple [previous "timeStep", previous "position", .base "velocity"])
      "propagate_position" Producer.propagatePosition,
    .forField "mass" (.tuple [previous "mass"]) "propagate_mass" Producer.propagateMass,
    .forField "time" (.tuple [previous "time", .base "timeStep"]) "time_manager" Producer.timeManager,
    .forField "timeStep" (.tuple [.base "velocity"]) "timestep_manager"
      (Producer.timestepManager Config.standardStep)]

/-- The graph of the built-in scenario. -/
def graph : RuleGraph :=
  ⟨Table.single "orbits" (Table.ofList [("Body1", read "Body2"), ("Body2", read "Body1")])⟩

/-- The new simulation of the built-in scenario. -/
def start : Simulation :=
  ⟨graph, "orbits", ["Body1", "Body2"], ⟨[⟨-999999999.0, 0.0, engine.initial, by decide⟩]⟩,
    Table.ofList [("Body1", 0.0), ("Body2", 0.0)], 0.001⟩

theorem build_graph : RuleGraph.build Provider.wire (.builtin Config.standardStep) Config.standardEngines =
    .ok graph := rfl

theorem create_start :
    Simulation.create graph "orbits" engine.initial Config.standardSettings = .ok start := rfl

theorem fits_initial : ∀ agent v, engine.initial.get? agent = some v → v.Fits form := by
  have hall : ∀ e ∈ engine.initial.entries, e.2.Fits form := by decide +kernel
  intro agent v hv
  exact hall _ (Table.mem_entries_iff.2 hv)

/-- The built-in scenario: two iterations make four commits of the form. -/
theorem standard_keeps_form :
    RuleGraph.build Provider.wire (.builtin Config.standardStep) Config.standardEngines = .ok graph ∧
    create graph "orbits" engine.initial Config.standardSettings = .ok start ∧
    (start.run 2).outcome = .ok ⟨2, 4, 0⟩ ∧
    ∀ commit ∈ (start.run 2).commits, commit.state.Exact form := by
  obtain ⟨-, hruns⟩ := keeps_form build_graph rfl rfl fits_initial (.created create_start)
  exact ⟨build_graph, create_start, by decide +kernel, (hruns 2).1⟩

end TwoBody

end Orrery
