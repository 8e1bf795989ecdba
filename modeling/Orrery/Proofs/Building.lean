import Orrery.Proofs.Acceptance
import Orrery.Proofs.Commit
import Orrery.Proofs.Nesting

/-!
# What a configuration is built into

Building goes through tables and lists and stops at the first failure.  When it succeeds, the order in
which it went does not matter any more: every declared rule has become a rule, under the same engine and
agent and at the same position, and every engine has its simulation.

* `Table.mapEntries_eq_ok_iff`, `RuleSpec.build_eq_ok_iff`, `RuleGraph.build_eq_ok_iff`: what it means
  that rules have been read (`RuleSpec.ReadAs`), entry by entry.
* `Simulation.buildAll_eq_ok_iff`: one graph for all engines, and one simulation for each.
-/

namespace Orrery

theorem mapError_eq_ok_iff {ε ε' α : Type} {x : Except ε α} {f : ε → ε'} {a : α} :
    x.mapError f = .ok a ↔ x = .ok a := by
  cases x <;> simp [Except.mapError]

namespace Table

variable {α β ε : Type} {f : String → α → Except ε β}

/-- Entries in order that are mapped behind what is built already. -/
theorem foldlM_insert_eq_ok_iff {l : Entries α} {built s : Table β} (hl : l.Sorted)
    (hlt : ∀ b ∈ built.entries, ∀ e ∈ l, b.1 < e.1) :
    l.foldlM (fun built e => (f e.1 e.2).map (built.insert e.1)) built = .ok s ↔
      ∃ m, List.Forall₂ (fun a b => a.1 = b.1 ∧ f a.1 a.2 = .ok b.2) l m ∧
        s.entries = built.entries ++ m := by
  induction l generalizing built with
  | nil =>
    simp only [List.foldlM_nil, pure, Except.pure, Except.ok.injEq, List.forall₂_nil_left_iff,
      exists_eq_left, List.append_nil]
    exact ⟨fun h => by rw [h], fun h => (ext_entries h).symm⟩
  | cons e l ih =>
    obtain ⟨hfirst, hrest⟩ := Entries.sorted_cons.1 hl
    rw [List.foldlM_cons]
    cases hf : f e.1 e.2 with
    | error cause =>
      simp only [Except.map, bind, Except.bind, reduceCtorEq, false_iff]
      rintro ⟨m, hm, -⟩
      cases hm with
      | cons hhead _ =>
        rw [hf] at hhead
        cases hhead.2
    | ok b =>
      -- the name of the entry is above all that are built already, and below all that follow
      have hlast : (built.insert e.1 b).entries = built.entries ++ [(e.1, b)] :=
        Entries.insert_of_forall_lt fun x hx => hlt x hx e (List.mem_cons_self ..)
      have hlt' : ∀ x ∈ (built.insert e.1 b).entries, ∀ y ∈ l, x.1 < y.1 := by
        intro x hx y hy
        rw [hlast] at hx
        rcases List.mem_append.1 hx with hx | hx
        · exact hlt x hx y (List.mem_cons_of_mem _ hy)
        · rw [List.mem_singleton.1 hx]
          exact hfirst y hy
      change List.foldlM _ (built.insert e.1 b) l = _ ↔ _
      rw [ih hrest hlt', hlast]
      constructor
      · rintro ⟨m, hm, hs⟩
        refine ⟨(e.1, b) :: m, .cons ⟨rfl, hf⟩ hm, ?_⟩
        rw [hs, List.append_assoc, List.singleton_append]
      · rintro ⟨m, hm, hs⟩
        cases hm with
        | @cons _ b' _ m' hhead htail =>
          obtain ⟨name, value⟩ := b'
          obtain ⟨rfl, hvalue⟩ := hhead
          rw [hf, Except.ok.injEq] at hvalue
          refine ⟨m', htail, ?_⟩
          rw [hs, hvalue, List.append_assoc, List.singleton_append]

/-- **A table is mapped entry by entry**, when the names do not matter. -/
theorem mapEntries_eq_ok_iff {R : α → β → Prop} (hf : ∀ name a b, f name a = .ok b ↔ R a b)
    {t : Table α} {s : Table β} : t.mapEntries f = .ok s ↔ Rel R t s := by
  rw [mapEntries, foldlM_insert_eq_ok_iff t.sorted (by simp [empty]), Rel]
  simp only [empty, List.nil_append, hf]
  exact ⟨fun ⟨m, hm, hs⟩ => hs ▸ hm, fun h => ⟨s.entries, h, rfl⟩⟩

end Table

/-! ## Rules -/

/-- A declared rule has been read: its queries by the provider, and its producer from the registry. -/
structure RuleSpec.ReadAs (provider : Provider) (registry : Registry) (s : RuleSpec) (r : Rule) :
    Prop where
  /-- What it takes. -/
  consumed : s.consumed.read provider = .ok r.consumed
  /-- Where its result goes. -/
  produced : s.produced.read provider = .ok r.produced
  /-- The name of the producer. -/
  function : r.function = s.function
  /-- The producer. -/
  produce : registry.get? s.function = some r.produce

namespace RuleSpec

variable {provider : Provider} {registry : Registry}

theorem build_eq_ok_iff {place : RulePlace} {s : RuleSpec} {r : Rule} :
    s.build provider registry place = .ok r ↔ ReadAs provider registry s r := by
  constructor
  · intro h
    unfold build at h
    obtain ⟨consumed, hconsumed, h⟩ := exists_of_bind_eq_ok h
    obtain ⟨produced, hproduced, h⟩ := exists_of_bind_eq_ok h
    cases hproduce : registry.get? s.function with
    | none =>
      rw [hproduce] at h
      cases h
    | some produce =>
      rw [hproduce] at h
      dsimp only at h
      split at h
      · rw [← Except.ok.inj h]
        exact ⟨mapError_eq_ok_iff.1 hconsumed, mapError_eq_ok_iff.1 hproduced, rfl, hproduce⟩
      · cases h
  · rintro ⟨hconsumed, hproduced, hfunction, hproduce⟩
    obtain ⟨consumed, produced, function, produce, writable⟩ := r
    obtain rfl : function = s.function := hfunction
    dsimp only at hconsumed hproduced hproduce
    unfold build
    rw [mapError_eq_ok_iff.2 hconsumed, mapError_eq_ok_iff.2 hproduced, hproduce]
    simp only [bind, Except.bind]
    split
    · rfl
    · next e herror =>
      rw [writable] at herror
      cases herror

theorem buildAll_eq_ok_iff {engine agent : String} {index : Nat} {specs : List RuleSpec}
    {rules : List Rule} : buildAll provider registry engine agent index specs = .ok rules ↔
      List.Forall₂ (ReadAs provider registry) specs rules := by
  induction specs generalizing index rules with
  | nil => simp [buildAll, eq_comm]
  | cons s rest ih =>
    rw [List.forall₂_cons_left_iff, buildAll]
    constructor
    · intro h
      obtain ⟨r, hr, h⟩ := exists_of_bind_eq_ok h
      obtain ⟨rs, hrs, h⟩ := exists_of_bind_eq_ok h
      exact ⟨r, rs, build_eq_ok_iff.1 hr, ih.1 hrs, (Except.ok.inj h).symm⟩
    · rintro ⟨r, rs, hr, hrs, rfl⟩
      rw [build_eq_ok_iff.2 hr]
      simp only [bind, Except.bind, ih.2 hrs]
      rfl

end RuleSpec

namespace RuleGraph

variable {provider : Provider} {registry : Registry} {engines : Table EngineSpec} {g : RuleGraph}

/-- Every declared rule has been read, and nothing else is in the graph. -/
def ReadFrom (provider : Provider) (registry : Registry) (engines : Table EngineSpec) (g : RuleGraph) :
    Prop :=
  Table.Rel (fun spec rules =>
    Table.Rel (List.Forall₂ (RuleSpec.ReadAs provider registry)) spec.agents rules) engines g.engines

/-- **A graph is built exactly when all its rules can be read and are sound.** -/
theorem build_eq_ok_iff : build provider registry engines = .ok g ↔
    ReadFrom provider registry engines g ∧ ofRules g.engines = .ok g := by
  have hagents : ∀ engine (spec : EngineSpec) (rules : AgentRules),
      spec.agents.mapEntries (fun agent own =>
        RuleSpec.buildAll provider registry engine agent 0 own) = .ok rules ↔
      Table.Rel (List.Forall₂ (RuleSpec.ReadAs provider registry)) spec.agents rules := by
    intro engine spec rules
    refine Table.mapEntries_eq_ok_iff ?_
    intro agent specs own
    exact RuleSpec.buildAll_eq_ok_iff
  have hread : ∀ table : Table AgentRules,
      engines.mapEntries (fun engine spec => spec.agents.mapEntries fun agent own =>
        RuleSpec.buildAll provider registry engine agent 0 own) = .ok table ↔
      ReadFrom provider registry engines ⟨table⟩ := fun _ => Table.mapEntries_eq_ok_iff hagents
  unfold build
  constructor
  · intro h
    obtain ⟨table, htable, h⟩ := exists_of_bind_eq_ok h
    obtain ⟨rfl, -⟩ := ofRules_eq_ok_iff.1 h
    exact ⟨(hread table).1 htable, h⟩
  · rintro ⟨htable, h⟩
    rw [(hread g.engines).2 htable]
    exact h

/-- Every producer in a graph comes from the registry. -/
theorem ReadFrom.exists_produce (h : ReadFrom provider registry engines g) {engine agent : String}
    {rules : AgentRules} {own : List Rule} (hrules : g.agents engine = .ok rules)
    (hown : rules.get? agent = some own) {r : Rule} (hr : r ∈ own) :
    ∃ name, registry.get? name = some r.produce := by
  obtain ⟨spec, -, hspec⟩ := h.symm.exists_get? (agents_eq_ok_iff.1 hrules)
  obtain ⟨specs, -, hspecs⟩ := hspec.symm.exists_get? hown
  obtain ⟨s, -, hread⟩ := Table.exists_mem_of_forall₂ hspecs hr
  exact ⟨s.function, hread.produce⟩

end RuleGraph

/-! ## Simulations -/

namespace Simulation

variable {graph : RuleGraph} {settings : Settings} {provider : Provider} {registry : Registry}
variable {simulations : List Simulation}

theorem createAll_eq_ok_iff {entries : Entries EngineSpec} :
    createAll graph settings entries = .ok simulations ↔
      List.Forall₂ (fun e s => create graph e.1 e.2.initial settings = .ok s) entries simulations := by
  induction entries generalizing simulations with
  | nil => simp [createAll, eq_comm]
  | cons e rest ih =>
    obtain ⟨engine, spec⟩ := e
    rw [List.forall₂_cons_left_iff, createAll]
    constructor
    · intro h
      obtain ⟨s, hs, h⟩ := exists_of_bind_eq_ok h
      obtain ⟨others, hothers, h⟩ := exists_of_bind_eq_ok h
      exact ⟨s, others, hs, ih.1 hothers, (Except.ok.inj h).symm⟩
    · rintro ⟨s, others, hs, hothers, rfl⟩
      simp only [hs, bind, Except.bind, ih.2 hothers]
      rfl

/-- **A configuration is built into one graph, and one simulation for each engine.** -/
theorem buildAll_eq_ok_iff {engines : Table EngineSpec} :
    buildAll provider registry engines settings = .ok simulations ↔
      ∃ graph, RuleGraph.build provider registry engines = .ok graph ∧
        List.Forall₂ (fun e s => create graph e.1 e.2.initial settings = .ok s) engines.entries
          simulations := by
  unfold buildAll
  constructor
  · intro h
    obtain ⟨graph, hgraph, h⟩ := exists_of_bind_eq_ok h
    exact ⟨graph, mapError_eq_ok_iff.1 hgraph,
      createAll_eq_ok_iff.1 (mapError_eq_ok_iff.1 h)⟩
  · rintro ⟨graph, hgraph, hall⟩
    rw [mapError_eq_ok_iff.2 hgraph]
    exact mapError_eq_ok_iff.2 (createAll_eq_ok_iff.2 hall)

end Simulation

end Orrery
