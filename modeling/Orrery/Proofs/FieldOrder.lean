import Orrery.Physics
import Orrery.Proofs.Commit
import Orrery.Proofs.FloatRange
import Orrery.Proofs.Nesting
import Orrery.Proofs.Store
import Orrery.Proofs.WriteOnce

/-!
# Mappings stay in order

The fields of a mapping are listed in the order of their names, but a mapping inside a value is a bare
list and carries no proof of that.  What text says is put in order when it is read, so a simulation
starts with data in order; this file shows that it never leaves that behind.  Reading through a query
takes out parts, writing puts a field in its place, and a producer is only asked to keep the order.

* `Tree.ordered_of_value?`: what is read from text is in order.
* `Scope.lookup?_ordered`, `Value.Ordered.put`: reading and writing keep the order.
* `RuleGraph.ordered_of_step`: so does a step, whatever calls it consists of.
* `Reachable.exportable`: so does a run, and with the times, which are finite, every record of a history
  is one that can be read back as far as its depth allows.
-/

namespace Orrery

/-! ## Reading and writing -/

namespace Value

variable {v w value : Value}

theorem Ordered.get? {fields : Entries Value} (h : (Value.mapping fields).Ordered) {name : String}
    (hw : Entries.get? name fields = some w) : w.Ordered := by
  cases h with
  | mapping sorted each => exact each (name, w) (Entries.mem_of_get? hw)

theorem Ordered.field? (h : v.Ordered) {name : String} (hw : v.field? name = some w) : w.Ordered := by
  cases v with
  | mapping fields => exact h.get? hw
  | _ => cases hw

/-- A field with a value in order, put into a mapping in order. -/
theorem Ordered.insert {fields : Entries Value} (h : (Value.mapping fields).Ordered) (name : String)
    (hw : w.Ordered) : (Value.mapping (Entries.insert name w fields)).Ordered := by
  cases h with
  | mapping sorted each =>
    refine .mapping (sorted.insert name w) fun f hf => ?_
    rcases Entries.mem_insert hf with rfl | hf
    · exact hw
    · exact each f hf

theorem ordered_nil : (mapping []).Ordered := .mapping Entries.sorted_nil (by simp)

/-- **Storing a value at the end of a path keeps the order.** -/
theorem Ordered.put (h : v.Ordered) (hvalue : value.Ordered) {path : List String}
    (hput : v.put path value = some w) : w.Ordered := by
  induction path generalizing v w with
  | nil =>
    rw [put_nil, Option.some.injEq] at hput
    rwa [← hput]
  | cons f path ih =>
    obtain ⟨fields, new, rfl, hnew, rfl⟩ := put_cons_eq_some_iff.1 hput
    -- the container of the rest of the path is a field, or made empty
    have hinner : ((Entries.get? f fields).getD (Value.mapping [])).Ordered := by
      cases hget : Entries.get? f fields with
      | none => exact ordered_nil
      | some u => exact h.get? hget
    exact h.insert f (ih hinner hnew)

end Value

namespace Tree

open Value

mutual

/-- **What is read from text is in order**, whatever the order in the text was. -/
theorem ordered_of_value? (depth : Nat) : ∀ (t : Tree) {v : Value}, value? depth t = some v → v.Ordered
  | .null, _, h | .bool _, _, h | .number _, _, h | .text _, _, h | .nonFinite, _, h
  | .minusZero, _, h => by
    rw [value?, Option.some.injEq] at h
    rw [← h]
    constructor
  | .unreadable, _, h => by
    rw [value?] at h
    cases h
  | .list items, _, h => by
    cases depth with
    | zero =>
      rw [value?] at h
      cases h
    | succ d =>
      rw [value?] at h
      obtain ⟨values, hvalues, rfl⟩ := Option.map_eq_some_iff.1 h
      exact .list (ordered_of_values? d items hvalues)
  | .mapping fields, _, h => by
    cases depth with
    | zero =>
      rw [value?] at h
      cases h
    | succ d =>
      rw [value?] at h
      obtain ⟨entries, hentries, rfl⟩ := Option.map_eq_some_iff.1 h
      exact ordered_of_fieldValues? d fields ordered_nil hentries

theorem ordered_of_values? (depth : Nat) : ∀ (items : List Tree) {values : List Value},
    values? depth items = some values → ∀ v ∈ values, v.Ordered
  | [], _, h => by
    rw [values?, Option.some.injEq] at h
    simp [← h]
  | t :: rest, _, h => by
    rw [values?] at h
    cases hfirst : value? depth t with
    | none =>
      rw [hfirst] at h
      cases h
    | some first =>
      rw [hfirst] at h
      obtain ⟨others, hothers, rfl⟩ := Option.map_eq_some_iff.1 h
      exact List.forall_mem_cons.2 ⟨ordered_of_value? depth t hfirst,
        ordered_of_values? depth rest hothers⟩

theorem ordered_of_fieldValues? (depth : Nat) : ∀ (fields : List (Tree × Tree))
    {gathered entries : Entries Value}, (Value.mapping gathered).Ordered →
    fieldValues? depth fields gathered = some entries → (Value.mapping entries).Ordered
  | [], _, _, hgathered, h => by
    rw [fieldValues?, Option.some.injEq] at h
    exact h ▸ hgathered
  | (name, t) :: rest, _, _, hgathered, h => by
    unfold fieldValues? at h
    cases hvalue : value? depth t with
    | none =>
      rw [hvalue] at h
      cases name <;> cases h
    | some v =>
      rw [hvalue] at h
      have hv := ordered_of_value? depth t hvalue
      cases name with
      | text k => exact ordered_of_fieldValues? depth rest (hgathered.insert k hv) h
      | _ => cases h

end

end Tree

namespace States

variable {t : States} {agent : String} {v : Value}

theorem ordered_iff : t.Ordered ↔ ∀ agent v, t.get? agent = some v → v.Ordered := by
  constructor
  · intro h agent v hv
    exact h (agent, v) (Table.mem_entries_iff.2 hv)
  · rintro h ⟨agent, v⟩ he
    exact h agent v (Table.mem_entries_iff.1 he)

theorem ordered_empty : States.Ordered Table.empty := fun _ h => by cases h

theorem ordered_single (h : v.Ordered) : States.Ordered (Table.single agent v) := by
  refine ordered_iff.2 fun other w hw => ?_
  rw [Table.get?_single] at hw
  split at hw
  · rwa [← Option.some.inj hw]
  · cases hw

/-- The state of an agent, or an empty one. -/
theorem Ordered.getD (h : t.Ordered) (agent : String) : ((t.get? agent).getD (.mapping [])).Ordered := by
  cases hget : t.get? agent with
  | none => exact Value.ordered_nil
  | some v => exact ordered_iff.1 h agent v hget

end States

/-- What is known of every engine is in order. -/
def Universe.Ordered (u : Universe) : Prop := ∀ engine states, u.get? engine = some states → states.Ordered

theorem Universe.ordered_single {engine : String} {states : States} (h : states.Ordered) :
    Universe.Ordered (Table.single engine states) := by
  intro other known hknown
  rw [Table.get?_single] at hknown
  split at hknown
  · rwa [← Option.some.inj hknown]
  · cases hknown

namespace Scope

variable {s : Scope} {states : States}

theorem committed?_ordered (hs : s.snapshot.Ordered) {agent : String} {v : Value}
    (h : s.committed? agent = some v) : v.Ordered := by
  obtain ⟨known, hknown, hv⟩ := Option.bind_eq_some_iff.1 h
  exact States.ordered_iff.1 (hs _ known hknown) agent v hv

theorem subject?_ordered (hs : s.snapshot.Ordered) (hstates : states.Ordered) {previous : Bool}
    {v : Value} (h : s.subject? states previous = some v) : v.Ordered := by
  cases previous with
  | true => exact committed?_ordered hs h
  | false => exact States.ordered_iff.1 hstates s.agent v h

mutual

/-- **What a query finds is in order.** -/
theorem lookup?_ordered (hs : s.snapshot.Ordered) (hstates : states.Ordered) (previous : Bool) :
    ∀ (q : Query) {v : Value}, s.lookup? states previous q = some v → v.Ordered
  | .base field, v, h => by
    obtain ⟨own, hown, hv⟩ := Option.bind_eq_some_iff.1 h
    exact (subject?_ordered hs hstates hown).field? hv
  | .prev inner, _, h => lookup?_ordered hs hstates true inner h
  | .root, _, h => subject?_ordered hs hstates h
  | .agent name, _, h => committed?_ordered hs h
  | .access container field, v, h => by
    rw [lookup?] at h
    obtain ⟨outer, houter, hv⟩ := Option.bind_eq_some_iff.1 h
    exact (lookup?_ordered hs hstates previous container houter).field? hv
  | .tuple items, v, h => by
    rw [lookup?] at h
    obtain ⟨values, hvalues, rfl⟩ := Option.map_eq_some_iff.1 h
    exact .list (lookupItems?_ordered hs hstates previous items hvalues)

theorem lookupItems?_ordered (hs : s.snapshot.Ordered) (hstates : states.Ordered) (previous : Bool) :
    ∀ (items : List Query) {values : List Value},
      s.lookupItems? states previous items = some values → ∀ v ∈ values, v.Ordered
  | [], values, h => by
    rw [lookupItems?, Option.some.injEq] at h
    simp [← h]
  | q :: rest, values, h => by
    rw [lookupItems?] at h
    cases hfirst : s.lookup? states previous q with
    | none =>
      rw [hfirst] at h
      cases h
    | some first =>
      rw [hfirst] at h
      obtain ⟨others, hothers, rfl⟩ := Option.map_eq_some_iff.1 h
      exact List.forall_mem_cons.2 ⟨lookup?_ordered hs hstates previous q hfirst,
        lookupItems?_ordered hs hstates previous rest hothers⟩

end

end Scope

/-- The arguments that an input makes are the input or its items. -/
theorem Query.arguments_ordered (q : Query) {input : Value} (h : input.Ordered) :
    ∀ v ∈ q.arguments input, v.Ordered := by
  unfold arguments
  split
  · cases h with
    | list each => exact each
  · simpa using h

/-! ## Producers -/

namespace Producer

/-- From arguments in order a producer makes a result in order. -/
def KeepsOrder (produce : Producer) : Prop :=
  ∀ args v, (∀ a ∈ args, a.Ordered) → produce args = .ok v → v.Ordered

theorem ordered_of_finite {what : String} {x : Float} {v : Value} (h : finite what x = .ok v) :
    v.Ordered := by
  unfold finite at h
  split at h
  · rw [← Except.ok.inj h]
    exact .number _
  · cases h

theorem ordered_of_vectorValue {what : String} {a : Vector3} {v : Value}
    (h : vectorValue what a = .ok v) : v.Ordered := by
  unfold vectorValue at h
  obtain ⟨x, hx, h⟩ := exists_of_bind_eq_ok h
  obtain ⟨y, hy, h⟩ := exists_of_bind_eq_ok h
  obtain ⟨z, hz, h⟩ := exists_of_bind_eq_ok h
  rw [← Except.ok.inj h]
  have hsorted : Entries.Sorted [("x", x), ("y", y), ("z", z)] :=
    List.pairwise_map.1 (by decide : ["x", "y", "z"].Pairwise (· < ·))
  refine .mapping hsorted ?_
  simp only [List.forall_mem_cons]
  exact ⟨ordered_of_finite hx, ordered_of_finite hy, ordered_of_finite hz, by simp⟩

theorem keepsOrder_propagateVelocity : KeepsOrder propagateVelocity := by
  intro args v _ h
  unfold propagateVelocity at h
  split at h
  · obtain ⟨_, -, h⟩ := exists_of_bind_eq_ok h
    obtain ⟨_, -, h⟩ := exists_of_bind_eq_ok h
    obtain ⟨_, -, h⟩ := exists_of_bind_eq_ok h
    obtain ⟨_, -, h⟩ := exists_of_bind_eq_ok h
    obtain ⟨_, -, h⟩ := exists_of_bind_eq_ok h
    exact ordered_of_vectorValue h
  · cases h

theorem keepsOrder_propagatePosition : KeepsOrder propagatePosition := by
  intro args v _ h
  unfold propagatePosition at h
  split at h
  · obtain ⟨_, -, h⟩ := exists_of_bind_eq_ok h
    obtain ⟨_, -, h⟩ := exists_of_bind_eq_ok h
    obtain ⟨_, -, h⟩ := exists_of_bind_eq_ok h
    exact ordered_of_vectorValue h
  · cases h

theorem keepsOrder_propagateMass : KeepsOrder propagateMass := by
  intro args v hargs h
  unfold propagateMass at h
  split at h
  · obtain ⟨_, -, h⟩ := exists_of_bind_eq_ok h
    rw [← Except.ok.inj h]
    exact hargs _ (List.mem_cons_self ..)
  · cases h

theorem keepsOrder_identity : KeepsOrder identity := by
  intro args v hargs h
  unfold identity at h
  split at h
  · rw [← Except.ok.inj h]
    exact hargs _ (List.mem_cons_self ..)
  · cases h

theorem keepsOrder_timeManager : KeepsOrder timeManager := by
  intro args v _ h
  unfold timeManager at h
  split at h
  · obtain ⟨_, -, h⟩ := exists_of_bind_eq_ok h
    obtain ⟨_, -, h⟩ := exists_of_bind_eq_ok h
    exact ordered_of_finite h
  · cases h

theorem keepsOrder_timestepManager (fixedStep : Float) : KeepsOrder (timestepManager fixedStep) :=
  fun _ _ _ h => ordered_of_finite h

end Producer

/-- Every producer of a registry keeps the order. -/
def Registry.KeepsOrder (registry : Registry) : Prop :=
  ∀ name produce, registry.get? name = some produce → Producer.KeepsOrder produce

/-- **The built-in producers keep the order.** -/
theorem Registry.keepsOrder_builtin (fixedStep : Float) : KeepsOrder (builtin fixedStep) := by
  intro name produce h
  have hmem := Table.mem_of_get?_ofList h
  simp only [List.mem_cons, Prod.mk.injEq, List.not_mem_nil, or_false] at hmem
  rcases hmem with ⟨-, rfl⟩ | ⟨-, rfl⟩ | ⟨-, rfl⟩ | ⟨-, rfl⟩ | ⟨-, rfl⟩ | ⟨-, rfl⟩
  · exact Producer.keepsOrder_propagateVelocity
  · exact Producer.keepsOrder_propagatePosition
  · exact Producer.keepsOrder_propagateMass
  · exact Producer.keepsOrder_identity
  · exact Producer.keepsOrder_timeManager
  · exact Producer.keepsOrder_timestepManager fixedStep

/-! ## Steps -/

namespace Step

variable {engine : String} {snapshot : Universe} {states after : States} {c : Call}
variable {calls : List Call}

/-- Firing a rule whose producer keeps the order keeps the order. -/
theorem Fires.ordered (h : Fires engine snapshot states c after) (hs : snapshot.Ordered)
    (hstates : states.Ordered) (hproduce : Producer.KeepsOrder c.pending.rule.produce) :
    after.Ordered := by
  obtain ⟨input, hinput, hc⟩ := Option.map_eq_some_iff.1 h.called
  have hfound : input.Ordered := Scope.lookup?_ordered hs hstates false _ hinput
  refine States.ordered_iff.2 fun agent v hv => ?_
  rcases h.effect agent with ⟨-, hget⟩ | ⟨path, output, new, hwrite, hnew, hget⟩
  · rw [hget] at hv
    exact States.ordered_iff.1 hstates agent v hv
  · have hresult := (Call.writeTo?_eq_some_iff.1 hwrite).2.2
    have hcall : c.result = c.pending.rule.produce (c.pending.rule.consumed.arguments input) := by
      rw [← hc]
    have houtput : output.Ordered :=
      hproduce _ output (c.pending.rule.consumed.arguments_ordered hfound) (hcall ▸ hresult)
    rw [hget, Option.some.injEq] at hv
    rw [← hv]
    exact (hstates.getD agent).put houtput hnew

/-- **Calls of producers that keep the order keep it together.** -/
theorem Execution.ordered (h : Execution engine snapshot Table.empty calls after)
    (hs : snapshot.Ordered) (hproduce : ∀ c ∈ calls, Producer.KeepsOrder c.pending.rule.produce) :
    after.Ordered := by
  induction h with
  | nil => exact States.ordered_empty
  | concat _ fires ih =>
    have hlast := hproduce _ (List.mem_append_right _ (List.mem_singleton_self _))
    exact fires.ordered hs (ih fun c hc => hproduce c (List.mem_append_left _ hc)) hlast

end Step

namespace RuleGraph

/-- Every rule of a graph keeps the order. -/
def KeepsOrder (g : RuleGraph) : Prop :=
  ∀ engine rules, g.agents engine = .ok rules → ∀ agent own, rules.get? agent = some own →
    ∀ r ∈ own, Producer.KeepsOrder r.produce

open Step in
/-- **A step of rules that keep the order, against a snapshot in order, gives states in order.** -/
theorem ordered_of_step {g : RuleGraph} {engine : String} {snapshot : Universe} {states : States}
    (hg : g.KeepsOrder) (hs : snapshot.Ordered) (h : g.step engine snapshot = .ok states) :
    states.Ordered := by
  cases hr : g.agents engine with
  | error e =>
    rw [step, hr] at h
    cases h
  | ok rules =>
    rw [step_eq hr] at h
    rcases resolve_cases engine snapshot Table.empty (pendingOf rules) with
      ⟨calls, after, passes, hsettles, hok⟩ | ⟨calls, after, left, -, -, hdead⟩ |
      ⟨calls, c, e, -, herror⟩
    · rw [hok] at h
      rw [← Except.ok.inj h]
      refine hsettles.execution_nil.ordered hs fun c hc => ?_
      have hpending : c.pending ∈ pendingOf rules :=
        hsettles.perm_of_nil.mem_iff.2 (List.mem_map_of_mem hc)
      obtain ⟨own, hown, hmem⟩ := exists_mem_pendingOf_iff.1 ⟨c.pending, hpending, rfl, rfl⟩
      exact hg engine rules hr _ own hown _ hmem
    · rw [hdead] at h
      cases h
    · rw [herror] at h
      cases h

end RuleGraph

/-! ## Runs -/

/-- What a history says at a point is in order if its records are. -/
theorem Store.ordered_merge {store : Store States} (h : ∀ r ∈ store.records, r.value.Ordered)
    (point : Float) : States.Ordered (store.merge point) := by
  refine States.ordered_iff.2 fun agent v hv => ?_
  obtain ⟨r, hr, hvalue⟩ := exists_mem_of_get?_merge hv
  exact States.ordered_iff.1 (h r hr) agent v hvalue

namespace Simulation

variable {graph : RuleGraph} {engine : String} {initial : States} {settings : Settings}
variable {s after : Simulation} {agent : String} {commit : Commit}

/-- The seed can be read back. -/
theorem Seeded.exportable {seed : Record States} (h : Seeded graph engine initial settings s seed)
    (hlow : settings.seedLow.isFinite = true) (hinitial : initial.Ordered) : seed.Exportable := by
  obtain ⟨⟨_, _, -, htime⟩, -⟩ := h.latestStart
  refine ⟨?_, Value.isFinite_of_time? htime, ?_⟩
  · rwa [h.low]
  · rwa [h.value]

/-- A commit adds a record that can be read back. -/
theorem Committed.exportable (h : Committed s agent after commit)
    (ht : Timeline graph engine initial settings s) (hg : s.graph.KeepsOrder)
    (hall : ∀ r ∈ s.store.records, r.Exportable) : ∀ r ∈ after.store.records, r.Exportable := by
  obtain ⟨r, hlow, hhigh, hvalue, hmoves⟩ := h.moves
  obtain ⟨states, hstep, hget, -⟩ := advanced_eq_ok_iff.1 h.advanced
  have hsnapshot : (s.snapshot commit.low).Ordered :=
    s.store.ordered_merge (fun r hr => (hall r hr).ordered) _
  have hstates := RuleGraph.ordered_of_step hg (Universe.ordered_single hsnapshot) hstep
  have hr : r.Exportable := by
    refine ⟨ht.finite hmoves.low, hmoves.finite, ?_⟩
    rw [hvalue]
    exact States.ordered_single (States.ordered_iff.1 hstates agent _ hget)
  intro r' hr'
  rw [hmoves.records] at hr'
  rcases List.mem_append.1 hr' with hold | hnew
  · exact hall r' hold
  · rwa [List.mem_singleton.1 hnew]

/-- **Every record of a history can be read back as far as its depth allows**: its bounds are finite and
its states are in order. -/
theorem Reachable.exportable (h : Reachable graph engine initial settings s)
    (hlow : settings.seedLow.isFinite = true) (hinitial : initial.Ordered) (hg : graph.KeepsOrder) :
    ∀ r ∈ s.store.records, r.Exportable := by
  let P : Simulation → Prop := fun s => s.graph = graph ∧ ∀ r ∈ s.store.records, r.Exportable
  have start : ∀ s, create graph engine initial settings = .ok s → P s := by
    intro s hs
    obtain ⟨seed, hseeded⟩ := seeded_of_create hs
    refine ⟨(fixed_of_create hs).1, ?_⟩
    rw [hseeded.records]
    exact List.forall_mem_singleton.2 (hseeded.exportable hlow hinitial)
  have step : ∀ s iteration agent, Timeline graph engine initial settings s → P s →
      P ((s.cycle iteration agent).left s) := by
    rintro s iteration agent ht ⟨hgraph, hall⟩
    rcases ht.left_eq_or_committed iteration agent with heq | ⟨commit, hcommitted⟩
    · rw [heq]
      exact ⟨hgraph, hall⟩
    · refine ⟨?_, hcommitted.exportable ht (hgraph ▸ hg) hall⟩
      obtain ⟨r, -, -, -, hmoves⟩ := hcommitted.moves
      rw [hmoves.after]
      exact hgraph
  exact (h.preserves start step).2

end Simulation

end Orrery
