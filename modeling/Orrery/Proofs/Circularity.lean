import Orrery.Proofs.Accounting
import Mathlib.Data.Set.Insert

/-!
# Rules that wait for each other

A rule that reads a field under construction waits until some rule has written there.  When all rules
that could do it wait in turn, nothing ever comes: two rules that read each other's targets, a cycle of any
length, a rule that reads what no rule writes.  What these have in common is a *closed* set of rules
(`AgentRules.Closed`): each of them reads a field of its agent's state under construction, and whichever
rule of that agent writes the field, or a place inside it, belongs to the set.

The argument looks at the first call of such a rule.  Its field is there at that moment, and what is
there was put there by an earlier call of the same agent (`Execution.at?_cases`): either the output of that
call, or a container made on the way to its target.  In both cases the target begins with the field, so
the earlier call was one of the set as well, and the first call was not the first.

* `Query.ReadsField`: the field is read outside `prev`, below any nesting of `access` and `tuple`.
* `AgentRules.Closed.call?_eq_none`: while no rule of the set has been called, none can be.
* `Execution.not_closed`: hence none ever is, whatever is called around them.
* `RuleGraph.step_closed`: a step does not come to an end, and unless a producer fails, it reports all of
  the set as stuck.
-/

namespace Orrery

/-- A query reads a field of the subject's state under construction. -/
inductive Query.ReadsField (field : String) : Query → Prop
  /-- The field itself. -/
  | base : ReadsField field (.base field)
  /-- The field, as one of the whole state. -/
  | root : ReadsField field (.access .root field)
  /-- Something inside. -/
  | access {container : Query} {other : String} (inner : ReadsField field container) :
      ReadsField field (.access container other)
  /-- Together with other things. -/
  | tuple {items : List Query} {q : Query} (mem : q ∈ items) (inner : ReadsField field q) :
      ReadsField field (.tuple items)

namespace Scope

variable {s : Scope} {states : States}

/-- A tuple is found only if each of its items is. -/
theorem exists_lookup?_of_mem {previous : Bool} {items : List Query} {values : List Value}
    (h : s.lookupItems? states previous items = some values) {q : Query} (hq : q ∈ items) :
    ∃ v, s.lookup? states previous q = some v := by
  induction items generalizing values with
  | nil => simp at hq
  | cons first rest ih =>
    rw [lookupItems?] at h
    cases hfirst : s.lookup? states previous first with
    | none =>
      rw [hfirst] at h
      cases h
    | some v =>
      rw [hfirst] at h
      obtain ⟨others, hothers, -⟩ := Option.map_eq_some_iff.1 h
      rcases List.mem_cons.1 hq with rfl | hq
      · exact ⟨v, hfirst⟩
      · exact ih hothers hq

/-- **A query that reads a field is found only if the field is there.** -/
theorem exists_under?_of_readsField {field : String} {q : Query} (hq : q.ReadsField field) {v : Value}
    (h : s.lookup? states false q = some v) : ∃ u, s.under? states [field] = some u := by
  induction hq generalizing v with
  | base => exact ⟨v, by rwa [s.lookup?_false_of_path rfl] at h⟩
  | root => exact ⟨v, by rwa [s.lookup?_false_of_path rfl] at h⟩
  | access _ ih =>
    rw [lookup?] at h
    obtain ⟨inner, hinner, -⟩ := Option.bind_eq_some_iff.1 h
    exact ih hinner
  | tuple mem _ ih =>
    rw [lookup?] at h
    obtain ⟨values, hvalues, -⟩ := Option.map_eq_some_iff.1 h
    obtain ⟨w, hw⟩ := exists_lookup?_of_mem hvalues mem
    exact ih hw

end Scope

/-- Rules of an engine, given by their places, that wait for nothing but each other. -/
structure AgentRules.Closed (rules : AgentRules) (C : Set (String × Nat)) : Prop where
  /-- There is one. -/
  nonempty : C.Nonempty
  /-- Each reads a field under construction, and all rules of its agent that write there are among
  them. -/
  waits : ∀ place ∈ C, ∃ r field, rules.ruleAt? place = some r ∧ r.consumed.ReadsField field ∧
    ∀ index writer, rules.ruleAt? (place.1, index) = some writer →
      (∃ rest, writer.path? = some (field :: rest)) → (place.1, index) ∈ C

namespace Step

variable {engine : String} {snapshot : Universe} {states : States} {calls : List Call}
variable {rules : AgentRules} {C : Set (String × Nat)}

/-- A field that is there was written by a call, or made on the way to the target of one. -/
theorem Execution.exists_writer (h : Execution engine snapshot Table.empty calls states)
    {agent field : String} {v u : Value} (hv : states.get? agent = some v)
    (hu : v.at? [field] = some u) :
    ∃ c ∈ calls, c.agent = agent ∧ ∃ rest, c.pending.rule.path? = some (field :: rest) := by
  rcases h.at?_cases hv hu with
    ⟨c, hc, hagent, target, htarget, hpre⟩ | ⟨c, hc, hagent, target, output, rest, htarget, -, heq, -⟩
  · obtain ⟨rest, rfl⟩ := hpre
    exact ⟨c, hc, hagent, rest, htarget⟩
  · -- a target leads somewhere, so it is the field
    obtain ⟨-, hne⟩ := Rule.path?_eq_some_iff.1 htarget
    cases target with
    | nil => exact absurd rfl hne
    | cons f more =>
      obtain ⟨rfl, -⟩ := List.cons.inj heq
      exact ⟨c, hc, hagent, more, htarget⟩

/-- **While no rule of a closed set has been called, none of them can be.** -/
theorem Execution.call?_eq_none_of_closed (h : Execution engine snapshot Table.empty calls states)
    (hC : rules.Closed C) (hknown : ∀ c ∈ calls, rules.ruleAt? c.pending.place = some c.pending.rule)
    (hnone : ∀ c ∈ calls, c.pending.place ∉ C) {p : Pending}
    (hp : rules.ruleAt? p.place = some p.rule) (hmem : p.place ∈ C) :
    call? engine snapshot states p = none := by
  obtain ⟨r, field, hr, hreads, hwriters⟩ := hC.waits p.place hmem
  obtain rfl : p.rule = r := Option.some.inj (hp.symm.trans hr)
  refine Option.map_eq_none_iff.2 (Option.eq_none_iff_forall_ne_some.2 fun input hinput => ?_)
  obtain ⟨u, hu⟩ := Scope.exists_under?_of_readsField hreads hinput
  obtain ⟨v, hv, hat⟩ := Option.bind_eq_some_iff.1 hu
  obtain ⟨c, hc, hagent, hwrites⟩ := h.exists_writer hv hat
  have hplace : c.pending.place = (p.place.1, c.pending.index) := Prod.ext hagent rfl
  have hwriter := hwriters c.pending.index c.pending.rule (hplace ▸ hknown c hc) hwrites
  exact hnone c hc (hplace ▸ hwriter)

/-- **No rule of a closed set is ever called**, whatever is called around them. -/
theorem Execution.not_closed (h : Execution engine snapshot Table.empty calls states)
    (hC : rules.Closed C)
    (hknown : ∀ c ∈ calls, rules.ruleAt? c.pending.place = some c.pending.rule) :
    ∀ c ∈ calls, c.pending.place ∉ C := by
  induction h with
  | nil => simp
  | @concat calls c states after before fires ih =>
    rw [List.forall_mem_append, List.forall_mem_singleton] at hknown ⊢
    refine ⟨ih hknown.1, fun hmem => ?_⟩
    have hidle := before.call?_eq_none_of_closed hC hknown.1 (ih hknown.1) hknown.2 hmem
    rw [fires.called] at hidle
    cases hidle

/-- The account of a step lists no rule of a closed set, however the step ends. -/
theorem not_closed_of_mem_log (engine : String) (snapshot : Universe) (hC : rules.Closed C) :
    ∀ c ∈ (log engine snapshot Table.empty (pendingOf rules)).flatten, c.pending.place ∉ C := by
  obtain ⟨rest, hperm⟩ := exists_perm_log engine snapshot Table.empty (pendingOf rules)
  have hknown : ∀ c ∈ (log engine snapshot Table.empty (pendingOf rules)).flatten,
      rules.ruleAt? c.pending.place = some c.pending.rule := fun c hc =>
    ruleAt?_place (hperm.mem_iff.2 (List.mem_append_left _ (List.mem_map_of_mem hc)))
  rcases settles_or_breaks Table.empty (pendingOf rules) with
    ⟨calls, after, left, hsettles⟩ | ⟨calls, c, e, hbreaks⟩
  · rw [flatten_log_of_settles hsettles] at hknown ⊢
    exact hsettles.execution_nil.not_closed hC hknown
  · rw [flatten_log_of_breaks hbreaks] at hknown ⊢
    obtain ⟨last, hlast, hrefuses⟩ := hbreaks.execution_nil
    rw [List.forall_mem_append, List.forall_mem_singleton] at hknown ⊢
    have hcalls := hlast.not_closed hC hknown.1
    refine ⟨hcalls, fun hmem => ?_⟩
    have hidle := hlast.call?_eq_none_of_closed hC hknown.1 hcalls hknown.2 hmem
    rw [hrefuses.called] at hidle
    cases hidle

/-- The rule at a place is pending when a step begins. -/
theorem exists_pending_of_ruleAt? {place : String × Nat} {r : Rule}
    (h : rules.ruleAt? place = some r) : ∃ p ∈ pendingOf rules, p.place = place ∧ p.rule = r := by
  obtain ⟨own, hown, hget⟩ := Option.bind_eq_some_iff.1 h
  obtain ⟨hlt, -⟩ := List.getElem?_eq_some_iff.1 hget
  have hplace : place ∈ rules.places :=
    List.mem_flatMap.2 ⟨(place.1, own), Table.mem_entries_iff.2 hown,
      List.mem_map.2 ⟨place.2, List.mem_range.2 hlt, rfl⟩⟩
  rw [← map_place_pendingOf] at hplace
  obtain ⟨p, hp, rfl⟩ := List.mem_map.1 hplace
  exact ⟨p, hp, rfl, Option.some.inj ((ruleAt?_place hp).symm.trans h)⟩

/-- Every rule of a closed set is left when a step settles. -/
theorem Settles.exists_left_of_closed {after : States} {left : List Pending}
    (h : Settles engine snapshot Table.empty (pendingOf rules) calls after left) (hC : rules.Closed C)
    {place : String × Nat} (hplace : place ∈ C) :
    ∃ p ∈ left, p.place = place ∧ rules.ruleAt? place = some p.rule := by
  obtain ⟨r, -, hr, -, -⟩ := hC.waits place hplace
  obtain ⟨p, hp, rfl, rfl⟩ := exists_pending_of_ruleAt? hr
  have hlog := not_closed_of_mem_log engine snapshot hC
  rw [flatten_log_of_settles h] at hlog
  rcases List.mem_append.1 (h.perm.mem_iff.1 hp) with hcalled | hleft
  · obtain ⟨c, hc, rfl⟩ := List.mem_map.1 hcalled
    exact absurd hplace (hlog c hc)
  · exact ⟨p, hleft, rfl, hr⟩

end Step

/-- **Circular and unsatisfiable dependencies never succeed.**  In a step of an accepted graph no rule of
a closed set is called, so the step does not come to an end.  If no producer fails on the way, the step is
stuck, and reports every rule of the set. -/
theorem RuleGraph.step_closed {engines : Table AgentRules} {g : RuleGraph} {engine : String}
    {rules : AgentRules} (hg : ofRules engines = .ok g) (hr : g.agents engine = .ok rules)
    {C : Set (String × Nat)} (hC : rules.Closed C) (snapshot : Universe) :
    (∀ states, g.step engine snapshot ≠ .ok states) ∧
    (∀ c ∈ (Step.log engine snapshot Table.empty (Step.pendingOf rules)).flatten,
      c.pending.place ∉ C) ∧
    ((∀ c ∈ (Step.log engine snapshot Table.empty (Step.pendingOf rules)).flatten,
        ∃ output, c.result = .ok output) →
      ∃ stuck, g.step engine snapshot = .error (.deadlock engine stuck) ∧
        ∀ place ∈ C, ∃ r, rules.ruleAt? place = some r ∧
          ⟨place.1, place.2, r.function, r.consumed⟩ ∈ stuck) := by
  have hbeside := Step.pairwise_beside_pendingOf (sound_of_ofRules hg hr)
  have hlog := Step.not_closed_of_mem_log engine snapshot hC
  rw [step_eq hr]
  rcases Step.resolve_cases engine snapshot Table.empty (Step.pendingOf rules) with
    ⟨calls, after, passes, hsettles, -⟩ | ⟨calls, after, left, hsettles, hleft, hdead⟩ |
    ⟨calls, c, e, hbreaks, herror⟩
  · -- nothing would be left, but the set is not empty
    obtain ⟨place, hplace⟩ := hC.nonempty
    obtain ⟨p, hp, -, -⟩ := hsettles.exists_left_of_closed hC hplace
    cases hp
  · rw [hdead]
    refine ⟨fun states h => by simp [Except.map] at h, hlog, fun _ => ⟨_, rfl, fun place hplace => ?_⟩⟩
    obtain ⟨p, hp, rfl, hrule⟩ := hsettles.exists_left_of_closed hC hplace
    exact ⟨p.rule, hrule, List.mem_map_of_mem hp⟩
  · rw [herror]
    refine ⟨fun states h => by simp [Except.map] at h, hlog, fun hanswered => ?_⟩
    obtain ⟨cause, hcause, -⟩ := hbreaks.producer hbeside
    rw [Step.flatten_log_of_breaks hbreaks, List.forall_mem_append,
      List.forall_mem_singleton] at hanswered
    obtain ⟨output, houtput⟩ := hanswered.2
    rw [hcause] at houtput
    cases houtput

/-! ## A round dance

The moon's first two rules wait for each other, one for a place inside what the other writes.  The third
goes ahead, and the last one waits for a glow that no rule makes. -/

namespace RoundDance

/-- The rules of the moon. -/
def moon : List Rule :=
  [⟨.access (.base "sighting") "far", .access (.base "orbit") "x", "identity", Producer.identity, rfl⟩,
   ⟨.base "orbit", .base "sighting", "identity", Producer.identity, rfl⟩,
   ⟨.prev (.base "x"), .base "free", "identity", Producer.identity, rfl⟩,
   ⟨.tuple [.base "free", .access .root "glow"], .base "shade", "time_manager", Producer.timeManager,
    rfl⟩]

/-- There are no others. -/
def rules : AgentRules := Table.single "moon" moon

/-- One engine. -/
def engines : Table AgentRules := Table.single "sky" rules

/-- What was committed. -/
def snapshot : Universe := Table.single "sky" (Table.single "moon" (.mapping [("x", .null)]))

/-- All rules of the moon but the third. -/
def dancers : Set (String × Nat) := {("moon", 0), ("moon", 1), ("moon", 3)}

/-- Whoever writes another field than `free` takes part. -/
theorem mem_dancers {index : Nat} {writer : Rule} {field : String} {rest : List String}
    (hwriter : rules.ruleAt? ("moon", index) = some writer)
    (hpath : writer.path? = some (field :: rest)) (hfield : field ≠ "free") :
    ("moon", index) ∈ dancers := by
  match index with
  | 0 | 1 | 3 => simp [dancers]
  | 2 =>
    obtain rfl := Option.some.inj hwriter
    obtain ⟨rfl, -⟩ := List.cons.inj (Option.some.inj hpath)
    exact absurd rfl hfield
  | n + 4 => cases hwriter

/-- They wait for each other, or for nothing. -/
theorem closed_dancers : rules.Closed dancers := by
  refine ⟨⟨("moon", 0), by simp [dancers]⟩, ?_⟩
  rintro place (rfl | rfl | rfl)
  · exact ⟨_, "sighting", rfl, .access .base, fun _ _ hwriter ⟨_, hpath⟩ =>
      mem_dancers hwriter hpath (by decide)⟩
  · exact ⟨_, "orbit", rfl, .base, fun _ _ hwriter ⟨_, hpath⟩ =>
      mem_dancers hwriter hpath (by decide)⟩
  · exact ⟨_, "glow", rfl, .tuple (by simp) .root, fun _ _ hwriter ⟨_, hpath⟩ =>
      mem_dancers hwriter hpath (by decide)⟩

/-- The third rule is called, and its producer answers. -/
theorem answered : ∀ c ∈ (Step.log "sky" snapshot Table.empty (Step.pendingOf rules)).flatten,
    ∃ output, c.result = .ok output := by
  have hall : (Step.log "sky" snapshot Table.empty (Step.pendingOf rules)).flatten.all
      (fun c => c.result.isOk) = true := by decide +kernel
  intro c hc
  have hok := List.all_eq_true.1 hall c hc
  cases hresult : c.result with
  | ok output => exact ⟨output, rfl⟩
  | error cause =>
    rw [hresult] at hok
    cases hok

end RoundDance

/-- In the round dance all rules but one are stuck. -/
theorem RuleGraph.roundDance_closed :
    ofRules RoundDance.engines = .ok ⟨RoundDance.engines⟩ ∧
    (⟨RoundDance.engines⟩ : RuleGraph).agents "sky" = .ok RoundDance.rules ∧
    RoundDance.rules.Closed RoundDance.dancers ∧
    ∃ stuck, (⟨RoundDance.engines⟩ : RuleGraph).step "sky" RoundDance.snapshot =
        .error (.deadlock "sky" stuck) ∧
      ∀ place ∈ RoundDance.dancers, ∃ r, RoundDance.rules.ruleAt? place = some r ∧
        ⟨place.1, place.2, r.function, r.consumed⟩ ∈ stuck := by
  have hg : ofRules RoundDance.engines = .ok ⟨RoundDance.engines⟩ := rfl
  have hr : (⟨RoundDance.engines⟩ : RuleGraph).agents "sky" = .ok RoundDance.rules := rfl
  exact ⟨hg, hr, RoundDance.closed_dancers,
    (step_closed hg hr RoundDance.closed_dancers RoundDance.snapshot).2.2 RoundDance.answered⟩

end Orrery
