import Orrery.Physics
import Orrery.Proofs.Resolution

/-!
# Outputs are written once

The targets of an agent's rules are compared when a graph is built; the outputs are written when a step
runs, through containers that are made on the way.  This file shows that the first makes the second
safe.

The state of an agent is at every moment of a step what the writes of its calls assemble
(`Execution.assemble_writesOf`).  In an accepted graph the writes of one agent are scattered, so that
each of them finds room (`Execution.refuses_producer`) and none is touched by another
(`Value.at?_assemble_append`).  Nothing is said about the outputs: they may be `null`, a scalar, or a
mapping with any fields.
-/

namespace Orrery

/-- Rules of one agent write beside each other. -/
def Pending.Beside (p q : Pending) : Prop := p.agent = q.agent → p.rule.Beside q.rule

theorem Pending.Beside.symm {p q : Pending} (h : p.Beside q) : q.Beside p :=
  fun heq => (h heq.symm).symm

namespace Step

variable {engine : String} {snapshot : Universe}

/-! ## The rules of an engine -/

theorem agent_of_mem_number {agent : String} {index : Nat} {own : List Rule} {p : Pending}
    (h : p ∈ number agent index own) : p.agent = agent := by
  induction own generalizing index with
  | nil => simp [number] at h
  | cons r rest ih =>
    rcases List.mem_cons.1 h with rfl | h
    · rfl
    · exact ih h

theorem map_rule_number (agent : String) (index : Nat) (own : List Rule) :
    (number agent index own).map (·.rule) = own := by
  induction own generalizing index with
  | nil => rfl
  | cons r rest ih => rw [number, List.map_cons, ih]

/-- A rule is pending exactly when it is a rule of its agent. -/
theorem exists_mem_pendingOf_iff {rules : AgentRules} {agent : String} {r : Rule} :
    (∃ p ∈ pendingOf rules, p.agent = agent ∧ p.rule = r) ↔
      ∃ own, rules.get? agent = some own ∧ r ∈ own := by
  constructor
  · rintro ⟨p, hp, rfl, rfl⟩
    obtain ⟨⟨name, own⟩, he, hp⟩ := List.mem_flatMap.1 hp
    refine ⟨own, ?_, ?_⟩
    · rw [agent_of_mem_number hp]
      exact Table.mem_entries_iff.1 he
    · rw [← map_rule_number name 0 own]
      exact List.mem_map_of_mem hp
  · rintro ⟨own, hown, hr⟩
    rw [← map_rule_number agent 0 own] at hr
    obtain ⟨p, hp, rfl⟩ := List.mem_map.1 hr
    exact ⟨p, List.mem_flatMap.2 ⟨(agent, own), Table.mem_entries_iff.2 hown, hp⟩,
      agent_of_mem_number hp, rfl⟩

/-- In an accepted graph, the rules of an engine write beside each other. -/
theorem pairwise_beside_pendingOf {rules : AgentRules}
    (h : ∀ a ∈ rules.entries, RuleGraph.Sound rules a.2) :
    (pendingOf rules).Pairwise Pending.Beside := by
  refine List.pairwise_flatMap.2 ⟨fun a ha => ?_, ?_⟩
  · have hbeside := (h a ha).beside
    rw [← map_rule_number a.1 0 a.2, List.pairwise_map] at hbeside
    exact hbeside.imp fun {p q} hpq (_ : p.agent = q.agent) => hpq
  · -- rules of different agents have no state in common
    refine rules.sorted.imp fun {a b} hab p hp q hq heq => ?_
    rw [agent_of_mem_number hp, agent_of_mem_number hq] at heq
    rw [heq] at hab
    exact absurd hab (String.lt_irrefl _)

/-! ## What calls write -/

/-- The path and the output that a call writes into the state of an agent. -/
def Call.writeTo? (agent : String) (c : Call) : Option (List String × Value) :=
  if c.agent = agent then
    match c.pending.rule.path?, c.result with
    | some path, .ok output => some (path, output)
    | _, _ => none
  else none

/-- What calls write into the state of an agent, in their order. -/
def writesOf (agent : String) (calls : List Call) : List (List String × Value) :=
  calls.filterMap (Call.writeTo? agent)

theorem Call.writeTo?_eq_some_iff {agent : String} {c : Call} {path : List String}
    {output : Value} :
    c.writeTo? agent = some (path, output) ↔
      c.agent = agent ∧ c.pending.rule.path? = some path ∧ c.result = .ok output := by
  unfold writeTo?
  by_cases h : c.agent = agent
  · rw [if_pos h]
    cases hp : c.pending.rule.path? with
    | none => simp
    | some p =>
      cases hr : c.result with
      | error e => simp
      | ok v => simp [h]
  · simp [h]

theorem mem_writesOf_iff {agent : String} {calls : List Call} {path : List String}
    {output : Value} :
    (path, output) ∈ writesOf agent calls ↔
      ∃ c ∈ calls, c.agent = agent ∧ c.pending.rule.path? = some path ∧ c.result = .ok output := by
  simp only [writesOf, List.mem_filterMap, Call.writeTo?_eq_some_iff]

theorem writesOf_concat (agent : String) (calls : List Call) (c : Call) :
    writesOf agent (calls ++ [c]) = writesOf agent calls ++ (c.writeTo? agent).toList := by
  rw [writesOf, writesOf, List.filterMap_append]
  rfl

/-- Calls of rules that write beside each other make scattered writes. -/
theorem scattered_writesOf {calls : List Call}
    (h : (calls.map (·.pending)).Pairwise Pending.Beside) (agent : String) :
    Value.Scattered (writesOf agent calls) := by
  rw [List.pairwise_map] at h
  refine List.pairwise_filterMap.2 (h.imp fun {c d} hcd => ?_)
  rintro ⟨p, x⟩ hp ⟨q, y⟩ hq
  obtain ⟨hc, hcp, -⟩ := Call.writeTo?_eq_some_iff.1 hp
  obtain ⟨hd, hdq, -⟩ := Call.writeTo?_eq_some_iff.1 hq
  exact hcd (hc.trans hd.symm) p q hcp hdq

/-- **What firing does to the state of an agent**: nothing unless the call writes there, and else one
write, into an empty mapping if the agent has no state yet. -/
theorem Fires.effect {states after : States} {c : Call}
    (h : Fires engine snapshot states c after) (agent : String) :
    (c.writeTo? agent = none ∧ after.get? agent = states.get? agent) ∨
    ∃ path output new, c.writeTo? agent = some (path, output) ∧
      ((states.get? agent).getD (.mapping [])).put path output = some new ∧
      after.get? agent = some new := by
  obtain ⟨output, hresult, hwrite⟩ := h.wrote
  cases hpath : c.pending.rule.path? with
  | none =>
    rw [Rule.path?_eq_none_iff.1 hpath, Scope.write_root, Except.ok.injEq] at hwrite
    exact .inl ⟨by simp [Call.writeTo?, hpath], by rw [hwrite]⟩
  | some path =>
    obtain ⟨htarget, hne⟩ := Rule.path?_eq_some_iff.1 hpath
    obtain ⟨new, hnew, rfl⟩ := (Scope.write_eq_ok_iff _ _ _ htarget hne output).1 hwrite
    by_cases hagent : c.agent = agent
    · subst hagent
      exact .inr ⟨path, output, new, Call.writeTo?_eq_some_iff.2 ⟨rfl, hpath, hresult⟩, hnew,
        Table.get?_insert_self ..⟩
    · exact .inl ⟨by simp [Call.writeTo?, hagent], Table.get?_insert_of_ne _ _ hagent⟩

/-- Firing leaves the states of other agents alone. -/
theorem Fires.get?_of_ne {states after : States} {c : Call}
    (h : Fires engine snapshot states c after) {agent : String} (hne : c.agent ≠ agent) :
    after.get? agent = states.get? agent := by
  rcases h.effect agent with ⟨-, hget⟩ | ⟨path, output, new, hwrite, -, -⟩
  · exact hget
  · exact absurd (Call.writeTo?_eq_some_iff.1 hwrite).1 hne

/-! ## The state of an agent during a step -/

variable {calls : List Call} {states start : States}

/-- **At every moment of a step, the state of an agent is what the writes of its calls assemble.** -/
theorem Execution.assemble_writesOf (h : Execution engine snapshot Table.empty calls states)
    (agent : String) :
    Value.assemble (writesOf agent calls) = some ((states.get? agent).getD (.mapping [])) := by
  induction h with
  | nil => rfl
  | concat _ fires ih =>
    rw [writesOf_concat]
    rcases fires.effect agent with ⟨hnone, hget⟩ | ⟨path, output, new, hwrite, hnew, hget⟩
    · rw [hnone, Option.toList_none, List.append_nil, hget]
      exact ih
    · rw [hwrite, Option.toList_some, Value.assemble_concat, ih, Option.bind_some, hnew, hget,
        Option.getD_some]

/-- An agent has a state exactly when one of its calls has written. -/
theorem Execution.get?_eq_none_iff (h : Execution engine snapshot Table.empty calls states)
    (agent : String) : states.get? agent = none ↔ writesOf agent calls = [] := by
  induction h with
  | nil => simp [writesOf]
  | concat _ fires ih =>
    rw [writesOf_concat]
    rcases fires.effect agent with ⟨hnone, hget⟩ | ⟨path, output, new, hwrite, hnew, hget⟩
    · rw [hnone, Option.toList_none, List.append_nil, hget]
      exact ih
    · simp [hwrite, hget]

/-- The state of an agent that has one, in terms of its writes. -/
theorem Execution.assemble_of_get? (h : Execution engine snapshot Table.empty calls states)
    {agent : String} {v : Value} (hv : states.get? agent = some v) :
    Value.assemble (writesOf agent calls) = some v := by
  rw [h.assemble_writesOf agent, hv, Option.getD_some]

/-- **A call that fails is refused by its producer**, as long as rules write beside each other: its
output would have found room. -/
theorem Execution.refuses_producer (h : Execution engine snapshot Table.empty calls states)
    {c : Call} {e : StepError}
    (hbeside : ((calls ++ [c]).map (·.pending)).Pairwise Pending.Beside)
    (hrefuses : Refuses engine snapshot states c e) :
    ∃ cause, c.result = .error cause ∧
      e = .producer ⟨engine, c.agent, c.pending.index⟩ c.pending.rule.function cause := by
  rcases hrefuses.failed with hproducer | ⟨output, cause, hresult, hwrite, -⟩
  · exact hproducer
  · exfalso
    cases hpath : c.pending.rule.path? with
    | none =>
      rw [Rule.path?_eq_none_iff.1 hpath, Scope.write_root] at hwrite
      exact absurd hwrite (by simp)
    | some path =>
      obtain ⟨htarget, hne⟩ := Rule.path?_eq_some_iff.1 hpath
      have hscattered := scattered_writesOf hbeside c.agent
      have hwritten : c.writeTo? c.agent = some (path, output) :=
        Call.writeTo?_eq_some_iff.2 ⟨rfl, hpath, hresult⟩
      rw [writesOf_concat, hwritten, Option.toList_some, Value.scattered_concat] at hscattered
      obtain ⟨new, hnew⟩ := Value.exists_put_assemble (h.assemble_writesOf c.agent) hscattered.2 output
      have hok := (Scope.write_eq_ok_iff (scopeOf engine snapshot c.pending) states _ htarget hne
        output).2 ⟨new, hnew, rfl⟩
      rw [hok] at hwrite
      exact absurd hwrite (by simp)

/-- Every call of a run that has not failed was answered with an output. -/
theorem Execution.exists_output (h : Execution engine snapshot start calls states) :
    ∀ c ∈ calls, ∃ output, c.result = .ok output := by
  induction h with
  | nil => simp
  | concat _ fires ih =>
    intro c hc
    rcases List.mem_append.1 hc with hc | hc
    · exact ih c hc
    · obtain ⟨output, hresult, -⟩ := fires.wrote
      rw [List.mem_singleton.1 hc]
      exact ⟨output, hresult⟩

/-- **What a call has written stays**: below its target, its output is read. -/
theorem Execution.at?_target (h : Execution engine snapshot Table.empty calls states)
    (hbeside : (calls.map (·.pending)).Pairwise Pending.Beside) {c : Call} (hc : c ∈ calls)
    {path : List String} {output : Value} (hpath : c.pending.rule.path? = some path)
    (hresult : c.result = .ok output) (rest : List String) :
    ((states.get? c.agent).bind fun v => v.at? (path ++ rest)) = output.at? rest := by
  have hmem : (path, output) ∈ writesOf c.agent calls :=
    mem_writesOf_iff.2 ⟨c, hc, rfl, hpath, hresult⟩
  cases hv : states.get? c.agent with
  | none =>
    rw [(h.get?_eq_none_iff c.agent).1 hv] at hmem
    exact absurd hmem (by simp)
  | some v =>
    exact Value.at?_assemble_append (h.assemble_of_get? hv) (scattered_writesOf hbeside c.agent)
      hmem rest

/-- Whatever is found in the state of an agent lies above a target that was written, or comes from the
output written there. -/
theorem Execution.at?_cases (h : Execution engine snapshot Table.empty calls states)
    {agent : String} {v u : Value} {path : List String} (hv : states.get? agent = some v)
    (hu : v.at? path = some u) :
    (∃ c ∈ calls, c.agent = agent ∧ ∃ target, c.pending.rule.path? = some target ∧
      path <+: target) ∨
    ∃ c ∈ calls, c.agent = agent ∧ ∃ target output rest, c.pending.rule.path? = some target ∧
      c.result = .ok output ∧ path = target ++ rest ∧ output.at? rest = some u := by
  rcases Value.at?_assemble_cases (h.assemble_of_get? hv) hu with
    rfl | ⟨⟨target, output⟩, hw, hpre⟩ | ⟨⟨target, output⟩, hw, rest, heq, hrest⟩
  · -- the whole state is above any target, and there is one because there is a state
    have hne : writesOf agent calls ≠ [] := fun hnil => by
      rw [(h.get?_eq_none_iff agent).2 hnil] at hv
      exact absurd hv (by simp)
    obtain ⟨⟨target, output⟩, hw⟩ := List.exists_mem_of_ne_nil _ hne
    obtain ⟨c, hc, hagent, hpath, -⟩ := mem_writesOf_iff.1 hw
    exact .inl ⟨c, hc, hagent, target, hpath, List.nil_prefix⟩
  · obtain ⟨c, hc, hagent, hpath, -⟩ := mem_writesOf_iff.1 hw
    exact .inl ⟨c, hc, hagent, target, hpath, hpre⟩
  · obtain ⟨c, hc, hagent, hpath, hresult⟩ := mem_writesOf_iff.1 hw
    exact .inr ⟨c, hc, hagent, target, output, rest, hpath, hresult, heq, hrest⟩

/-! ## Steps of accepted graphs -/

variable {pending left : List Pending}

/-- The calls of a step that settles are of rules that write beside each other. -/
theorem Settles.beside {after : States} (h : Settles engine snapshot states pending calls after left)
    (hbeside : pending.Pairwise Pending.Beside) :
    (calls.map (·.pending)).Pairwise Pending.Beside := by
  have hall := (h.perm.pairwise_iff fun hpq => hpq.symm).1 hbeside
  exact hall.sublist (List.sublist_append_left _ _)

/-- **A step that breaks off is refused by a producer**, if the rules write beside each other. -/
theorem Breaks.producer {c : Call} {e : StepError}
    (h : Breaks engine snapshot Table.empty pending calls c e)
    (hbeside : pending.Pairwise Pending.Beside) :
    ∃ cause, c.result = .error cause ∧
      e = .producer ⟨engine, c.agent, c.pending.index⟩ c.pending.rule.function cause := by
  obtain ⟨rest, hperm⟩ := h.perm
  have hall := (hperm.pairwise_iff fun hpq => hpq.symm).1 hbeside
  obtain ⟨last, hlast, hrefuses⟩ := h.execution_nil
  exact hlast.refuses_producer (hall.sublist (List.sublist_append_left _ _)) hrefuses

/-- When all rules of an engine have been called, the agents with a state are those with a target. -/
theorem Settles.exists_get?_iff {rules : AgentRules} {after : States}
    (h : Settles engine snapshot Table.empty (pendingOf rules) calls after []) (agent : String) :
    (∃ v, after.get? agent = some v) ↔
      ∃ own, rules.get? agent = some own ∧ ∃ r ∈ own, ∃ path, r.path? = some path := by
  have hexec := h.execution_nil
  have hperm := h.perm_of_nil
  rw [← Option.isSome_iff_exists, ← Option.ne_none_iff_isSome, ne_eq,
    hexec.get?_eq_none_iff agent]
  constructor
  · intro hne
    obtain ⟨⟨path, output⟩, hw⟩ := List.exists_mem_of_ne_nil _ hne
    obtain ⟨c, hc, hagent, hpath, -⟩ := mem_writesOf_iff.1 hw
    have hp : c.pending ∈ pendingOf rules := hperm.mem_iff.2 (List.mem_map_of_mem hc)
    obtain ⟨own, hown, hr⟩ := exists_mem_pendingOf_iff.1 ⟨c.pending, hp, hagent, rfl⟩
    exact ⟨own, hown, c.pending.rule, hr, path, hpath⟩
  · rintro ⟨own, hown, r, hr, path, hpath⟩ hnil
    obtain ⟨p, hp, hagent, rfl⟩ := exists_mem_pendingOf_iff.2 ⟨own, hown, hr⟩
    obtain ⟨c, hc, rfl⟩ := List.mem_map.1 (hperm.mem_iff.1 hp)
    obtain ⟨output, hresult⟩ := hexec.exists_output c hc
    have hw : (path, output) ∈ writesOf agent calls :=
      mem_writesOf_iff.2 ⟨c, hc, hagent, hpath, hresult⟩
    rw [hnil] at hw
    exact absurd hw (by simp)

/-- What the calls of a finished step have to do with the states it comes to: every rule was called
once, what it answered stands at its target, and there is nothing else. -/
structure WrittenOnce (engine : String) (snapshot : Universe) (rules : AgentRules)
    (calls : List Call) (states : States) : Prop where
  /-- These are the calls of the step. -/
  settles : Settles engine snapshot Table.empty (pendingOf rules) calls states []
  /-- They are of all rules, once each. -/
  once : (calls.map (·.pending)).Perm (pendingOf rules)
  /-- Every rule has answered, and where it has a target, the answer is there. -/
  holds : ∀ c ∈ calls, ∃ output, c.result = .ok output ∧
    ∀ path, c.pending.rule.path? = some path →
      ((states.get? c.agent).bind fun v => v.at? path) = some output
  /-- The agents with a state are those with a target. -/
  agents : ∀ agent, (∃ v, states.get? agent = some v) ↔
    ∃ own, rules.get? agent = some own ∧ ∃ r ∈ own, ∃ path, r.path? = some path
  /-- A path of a state leads to a target, or continues one inside the answer given there. -/
  nothingElse : ∀ agent v path u, states.get? agent = some v → v.at? path = some u →
    (∃ own, rules.get? agent = some own ∧ ∃ r ∈ own, ∃ target, r.path? = some target ∧
      path <+: target) ∨
    ∃ c ∈ calls, c.agent = agent ∧ ∃ target output rest, c.pending.rule.path? = some target ∧
      c.result = .ok output ∧ path = target ++ rest ∧ output.at? rest = some u

theorem Settles.writtenOnce {rules : AgentRules} {after : States}
    (h : Settles engine snapshot Table.empty (pendingOf rules) calls after [])
    (hbeside : (pendingOf rules).Pairwise Pending.Beside) :
    WrittenOnce engine snapshot rules calls after := by
  have hexec := h.execution_nil
  have hperm := h.perm_of_nil
  refine ⟨h, hperm.symm, ?_, h.exists_get?_iff, ?_⟩
  · intro c hc
    obtain ⟨output, hresult⟩ := hexec.exists_output c hc
    refine ⟨output, hresult, fun path hpath => ?_⟩
    have hat := hexec.at?_target (h.beside hbeside) hc hpath hresult []
    rwa [List.append_nil] at hat
  · intro agent v path u hv hu
    rcases hexec.at?_cases hv hu with ⟨c, hc, hagent, target, hpath, hpre⟩ | hbelow
    · have hp : c.pending ∈ pendingOf rules := hperm.mem_iff.2 (List.mem_map_of_mem hc)
      obtain ⟨own, hown, hr⟩ := exists_mem_pendingOf_iff.1 ⟨c.pending, hp, hagent, rfl⟩
      exact .inl ⟨own, hown, c.pending.rule, hr, target, hpath, hpre⟩
    · exact .inr hbelow

end Step

namespace RuleGraph

/-- **A step of an accepted graph never fails to write, and writes everything once.** -/
theorem step_written_once {engines : Table AgentRules} {g : RuleGraph} {engine : String}
    {rules : AgentRules} (hg : ofRules engines = .ok g) (hr : g.agents engine = .ok rules)
    (snapshot : Universe) :
    (∀ place cause, g.step engine snapshot ≠ .error (.write place cause)) ∧
    ∀ states, g.step engine snapshot = .ok states →
      ∃ calls, Step.WrittenOnce engine snapshot rules calls states := by
  have hbeside := Step.pairwise_beside_pendingOf (sound_of_ofRules hg hr)
  rw [step_eq hr]
  rcases Step.resolve_cases engine snapshot Table.empty (Step.pendingOf rules) with
    ⟨calls, after, passes, hsettles, hok⟩ | ⟨calls, after, left, -, -, hdead⟩ |
    ⟨calls, c, e, hbreaks, herror⟩
  · rw [hok]
    refine ⟨fun place cause h => by simp [Except.map] at h, fun states h => ?_⟩
    obtain rfl : after = states := by simpa [Except.map] using h
    exact ⟨calls, hsettles.writtenOnce hbeside⟩
  · rw [hdead]
    exact ⟨fun place cause h => by simp [Except.map] at h,
      fun states h => by simp [Except.map] at h⟩
  · obtain ⟨cause, -, rfl⟩ := hbreaks.producer hbeside
    rw [herror]
    exact ⟨fun place cause h => by simp [Except.map] at h,
      fun states h => by simp [Except.map] at h⟩

end RuleGraph

/-! ## A small sky

The moon's first rule waits for what its second one writes into a nested place, its third one discards
its result, and the sun has no target at all. -/

namespace Sky

/-- The rules of the moon. -/
def moon : List Rule :=
  [⟨.access (.base "place") "x", .base "seen", "identity", Producer.identity, rfl⟩,
   ⟨.prev (.base "x"), .access (.base "place") "x", "identity", Producer.identity, rfl⟩,
   ⟨.prev .root, .root, "identity", Producer.identity, rfl⟩]

/-- The rules of the sun. -/
def sun : List Rule := [⟨.agent "moon", .root, "identity", Producer.identity, rfl⟩]

/-- The rules of both. -/
def rules : AgentRules := ⟨[("moon", moon), ("sun", sun)], List.pairwise_pair.2 (by decide)⟩

/-- One engine. -/
def engines : Table AgentRules := Table.single "sky" rules

/-- What was committed: the moon is somewhere, but nothing is known about it. -/
def snapshot : Universe :=
  Table.single "sky" (Table.ofList [("moon", .mapping [("x", .null)]), ("sun", .null)])

/-- What a step comes to. -/
def after : States :=
  Table.single "moon" (.mapping [("place", .mapping [("x", .null)]), ("seen", .null)])

theorem step_after : (⟨engines⟩ : RuleGraph).step "sky" snapshot = .ok after := by decide +kernel

end Sky

/-- In the small sky, where one rule waits for another, a step comes to an end and writes once. -/
theorem RuleGraph.sky_written_once :
    ofRules Sky.engines = .ok ⟨Sky.engines⟩ ∧
    (⟨Sky.engines⟩ : RuleGraph).agents "sky" = .ok Sky.rules ∧
    ∃ calls, Step.WrittenOnce "sky" Sky.snapshot Sky.rules calls Sky.after := by
  have hg : ofRules Sky.engines = .ok ⟨Sky.engines⟩ := rfl
  have hr : (⟨Sky.engines⟩ : RuleGraph).agents "sky" = .ok Sky.rules := rfl
  exact ⟨hg, hr, (step_written_once hg hr Sky.snapshot).2 Sky.after Sky.step_after⟩

end Orrery
