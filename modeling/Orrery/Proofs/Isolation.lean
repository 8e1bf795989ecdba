import Orrery.Proofs.WriteOnce

/-!
# Agents do not see each other within a step

A step goes through the rules of all agents together, with one table of states under construction and
one test for a pass that calls nothing.  Still it is no more than a step of every agent by itself.

The reason is in `call?_congr` and `Fires.transfer`: whether a rule can be called, what it answers, and
what its output does depend on its own agent's state.  So the part of a pass that belongs to one agent
is a pass over that agent's rules (`Passes.alone`).  Counting passes is the only trouble: an agent may
have nothing to call while others go on, where by itself it would have stopped.  But such a pass
changes nothing for it, so the rest of the step is a run of the agent from the same place
(`Settles.alone`), and what it can no longer call is left in both.
-/

namespace Orrery

namespace Scope

/-- How a change in place ends depends on the agent's state only. -/
theorem changeAt_snd_congr {states other : States} {agent : String}
    (h : other.get? agent = states.get? agent) (change : Change) (q : Query) :
    (changeAt other agent change q).2 = (changeAt states agent change q).2 := by
  induction q using Query.checkWriteTarget.induct generalizing change with
  | case1 => simp only [changeAt, changeState, h]
  | case2 field => simp only [changeAt, changeState, h]
  | case3 container field ih => exact ih _
  | case4 q h1 h2 h3 => rw [changeAt.eq_4 _ _ _ q h1 h2 h3, changeAt.eq_4 _ _ _ q h1 h2 h3]

/-- A write that fails depends on the subject's state only. -/
theorem write_eq_error_congr (s : Scope) {states other : States}
    (h : other.get? s.agent = states.get? s.agent) {q : Query} {value : Value}
    {e : Query.WriteError} (hwrite : s.write states q value = .error e) :
    s.write other q value = .error e := by
  rw [write_eq_error_iff] at hwrite ⊢
  rw [← hwrite]
  unfold assign
  split
  · rfl
  · exact changeAt_snd_congr h _ q

end Scope

namespace Step

variable {engine : String} {snapshot : Universe} {states after other : States} {agent : String}

/-! ## One agent's part of a pass -/

/-- A call depends on the state of its agent only. -/
theorem call?_congr {p : Pending} (h : other.get? p.agent = states.get? p.agent) :
    call? engine snapshot other p = call? engine snapshot states p := by
  have hsubject : (scopeOf engine snapshot p).subject? other false =
      (scopeOf engine snapshot p).subject? states false := h
  rw [call?, call?, Scope.resolve?, Scope.resolve?, Scope.lookup?_congr _ hsubject]

/-- **What a rule does to its agent's state, it does wherever that state is the same.** -/
theorem Fires.transfer {c : Call} (h : Fires engine snapshot states c after)
    (heq : other.get? c.agent = states.get? c.agent) :
    ∃ after', Fires engine snapshot other c after' ∧ after'.get? c.agent = after.get? c.agent := by
  have hcalled : call? engine snapshot other c.pending = some c := by
    rw [call?_congr heq]
    exact h.called
  obtain ⟨output, hresult, hwrite⟩ := h.wrote
  cases hpath : c.pending.rule.path? with
  | none =>
    have hroot := Rule.path?_eq_none_iff.1 hpath
    rw [hroot, Scope.write_root, Except.ok.injEq] at hwrite
    refine ⟨other, ⟨hcalled, output, hresult, ?_⟩, ?_⟩
    · rw [hroot, Scope.write_root]
    · rw [← hwrite]
      exact heq
  | some path =>
    obtain ⟨htarget, hne⟩ := Rule.path?_eq_some_iff.1 hpath
    obtain ⟨new, hnew, rfl⟩ := (Scope.write_eq_ok_iff _ _ _ htarget hne output).1 hwrite
    refine ⟨other.insert c.agent new, ⟨hcalled, output, hresult, ?_⟩, ?_⟩
    · refine (Scope.write_eq_ok_iff _ _ _ htarget hne output).2 ⟨new, ?_, rfl⟩
      rw [heq]
      exact hnew
    · rw [Table.get?_insert_self, Table.get?_insert_self]

theorem Refuses.transfer {c : Call} {e : StepError} (h : Refuses engine snapshot states c e)
    (heq : other.get? c.agent = states.get? c.agent) : Refuses engine snapshot other c e := by
  refine ⟨?_, ?_⟩
  · rw [call?_congr heq]
    exact h.called
  · rcases h.failed with hproducer | ⟨output, cause, hresult, hwrite, he⟩
    · exact .inl hproducer
    · exact .inr ⟨output, cause, hresult, Scope.write_eq_error_congr _ heq hwrite, he⟩

/-- The rules that belong to an agent. -/
def owned (agent : String) (pending : List Pending) : List Pending :=
  pending.filter fun p => p.agent = agent

/-- The calls that belong to an agent. -/
def ownCalls (agent : String) (calls : List Call) : List Call :=
  calls.filter fun c => c.agent = agent

theorem owned_cons_self (p : Pending) (rest : List Pending) :
    owned p.agent (p :: rest) = p :: owned p.agent rest := by
  simp [owned]

theorem owned_cons_of_ne {p : Pending} (h : p.agent ≠ agent) (rest : List Pending) :
    owned agent (p :: rest) = owned agent rest := by
  simp [owned, h]

theorem ownCalls_cons_self (c : Call) (rest : List Call) :
    ownCalls c.agent (c :: rest) = c :: ownCalls c.agent rest := by
  simp [ownCalls]

theorem ownCalls_cons_of_ne {c : Call} (h : c.agent ≠ agent) (rest : List Call) :
    ownCalls agent (c :: rest) = ownCalls agent rest := by
  simp [ownCalls, h]

theorem ownCalls_append (calls later : List Call) :
    ownCalls agent (calls ++ later) = ownCalls agent calls ++ ownCalls agent later :=
  List.filter_append ..

/-- **The part of a pass that belongs to an agent is a pass over its rules.** -/
theorem Passes.alone {pending deferred : List Pending} {calls : List Call}
    (h : Passes engine snapshot states pending calls after deferred)
    (heq : other.get? agent = states.get? agent) :
    ∃ after', Passes engine snapshot other (owned agent pending) (ownCalls agent calls) after'
      (owned agent deferred) ∧
      after'.get? agent = after.get? agent ∧
      ∀ b, agent ≠ b → after'.get? b = other.get? b := by
  induction h generalizing other with
  | nil => exact ⟨other, .nil, heq, fun _ _ => rfl⟩
  | @defer states after p rest deferred calls idle _ ih =>
    obtain ⟨after', hpass, hget, hframe⟩ := ih heq
    by_cases hp : p.agent = agent
    · subst hp
      rw [owned_cons_self, owned_cons_self]
      refine ⟨after', .defer ?_ hpass, hget, hframe⟩
      rw [call?_congr heq]
      exact idle
    · rw [owned_cons_of_ne hp, owned_cons_of_ne hp]
      exact ⟨after', hpass, hget, hframe⟩
  | @fire states mid after c rest deferred calls fires _ ih =>
    by_cases hc : c.agent = agent
    · subst hc
      obtain ⟨mid', hfires, hmid⟩ := fires.transfer heq
      obtain ⟨after', hpass, hget, hframe⟩ := ih hmid
      rw [owned_cons_self, ownCalls_cons_self]
      refine ⟨after', .fire hfires hpass, hget, fun b hb => ?_⟩
      rw [hframe b hb, hfires.get?_of_ne hb]
    · -- a rule of another agent leaves this one's state alone
      rw [owned_cons_of_ne hc, ownCalls_cons_of_ne hc]
      exact ih (heq.trans (fires.get?_of_ne hc).symm)

theorem PassBreaks.alone {pending : List Pending} {calls : List Call} {c : Call} {e : StepError}
    (h : PassBreaks engine snapshot states pending calls c e)
    (heq : other.get? c.agent = states.get? c.agent) :
    PassBreaks engine snapshot other (owned c.agent pending) (ownCalls c.agent calls) c e := by
  induction h generalizing other with
  | refuse refuses =>
    rw [owned_cons_self]
    exact .refuse (refuses.transfer heq)
  | @defer states p rest calls c e idle _ ih =>
    by_cases hp : p.agent = c.agent
    · have heq' : other.get? p.agent = states.get? p.agent := by
        rw [hp]
        exact heq
      rw [← hp, owned_cons_self, hp]
      refine .defer ?_ (ih heq)
      rw [call?_congr heq']
      exact idle
    · rw [owned_cons_of_ne hp]
      exact ih heq
  | @fire states mid c last rest calls e fires _ ih =>
    by_cases hc : c.agent = last.agent
    · rw [← hc] at heq
      obtain ⟨mid', hfires, hmid⟩ := fires.transfer heq
      rw [hc] at hmid
      have hmore := ih hmid
      rw [← hc] at hmore ⊢
      rw [owned_cons_self, ownCalls_cons_self]
      exact .fire hfires hmore
    · rw [owned_cons_of_ne hc, ownCalls_cons_of_ne hc]
      exact ih (heq.trans (fires.get?_of_ne hc).symm)

/-! ## One agent's part of a step -/

/-- **The part of a step that belongs to an agent is a step over its rules**, and the rules left are
those of the agent that are left. -/
theorem Settles.alone {pending left : List Pending} {calls : List Call}
    (h : Settles engine snapshot states pending calls after left)
    (heq : other.get? agent = states.get? agent) :
    ∃ after', Settles engine snapshot other (owned agent pending) (ownCalls agent calls) after'
      (owned agent left) ∧
      after'.get? agent = after.get? agent ∧
      ∀ b, agent ≠ b → after'.get? b = other.get? b := by
  induction h generalizing other with
  | idle pass =>
    obtain ⟨after', hpass, hget, hframe⟩ := pass.alone heq
    obtain ⟨rfl, -, -⟩ := hpass.of_no_calls
    exact ⟨after', .idle hpass, hget, hframe⟩
  | @again states mid after pending deferred left calls later pass busy _ ih =>
    obtain ⟨mid', hpass, hmid, hframe⟩ := pass.alone heq
    obtain ⟨after', hmore, hget, hframe'⟩ := ih hmid
    rw [ownCalls_append]
    by_cases hown : ownCalls agent calls = []
    · -- the agent had nothing to call: the rest of the step is its step from here
      rw [hown] at hpass
      obtain ⟨rfl, hsame, -⟩ := hpass.of_no_calls
      rw [hown, List.nil_append, ← hsame]
      exact ⟨after', hmore, hget, hframe'⟩
    · refine ⟨after', .again hpass hown hmore, hget, fun b hb => ?_⟩
      rw [hframe' b hb, hframe b hb]

/-- A step that breaks off does so in the step of the agent concerned. -/
theorem Breaks.alone {pending : List Pending} {calls : List Call} {c : Call} {e : StepError}
    (h : Breaks engine snapshot states pending calls c e)
    (heq : other.get? c.agent = states.get? c.agent) :
    Breaks engine snapshot other (owned c.agent pending) (ownCalls c.agent calls) c e := by
  induction h generalizing other with
  | now pass => exact .now (pass.alone heq)
  | @again states mid pending deferred calls later c e pass busy _ ih =>
    obtain ⟨mid', hpass, hmid, -⟩ := pass.alone heq
    have hmore := ih hmid
    rw [ownCalls_append]
    by_cases hown : ownCalls c.agent calls = []
    · rw [hown] at hpass
      obtain ⟨rfl, hsame, -⟩ := hpass.of_no_calls
      rw [hown, List.nil_append, ← hsame]
      exact hmore
    · exact .again hpass hown hmore

/-! ## The rules of an engine, agent by agent -/

theorem owned_eq_self {pending : List Pending} (h : ∀ p ∈ pending, p.agent = agent) :
    owned agent pending = pending :=
  List.filter_eq_self.2 fun p hp => decide_eq_true (h p hp)

theorem owned_eq_nil {pending : List Pending} (h : ∀ p ∈ pending, p.agent ≠ agent) :
    owned agent pending = [] :=
  List.filter_eq_nil_iff.2 fun p hp => by simpa using h p hp

theorem owned_append (pending rest : List Pending) :
    owned agent (pending ++ rest) = owned agent pending ++ owned agent rest :=
  List.filter_append ..

/-- Rules listed after the smallest name belong to larger names. -/
theorem agent_ne_of_mem_flatMap {name : String} {l : Entries (List Rule)}
    (h : ∀ e ∈ l, name < e.1) {p : Pending} (hp : p ∈ l.flatMap fun e => number e.1 0 e.2) :
    p.agent ≠ name := by
  obtain ⟨e, he, hp⟩ := List.mem_flatMap.1 hp
  intro heq
  have hlt := h e he
  rw [← agent_of_mem_number hp, heq] at hlt
  exact String.lt_irrefl _ hlt

/-- The rules of an engine that belong to an agent are the agent's rules. -/
theorem owned_flatMap {l : Entries (List Rule)} (hl : l.Sorted) {name : String} {own : List Rule}
    (h : (name, own) ∈ l) : owned name (l.flatMap fun e => number e.1 0 e.2) = number name 0 own := by
  induction l with
  | nil => simp at h
  | cons e l ih =>
    obtain ⟨hlt, hl'⟩ := Entries.sorted_cons.1 hl
    rw [List.flatMap_cons, owned_append]
    rcases List.mem_cons.1 h with rfl | h
    · rw [owned_eq_self fun p hp => agent_of_mem_number hp,
        owned_eq_nil fun p hp => agent_ne_of_mem_flatMap hlt hp, List.append_nil]
    · have hne : ∀ p ∈ number e.1 0 e.2, p.agent ≠ name := by
        intro p hp heq
        have hlt' := hlt _ h
        rw [← agent_of_mem_number hp, heq] at hlt'
        exact String.lt_irrefl _ hlt'
      rw [owned_eq_nil hne, List.nil_append]
      exact ih hl' h

/-- Rules of an engine, in their order, are those of its agents one after the other. -/
theorem flatMap_owned {l : Entries (List Rule)} (hl : l.Sorted) {left : List Pending}
    (h : left.Sublist (l.flatMap fun e => number e.1 0 e.2)) :
    (l.flatMap fun e => owned e.1 left) = left := by
  induction l generalizing left with
  | nil => exact (List.sublist_nil.1 h).symm
  | cons e l ih =>
    obtain ⟨hlt, hl'⟩ := Entries.sorted_cons.1 hl
    rw [List.flatMap_cons] at h ⊢
    obtain ⟨first, rest, rfl, hfirst, hrest⟩ := List.sublist_append_iff.1 h
    have hagent : ∀ p ∈ first, p.agent = e.1 := fun p hp => agent_of_mem_number (hfirst.subset hp)
    have hothers : ∀ p ∈ rest, p.agent ≠ e.1 := fun p hp =>
      agent_ne_of_mem_flatMap hlt (hrest.subset hp)
    have htail : (l.flatMap fun e' => owned e'.1 (first ++ rest)) =
        l.flatMap fun e' => owned e'.1 rest := by
      refine List.flatMap_congr fun e' he' => ?_
      rw [owned_append, owned_eq_nil fun p hp heq => ?_, List.nil_append]
      have hlt' := hlt e' he'
      rw [← hagent p hp, heq] at hlt'
      exact String.lt_irrefl _ hlt'
    rw [htail, ih hl' hrest, owned_append, owned_eq_self hagent, owned_eq_nil hothers,
      List.append_nil]

/-! ## Steps of agents by themselves -/

/-- The same loop over the rules of one agent only. -/
def alone (engine : String) (snapshot : Universe) (e : String × List Rule) :
    Except StepError (States × Nat) :=
  resolve engine snapshot Table.empty (number e.1 0 e.2)

/-- The rules that an agent by itself is stuck with. -/
def stuckOf : Except StepError (States × Nat) → List StuckRule
  | .error (.deadlock _ stuck) => stuck
  | _ => []

variable {rules : AgentRules} {calls : List Call} {left : List Pending}

/-- What a step that settles means for one of its agents. -/
theorem Settles.alone_of_mem
    (h : Settles engine snapshot Table.empty (pendingOf rules) calls after left)
    {e : String × List Rule} (he : e ∈ rules.entries) :
    ∃ own, Settles engine snapshot Table.empty (number e.1 0 e.2) (ownCalls e.1 calls) own
      (owned e.1 left) ∧
      own.get? e.1 = after.get? e.1 ∧ ∀ b, e.1 ≠ b → own.get? b = none := by
  have hsame : (Table.empty : States).get? e.1 = (Table.empty : States).get? e.1 := rfl
  obtain ⟨own, hsettles, hget, hframe⟩ := h.alone hsame
  rw [pendingOf, owned_flatMap rules.sorted he] at hsettles
  exact ⟨own, hsettles, hget, hframe⟩

/-- An agent by itself comes to an end when none of its rules is left. -/
theorem alone_of_settles_nil
    (h : Settles engine snapshot Table.empty (pendingOf rules) calls after left)
    {e : String × List Rule} (he : e ∈ rules.entries) (hleft : owned e.1 left = []) :
    ∃ own passes, alone engine snapshot e = .ok (own, passes) ∧
      own.get? e.1 = after.get? e.1 ∧ ∀ b, e.1 ≠ b → own.get? b = none := by
  obtain ⟨own, hsettles, hget, hframe⟩ := h.alone_of_mem he
  rw [hleft] at hsettles
  obtain ⟨passes, hpasses⟩ := resolve_of_settles_nil hsettles
  exact ⟨own, passes, hpasses, hget, hframe⟩

/-- An agent by itself is stuck with those of its rules that are left. -/
theorem alone_of_settles
    (h : Settles engine snapshot Table.empty (pendingOf rules) calls after left)
    {e : String × List Rule} (he : e ∈ rules.entries) (hleft : owned e.1 left ≠ []) :
    alone engine snapshot e = .error (.deadlock engine ((owned e.1 left).map (·.stuck))) := by
  obtain ⟨own, hsettles, -, -⟩ := h.alone_of_mem he
  exact resolve_of_settles hsettles hleft

/-- In a step that settles, no agent by itself is refused by a producer. -/
theorem alone_ne_producer
    (h : Settles engine snapshot Table.empty (pendingOf rules) calls after left)
    {e : String × List Rule} (he : e ∈ rules.entries) (place : RulePlace) (function : String)
    (cause : ProducerError) :
    alone engine snapshot e ≠ .error (.producer place function cause) := by
  by_cases hleft : owned e.1 left = []
  · obtain ⟨own, passes, hok, -, -⟩ := alone_of_settles_nil h he hleft
    simp [hok]
  · simp [alone_of_settles h he hleft]

/-- The rules left are those that the agents by themselves are stuck with, agent by agent. -/
theorem map_stuck_left
    (h : Settles engine snapshot Table.empty (pendingOf rules) calls after left) :
    left.map (·.stuck) = rules.entries.flatMap fun e => stuckOf (alone engine snapshot e) := by
  calc left.map (·.stuck)
      = (rules.entries.flatMap fun e => owned e.1 left).map (·.stuck) := by
        rw [flatMap_owned rules.sorted h.sublist]
    _ = rules.entries.flatMap fun e => (owned e.1 left).map (·.stuck) := List.map_flatMap ..
    _ = rules.entries.flatMap fun e => stuckOf (alone engine snapshot e) := by
        refine List.flatMap_congr fun e he => ?_
        by_cases hleft : owned e.1 left = []
        · obtain ⟨own, passes, hok, -, -⟩ := alone_of_settles_nil h he hleft
          rw [hleft, hok]
          rfl
        · rw [alone_of_settles h he hleft]
          rfl

/-- Some agent by itself is stuck when a rule is left. -/
theorem exists_alone_deadlock
    (h : Settles engine snapshot Table.empty (pendingOf rules) calls after left)
    (hleft : left ≠ []) :
    ∃ e ∈ rules.entries, ∃ stuck, alone engine snapshot e = .error (.deadlock engine stuck) := by
  obtain ⟨p, hp⟩ := List.exists_mem_of_ne_nil _ hleft
  obtain ⟨own, hown, -⟩ :=
    exists_mem_pendingOf_iff.1 ⟨p, h.sublist.subset hp, rfl, rfl⟩
  have he : (p.agent, own) ∈ rules.entries := Table.mem_entries_iff.2 hown
  have hne : owned p.agent left ≠ [] :=
    List.ne_nil_of_mem (List.mem_filter.2 ⟨hp, decide_eq_true rfl⟩)
  exact ⟨_, he, _, alone_of_settles h he hne⟩

/-- The states of a finished step are those of the agents by themselves, put together. -/
theorem get?_eq_some_iff_alone
    (h : Settles engine snapshot Table.empty (pendingOf rules) calls after []) (name : String)
    (value : Value) :
    after.get? name = some value ↔
      ∃ e ∈ rules.entries, ∃ own passes,
        alone engine snapshot e = .ok (own, passes) ∧ own.get? name = some value := by
  constructor
  · intro hget
    obtain ⟨own, hown, -⟩ := (h.exists_get?_iff name).1 ⟨value, hget⟩
    have he : (name, own) ∈ rules.entries := Table.mem_entries_iff.2 hown
    obtain ⟨states, passes, hok, hsame, -⟩ := alone_of_settles_nil h he rfl
    exact ⟨_, he, states, passes, hok, hsame.trans hget⟩
  · rintro ⟨e, he, own, passes, hok, hget⟩
    obtain ⟨states, passes', hok', hsame, hframe⟩ := alone_of_settles_nil h he rfl
    rw [hok, Except.ok.injEq, Prod.mk.injEq] at hok'
    obtain ⟨rfl, -⟩ := hok'
    by_cases hname : e.1 = name
    · rw [← hname, ← hsame, hname]
      exact hget
    · rw [hframe name hname] at hget
      exact absurd hget (by simp)

/-- A call that is refused belongs to an agent that is refused by itself. -/
theorem exists_alone_error {c : Call} {e : StepError}
    (h : Breaks engine snapshot Table.empty (pendingOf rules) calls c e) :
    ∃ a ∈ rules.entries, alone engine snapshot a = .error e := by
  obtain ⟨rest, hperm⟩ := h.perm
  have hp : c.pending ∈ pendingOf rules := hperm.mem_iff.2 (by simp)
  obtain ⟨own, hown, -⟩ := exists_mem_pendingOf_iff.1 ⟨c.pending, hp, rfl, rfl⟩
  have ha : (c.agent, own) ∈ rules.entries := Table.mem_entries_iff.2 hown
  have hsame : (Table.empty : States).get? c.agent = (Table.empty : States).get? c.agent := rfl
  have hbreaks := h.alone hsame
  rw [pendingOf, owned_flatMap rules.sorted ha] at hbreaks
  exact ⟨_, ha, resolve_of_breaks hbreaks⟩

end Step

open Step in
/-- **A step is the union of the steps of its agents by themselves.**  It is refused by a producer
exactly when one of them is; else it is stuck exactly when one of them is, with the rules of all of
them; and else it comes to their states put together. -/
theorem RuleGraph.step_eq_union_alone {engines : Table AgentRules} {g : RuleGraph} {engine : String}
    {rules : AgentRules} (hg : ofRules engines = .ok g) (hr : g.agents engine = .ok rules)
    (snapshot : Universe) :
    ((∃ place function cause, g.step engine snapshot = .error (.producer place function cause)) ↔
      ∃ e ∈ rules.entries, ∃ place function cause,
        alone engine snapshot e = .error (.producer place function cause)) ∧
    ((∀ e ∈ rules.entries, ∀ place function cause,
        alone engine snapshot e ≠ .error (.producer place function cause)) →
      ((∃ stuck, g.step engine snapshot = .error (.deadlock engine stuck)) ↔
        ∃ e ∈ rules.entries, ∃ stuck,
          alone engine snapshot e = .error (.deadlock engine stuck)) ∧
      (∀ stuck, g.step engine snapshot = .error (.deadlock engine stuck) →
        stuck = rules.entries.flatMap fun e => stuckOf (alone engine snapshot e)) ∧
      ((∀ e ∈ rules.entries, ∀ stuck,
          alone engine snapshot e ≠ .error (.deadlock engine stuck)) →
        ∃ states, g.step engine snapshot = .ok states ∧
          ∀ name value, states.get? name = some value ↔
            ∃ e ∈ rules.entries, ∃ own passes,
              alone engine snapshot e = .ok (own, passes) ∧ own.get? name = some value)) := by
  have hbeside := pairwise_beside_pendingOf (sound_of_ofRules hg hr)
  rw [step_eq hr]
  rcases resolve_cases engine snapshot Table.empty (pendingOf rules) with
    ⟨calls, after, passes, hsettles, hok⟩ | ⟨calls, after, left, hsettles, hleft, hdead⟩ |
    ⟨calls, c, e, hbreaks, herror⟩
  · -- the step comes to an end, and so does every agent
    have hends : ∀ e ∈ rules.entries, ∀ stuck,
        alone engine snapshot e ≠ .error (.deadlock engine stuck) := by
      intro e he stuck
      obtain ⟨own, passes, hown, -, -⟩ := alone_of_settles_nil hsettles he rfl
      simp [hown]
    rw [hok]
    refine ⟨⟨?_, ?_⟩, fun _ => ⟨⟨?_, ?_⟩, ?_, fun _ => ?_⟩⟩
    · rintro ⟨place, function, cause, h⟩
      exact absurd h (by simp [Except.map])
    · rintro ⟨e, he, place, function, cause, h⟩
      exact absurd h (alone_ne_producer hsettles he place function cause)
    · rintro ⟨stuck, h⟩
      exact absurd h (by simp [Except.map])
    · rintro ⟨e, he, stuck, h⟩
      exact absurd h (hends e he stuck)
    · intro stuck h
      exact absurd h (by simp [Except.map])
    · exact ⟨after, rfl, get?_eq_some_iff_alone hsettles⟩
  · -- rules are left, and their agents are stuck with them
    obtain ⟨e, he, stuck, hstuck⟩ := exists_alone_deadlock hsettles hleft
    rw [hdead]
    refine ⟨⟨?_, ?_⟩, fun _ => ⟨⟨fun _ => ⟨e, he, stuck, hstuck⟩, fun _ => ⟨_, rfl⟩⟩, ?_, ?_⟩⟩
    · rintro ⟨place, function, cause, h⟩
      exact absurd h (by simp [Except.map])
    · rintro ⟨e, he, place, function, cause, h⟩
      exact absurd h (alone_ne_producer hsettles he place function cause)
    · intro stuck h
      obtain rfl : left.map (·.stuck) = stuck := by simpa [Except.map] using h
      exact map_stuck_left hsettles
    · intro hnone
      exact absurd hstuck (hnone e he stuck)
  · -- a producer refuses, and it does so for its agent alone
    obtain ⟨cause, -, rfl⟩ := hbreaks.producer hbeside
    obtain ⟨a, ha, halone⟩ := exists_alone_error hbreaks
    rw [herror]
    refine ⟨⟨fun _ => ⟨a, ha, _, _, _, halone⟩, fun _ => ⟨_, _, _, rfl⟩⟩, fun hnone => ?_⟩
    exact absurd halone (hnone a ha _ _ _)

/-- In the small sky the moon takes two passes and the sun one, and a step is the union of both. -/
theorem RuleGraph.sky_union_alone :
    ofRules Sky.engines = .ok ⟨Sky.engines⟩ ∧
    (⟨Sky.engines⟩ : RuleGraph).agents "sky" = .ok Sky.rules ∧
    ∃ states, (⟨Sky.engines⟩ : RuleGraph).step "sky" Sky.snapshot = .ok states ∧
      ∀ name value, states.get? name = some value ↔
        ∃ e ∈ Sky.rules.entries, ∃ own passes,
          Step.alone "sky" Sky.snapshot e = .ok (own, passes) ∧ own.get? name = some value := by
  have hg : ofRules Sky.engines = .ok ⟨Sky.engines⟩ := rfl
  have hr : (⟨Sky.engines⟩ : RuleGraph).agents "sky" = .ok Sky.rules := rfl
  have hmoon : Step.alone "sky" Sky.snapshot ("moon", Sky.moon) = .ok (Sky.after, 2) := by
    decide +kernel
  have hsun : Step.alone "sky" Sky.snapshot ("sun", Sky.sun) = .ok (Table.empty, 1) := by
    decide +kernel
  have hends : ∀ e ∈ Sky.rules.entries, ∃ r, Step.alone "sky" Sky.snapshot e = .ok r := by
    intro e he
    rcases List.mem_pair.1 he with rfl | rfl
    · exact ⟨_, hmoon⟩
    · exact ⟨_, hsun⟩
  refine ⟨hg, hr, ((step_eq_union_alone hg hr Sky.snapshot).2 ?_).2.2 ?_⟩
  · intro e he place function cause h
    obtain ⟨r, hr⟩ := hends e he
    exact absurd h (by simp [hr])
  · intro e he stuck h
    obtain ⟨r, hr⟩ := hends e he
    exact absurd h (by simp [hr])

end Orrery
