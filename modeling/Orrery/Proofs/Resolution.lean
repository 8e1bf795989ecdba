import Orrery.Proofs.Acceptance
import Orrery.Proofs.Reading
import Orrery.Step
import Mathlib.Data.List.Basic
import Mathlib.Data.List.Perm.Subperm

/-!
# How a step runs

`Step.resolve` computes what a step comes to.  The statements about steps are about what happens on the
way: which rules are fired, in which order, what each of them is asked and what it answers.  This file
gives the way a form that proofs can follow.

* A `Call` is one use of a producer: the rule, the input found for it, and the answer.
* `Fires` and `Refuses` are the two ways in which a call can go on: its output is written, or the step
  fails there.
* `Passes` is one pass with its calls, and `Settles` is pass after pass until one of them calls nothing,
  with what is left pending then.  `PassBreaks` and `Breaks` are the same up to a call that fails.

These relations run through the rules exactly as the loop does.  `settles_or_breaks` says that one of
the two always happens, and `resolve_of_settles_nil`, `resolve_of_settles`, `resolve_of_breaks` say
what `Step.resolve` answers in each case.  Everything else about steps is an induction over them.

The number of passes plays no part here: it says how long a step takes and not what it does.
-/

namespace Orrery

namespace Step

/-- One use of a producer. -/
structure Call where
  /-- The rule that is fired. -/
  pending : Pending
  /-- What its consumed query names at that moment. -/
  input : Value
  /-- What the producer answers. -/
  result : Except ProducerError Value

/-- The agent whose rule is fired. -/
abbrev Call.agent (c : Call) : String := c.pending.agent

variable (engine : String) (snapshot : Universe)

/-- Where a pending rule reads and writes. -/
abbrev scopeOf (p : Pending) : Scope := ⟨engine, p.agent, snapshot⟩

/-- The call that a pending rule makes against states under construction, if its input is found. -/
def call? (states : States) (p : Pending) : Option Call :=
  ((scopeOf engine snapshot p).resolve? states p.rule.consumed).map fun input =>
    ⟨p, input, p.rule.produce (p.rule.consumed.arguments input)⟩

/-- A call is made, answered with an output, and the output is written. -/
structure Fires (states : States) (c : Call) (after : States) : Prop where
  /-- The rule makes this call. -/
  called : call? engine snapshot states c.pending = some c
  /-- Its output goes where the rule says. -/
  wrote : ∃ output, c.result = .ok output ∧
    (scopeOf engine snapshot c.pending).write states c.pending.rule.produced output = .ok after

/-- A call is made and the step fails there: the producer refuses, or its output finds no place. -/
structure Refuses (states : States) (c : Call) (e : StepError) : Prop where
  /-- The rule makes this call. -/
  called : call? engine snapshot states c.pending = some c
  /-- One of the two failures. -/
  failed :
    (∃ cause, c.result = .error cause ∧
      e = .producer ⟨engine, c.agent, c.pending.index⟩ c.pending.rule.function cause) ∨
    (∃ output cause, c.result = .ok output ∧
      (scopeOf engine snapshot c.pending).write states c.pending.rule.produced output
        = .error cause ∧
      e = .write ⟨engine, c.agent, c.pending.index⟩ cause)

/-- One pass: rules that cannot be called are deferred, the others are fired in turn. -/
inductive Passes : States → List Pending → List Call → States → List Pending → Prop
  | nil {states : States} : Passes states [] [] states []
  | defer {states after : States} {p : Pending} {rest deferred : List Pending} {calls : List Call}
      (idle : call? engine snapshot states p = none)
      (more : Passes states rest calls after deferred) :
      Passes states (p :: rest) calls after (p :: deferred)
  | fire {states mid after : States} {c : Call} {rest deferred : List Pending} {calls : List Call}
      (fires : Fires engine snapshot states c mid) (more : Passes mid rest calls after deferred) :
      Passes states (c.pending :: rest) (c :: calls) after deferred

/-- A pass up to a call that fails. -/
inductive PassBreaks : States → List Pending → List Call → Call → StepError → Prop
  | refuse {states : States} {c : Call} {rest : List Pending} {e : StepError}
      (refuses : Refuses engine snapshot states c e) :
      PassBreaks states (c.pending :: rest) [] c e
  | defer {states : States} {p : Pending} {rest : List Pending} {calls : List Call} {c : Call}
      {e : StepError} (idle : call? engine snapshot states p = none)
      (more : PassBreaks states rest calls c e) : PassBreaks states (p :: rest) calls c e
  | fire {states mid : States} {c last : Call} {rest : List Pending} {calls : List Call}
      {e : StepError} (fires : Fires engine snapshot states c mid)
      (more : PassBreaks mid rest calls last e) :
      PassBreaks states (c.pending :: rest) (c :: calls) last e

/-- Pass after pass, until one calls nothing; the rules of that pass are left. -/
inductive Settles : States → List Pending → List Call → States → List Pending → Prop
  | idle {states : States} {pending : List Pending}
      (pass : Passes engine snapshot states pending [] states pending) :
      Settles states pending [] states pending
  | again {states mid after : States} {pending deferred left : List Pending}
      {calls later : List Call} (pass : Passes engine snapshot states pending calls mid deferred)
      (busy : calls ≠ []) (more : Settles mid deferred later after left) :
      Settles states pending (calls ++ later) after left

/-- Pass after pass, up to a call that fails. -/
inductive Breaks : States → List Pending → List Call → Call → StepError → Prop
  | now {states : States} {pending : List Pending} {calls : List Call} {c : Call} {e : StepError}
      (pass : PassBreaks engine snapshot states pending calls c e) :
      Breaks states pending calls c e
  | again {states mid : States} {pending deferred : List Pending} {calls later : List Call}
      {c : Call} {e : StepError} (pass : Passes engine snapshot states pending calls mid deferred)
      (busy : calls ≠ []) (more : Breaks mid deferred later c e) :
      Breaks states pending (calls ++ later) c e

variable {engine : String} {snapshot : Universe}

/-! ## Firing one rule -/

theorem pending_of_call? {states : States} {p : Pending} {c : Call}
    (h : call? engine snapshot states p = some c) : c.pending = p := by
  obtain ⟨input, -, rfl⟩ := Option.map_eq_some_iff.1 h
  rfl

theorem fire_of_call?_eq_none {states : States} {p : Pending}
    (h : call? engine snapshot states p = none) : fire engine snapshot states p = .ok none := by
  have hnone := Option.map_eq_none_iff.1 h
  simp only [fire, hnone]

/-- **To fire a rule is to make its call and to write the output.** -/
theorem fire_of_call? {states : States} {p : Pending} {c : Call}
    (h : call? engine snapshot states p = some c) :
    fire engine snapshot states p =
      match c.result with
      | .error cause => .error (.producer ⟨engine, p.agent, p.index⟩ p.rule.function cause)
      | .ok output =>
        match (scopeOf engine snapshot p).write states p.rule.produced output with
        | .error cause => .error (.write ⟨engine, p.agent, p.index⟩ cause)
        | .ok after => .ok (some after) := by
  obtain ⟨input, hinput, rfl⟩ := Option.map_eq_some_iff.1 h
  cases hresult : p.rule.produce (p.rule.consumed.arguments input) with
  | error cause => simp only [fire, hinput, hresult]
  | ok output =>
    cases hwrite : (scopeOf engine snapshot p).write states p.rule.produced output with
    | error cause => simp only [fire, hinput, hresult, hwrite]
    | ok after => simp only [fire, hinput, hresult, hwrite]

theorem fire_of_fires {states after : States} {c : Call}
    (h : Fires engine snapshot states c after) :
    fire engine snapshot states c.pending = .ok (some after) := by
  obtain ⟨output, hresult, hwrite⟩ := h.wrote
  rw [fire_of_call? h.called]
  simp only [hresult, hwrite]

theorem fire_of_refuses {states : States} {c : Call} {e : StepError}
    (h : Refuses engine snapshot states c e) :
    fire engine snapshot states c.pending = .error e := by
  rw [fire_of_call? h.called]
  rcases h.failed with ⟨cause, hresult, rfl⟩ | ⟨output, cause, hresult, hwrite, rfl⟩
  · simp only [hresult]
  · simp only [hresult, hwrite]

/-- A rule that is called is fired or refused. -/
theorem fires_or_refuses {states : States} {c : Call}
    (h : call? engine snapshot states c.pending = some c) :
    (∃ after, Fires engine snapshot states c after) ∨
    (∃ e, Refuses engine snapshot states c e) := by
  cases hresult : c.result with
  | error cause => exact .inr ⟨_, h, .inl ⟨cause, hresult, rfl⟩⟩
  | ok output =>
    cases hwrite : (scopeOf engine snapshot c.pending).write states c.pending.rule.produced output with
    | error cause => exact .inr ⟨_, h, .inr ⟨output, cause, hresult, hwrite, rfl⟩⟩
    | ok after => exact .inl ⟨after, h, output, hresult, hwrite⟩

/-! ## One pass -/

theorem pass_of_passes {states after : States} {pending deferred : List Pending} {calls : List Call}
    (h : Passes engine snapshot states pending calls after deferred) :
    pass engine snapshot states pending = .ok (after, deferred) := by
  induction h with
  | nil => rfl
  | defer idle _ ih => simp only [pass, fire_of_call?_eq_none idle, ih]
  | fire fires _ ih => simp only [pass, fire_of_fires fires, ih]

theorem pass_of_passBreaks {states : States} {pending : List Pending} {calls : List Call} {c : Call}
    {e : StepError} (h : PassBreaks engine snapshot states pending calls c e) :
    pass engine snapshot states pending = .error e := by
  induction h with
  | refuse refuses => simp only [pass, fire_of_refuses refuses]
  | defer idle _ ih => simp only [pass, fire_of_call?_eq_none idle, ih]
  | fire fires _ ih => simp only [pass, fire_of_fires fires, ih]

/-- A pass goes through, or breaks off at a call that fails. -/
theorem passes_or_passBreaks (states : States) (pending : List Pending) :
    (∃ calls after deferred, Passes engine snapshot states pending calls after deferred) ∨
    (∃ calls c e, PassBreaks engine snapshot states pending calls c e) := by
  induction pending generalizing states with
  | nil => exact .inl ⟨[], states, [], .nil⟩
  | cons p rest ih =>
    cases hcall : call? engine snapshot states p with
    | none =>
      rcases ih states with ⟨calls, after, deferred, h⟩ | ⟨calls, c, e, h⟩
      · exact .inl ⟨calls, after, p :: deferred, .defer hcall h⟩
      · exact .inr ⟨calls, c, e, .defer hcall h⟩
    | some c =>
      obtain rfl := pending_of_call? hcall
      rcases fires_or_refuses hcall with ⟨mid, hfires⟩ | ⟨e, hrefuses⟩
      · rcases ih mid with ⟨calls, after, deferred, h⟩ | ⟨calls, last, e, h⟩
        · exact .inl ⟨c :: calls, after, deferred, .fire hfires h⟩
        · exact .inr ⟨c :: calls, last, e, .fire hfires h⟩
      · exact .inr ⟨[], c, e, .refuse hrefuses⟩

/-- The rules of a pass are those called and those deferred. -/
theorem Passes.perm {states after : States} {pending deferred : List Pending} {calls : List Call}
    (h : Passes engine snapshot states pending calls after deferred) :
    pending.Perm (calls.map (·.pending) ++ deferred) := by
  induction h with
  | nil => exact .refl _
  | defer _ _ ih => exact (ih.cons _).trans List.perm_middle.symm
  | fire _ _ ih => exact ih.cons _

/-- Deferred rules keep their order. -/
theorem Passes.sublist {states after : States} {pending deferred : List Pending} {calls : List Call}
    (h : Passes engine snapshot states pending calls after deferred) :
    deferred.Sublist pending := by
  induction h with
  | nil => exact .refl _
  | defer _ _ ih => exact ih.cons_cons _
  | fire _ _ ih => exact ih.cons _

/-- Every call takes one rule off the list. -/
theorem Passes.length_eq {states after : States} {pending deferred : List Pending}
    {calls : List Call} (h : Passes engine snapshot states pending calls after deferred) :
    pending.length = calls.length + deferred.length := by
  have hlen := h.perm.length_eq
  rwa [List.length_append, List.length_map] at hlen

/-- A pass without calls changes nothing, because no rule could be called. -/
theorem Passes.of_no_calls {states after : States} {pending deferred : List Pending}
    (h : Passes engine snapshot states pending [] after deferred) :
    after = states ∧ deferred = pending ∧ ∀ p ∈ pending, call? engine snapshot states p = none := by
  generalize hcalls : ([] : List Call) = calls at h
  induction h with
  | nil => exact ⟨rfl, rfl, by simp⟩
  | defer idle _ ih =>
    obtain ⟨hafter, hdeferred, hrest⟩ := ih hcalls
    refine ⟨hafter, by rw [hdeferred], ?_⟩
    intro p hp
    rcases List.mem_cons.1 hp with rfl | hp
    · exact idle
    · exact hrest p hp
  | fire => exact absurd hcalls (by simp)

/-! ## All passes -/

theorem resolve_nil (states : States) : resolve engine snapshot states [] = .ok (states, 0) := by
  rw [resolve]
  rfl

/-- After a pass that calls something, the step goes on with what was deferred. -/
theorem resolve_of_busy_pass {states mid : States} {pending deferred : List Pending}
    {calls : List Call} (h : Passes engine snapshot states pending calls mid deferred)
    (busy : calls ≠ []) :
    resolve engine snapshot states pending =
      (resolve engine snapshot mid deferred).map fun r => (r.1, r.2 + 1) := by
  have hlen := h.length_eq
  have hpos := List.length_pos_iff.2 busy
  have hne : pending.isEmpty = false := List.isEmpty_eq_false_iff.2 fun hnil => by
    rw [hnil, List.length_nil] at hlen
    omega
  rw [resolve, hne, if_neg Bool.false_ne_true, pass_of_passes h]
  dsimp only
  rw [if_pos (by omega)]

theorem resolve_of_settles_nil {states after : States} {pending : List Pending} {calls : List Call}
    (h : Settles engine snapshot states pending calls after []) :
    ∃ passes, resolve engine snapshot states pending = .ok (after, passes) := by
  generalize hleft : ([] : List Pending) = left at h
  induction h with
  | idle =>
    subst hleft
    exact ⟨0, resolve_nil _⟩
  | again pass busy _ ih =>
    obtain ⟨passes, hpasses⟩ := ih hleft
    exact ⟨passes + 1, by rw [resolve_of_busy_pass pass busy, hpasses]; rfl⟩

theorem resolve_of_settles {states after : States} {pending left : List Pending}
    {calls : List Call} (h : Settles engine snapshot states pending calls after left)
    (hleft : left ≠ []) :
    resolve engine snapshot states pending = .error (.deadlock engine (left.map (·.stuck))) := by
  induction h with
  | idle pass =>
    rw [resolve, List.isEmpty_eq_false_iff.2 hleft, if_neg Bool.false_ne_true, pass_of_passes pass]
    simp
  | again pass busy _ ih =>
    rw [resolve_of_busy_pass pass busy, ih hleft]
    rfl

theorem resolve_of_breaks {states : States} {pending : List Pending} {calls : List Call} {c : Call}
    {e : StepError} (h : Breaks engine snapshot states pending calls c e) :
    resolve engine snapshot states pending = .error e := by
  induction h with
  | @now states pending calls c e pass =>
    have hne : pending.isEmpty = false := by cases pass <;> rfl
    rw [resolve, hne, if_neg Bool.false_ne_true, pass_of_passBreaks pass]
  | again pass busy _ ih =>
    rw [resolve_of_busy_pass pass busy, ih]
    rfl

/-- **A step settles or breaks off at a call that fails.** -/
theorem settles_or_breaks (states : States) (pending : List Pending) :
    (∃ calls after left, Settles engine snapshot states pending calls after left) ∨
    (∃ calls c e, Breaks engine snapshot states pending calls c e) := by
  -- a pass that calls something leaves fewer rules
  induction hn : pending.length using Nat.strong_induction_on generalizing states pending with
  | _ n ih =>
    rcases passes_or_passBreaks states pending with
      ⟨calls, mid, deferred, hpass⟩ | ⟨calls, c, e, hpass⟩
    · by_cases hcalls : calls = []
      · subst hcalls
        obtain ⟨rfl, rfl, -⟩ := hpass.of_no_calls
        exact .inl ⟨[], _, _, .idle hpass⟩
      · have hlen := hpass.length_eq
        have hpos := List.length_pos_iff.2 hcalls
        rcases ih deferred.length (by omega) mid deferred rfl with
          ⟨later, after, left, hmore⟩ | ⟨later, c, e, hmore⟩
        · exact .inl ⟨_, after, left, .again hpass hcalls hmore⟩
        · exact .inr ⟨_, c, e, .again hpass hcalls hmore⟩
    · exact .inr ⟨calls, c, e, .now hpass⟩

/-- **The three ways in which a step can end**, each with how it got there. -/
theorem resolve_cases (engine : String) (snapshot : Universe) (states : States)
    (pending : List Pending) :
    (∃ calls after passes, Settles engine snapshot states pending calls after [] ∧
      resolve engine snapshot states pending = .ok (after, passes)) ∨
    (∃ calls after left, Settles engine snapshot states pending calls after left ∧ left ≠ [] ∧
      resolve engine snapshot states pending = .error (.deadlock engine (left.map (·.stuck)))) ∨
    (∃ calls c e, Breaks engine snapshot states pending calls c e ∧
      resolve engine snapshot states pending = .error e) := by
  rcases settles_or_breaks states pending with ⟨calls, after, left, h⟩ | ⟨calls, c, e, h⟩
  · by_cases hleft : left = []
    · subst hleft
      obtain ⟨passes, hpasses⟩ := resolve_of_settles_nil h
      exact .inl ⟨calls, after, passes, h, hpasses⟩
    · exact .inr (.inl ⟨calls, after, left, h, hleft, resolve_of_settles h hleft⟩)
  · exact .inr (.inr ⟨calls, c, e, h, resolve_of_breaks h⟩)

/-- The rules of a step are those called and those left. -/
theorem Settles.perm {states after : States} {pending left : List Pending} {calls : List Call}
    (h : Settles engine snapshot states pending calls after left) :
    pending.Perm (calls.map (·.pending) ++ left) := by
  induction h with
  | idle => exact .refl _
  | again pass _ _ ih =>
    rw [List.map_append, List.append_assoc]
    exact pass.perm.trans (ih.append_left _)

/-- When nothing is left, all rules have been called. -/
theorem Settles.perm_of_nil {states after : States} {pending : List Pending} {calls : List Call}
    (h : Settles engine snapshot states pending calls after []) :
    pending.Perm (calls.map (·.pending)) := by
  have hperm := h.perm
  rwa [List.append_nil] at hperm

/-- Rules that are left keep their order. -/
theorem Settles.sublist {states after : States} {pending left : List Pending} {calls : List Call}
    (h : Settles engine snapshot states pending calls after left) : left.Sublist pending := by
  induction h with
  | idle => exact .refl _
  | again pass _ _ ih => exact ih.trans pass.sublist

/-- No rule that is left can be called in the end. -/
theorem Settles.stuck {states after : States} {pending left : List Pending} {calls : List Call}
    (h : Settles engine snapshot states pending calls after left) :
    ∀ p ∈ left, call? engine snapshot after p = none := by
  induction h with
  | idle pass => exact pass.of_no_calls.2.2
  | again _ _ _ ih => exact ih

/-- The calls of a pass that breaks off are of different rules. -/
theorem PassBreaks.perm {states : States} {pending : List Pending} {calls : List Call} {c : Call}
    {e : StepError} (h : PassBreaks engine snapshot states pending calls c e) :
    ∃ rest, pending.Perm ((calls ++ [c]).map (·.pending) ++ rest) := by
  induction h with
  | @refuse _ c rest => exact ⟨rest, .refl _⟩
  | @defer _ p _ _ _ _ _ _ ih =>
    obtain ⟨rest, hrest⟩ := ih
    exact ⟨p :: rest, (hrest.cons p).trans List.perm_middle.symm⟩
  | fire _ _ ih =>
    obtain ⟨rest, hrest⟩ := ih
    exact ⟨rest, hrest.cons _⟩

/-- The calls of a step that breaks off are of different rules. -/
theorem Breaks.perm {states : States} {pending : List Pending} {calls : List Call} {c : Call}
    {e : StepError} (h : Breaks engine snapshot states pending calls c e) :
    ∃ rest, pending.Perm ((calls ++ [c]).map (·.pending) ++ rest) := by
  induction h with
  | now pass => exact pass.perm
  | again pass _ _ ih =>
    obtain ⟨rest, hrest⟩ := ih
    refine ⟨rest, ?_⟩
    rw [List.append_assoc, List.map_append, List.append_assoc]
    exact pass.perm.trans (hrest.append_left _)

/-! ## The calls alone

Where it does not matter which pass a call belongs to, a step is a sequence of calls, each made against
the states that the ones before it have left. -/

/-- Calls one after the other. -/
inductive Execution (engine : String) (snapshot : Universe) (start : States) :
    List Call → States → Prop
  | nil : Execution engine snapshot start [] start
  | concat {calls : List Call} {c : Call} {states after : States}
      (before : Execution engine snapshot start calls states)
      (fires : Fires engine snapshot states c after) :
      Execution engine snapshot start (calls ++ [c]) after

variable {start : States} {done : List Call}

theorem Passes.execution {states after : States} {pending deferred : List Pending}
    {calls : List Call} (h : Passes engine snapshot states pending calls after deferred)
    (before : Execution engine snapshot start done states) :
    Execution engine snapshot start (done ++ calls) after := by
  induction h generalizing done with
  | nil => rwa [List.append_nil]
  | defer _ _ ih => exact ih before
  | @fire states mid after c _ _ calls fires _ ih =>
    rw [← List.singleton_append, ← List.append_assoc]
    exact ih (before.concat fires)

theorem Settles.execution {states after : States} {pending left : List Pending} {calls : List Call}
    (h : Settles engine snapshot states pending calls after left)
    (before : Execution engine snapshot start done states) :
    Execution engine snapshot start (done ++ calls) after := by
  induction h generalizing done with
  | idle => rwa [List.append_nil]
  | again pass _ _ ih =>
    rw [← List.append_assoc]
    exact ih (pass.execution before)

theorem PassBreaks.execution {states : States} {pending : List Pending} {calls : List Call} {c : Call}
    {e : StepError} (h : PassBreaks engine snapshot states pending calls c e)
    (before : Execution engine snapshot start done states) :
    ∃ last, Execution engine snapshot start (done ++ calls) last ∧
      Refuses engine snapshot last c e := by
  induction h generalizing done with
  | refuse refuses => exact ⟨_, by rwa [List.append_nil], refuses⟩
  | defer _ _ ih => exact ih before
  | fire fires _ ih =>
    rw [← List.singleton_append, ← List.append_assoc]
    exact ih (before.concat fires)

theorem Breaks.execution {states : States} {pending : List Pending} {calls : List Call} {c : Call}
    {e : StepError} (h : Breaks engine snapshot states pending calls c e)
    (before : Execution engine snapshot start done states) :
    ∃ last, Execution engine snapshot start (done ++ calls) last ∧
      Refuses engine snapshot last c e := by
  induction h generalizing done with
  | now pass => exact pass.execution before
  | again pass _ _ ih =>
    rw [← List.append_assoc]
    exact ih (pass.execution before)

/-- The calls of a step that settles, from where it starts. -/
theorem Settles.execution_nil {states after : States} {pending left : List Pending}
    {calls : List Call} (h : Settles engine snapshot states pending calls after left) :
    Execution engine snapshot states calls after := by
  have hexec := h.execution .nil
  rwa [List.nil_append] at hexec

/-- The calls of a step that breaks off, from where it starts up to the one that fails. -/
theorem Breaks.execution_nil {states : States} {pending : List Pending} {calls : List Call} {c : Call}
    {e : StepError} (h : Breaks engine snapshot states pending calls c e) :
    ∃ last, Execution engine snapshot states calls last ∧ Refuses engine snapshot last c e := by
  have hexec := h.execution .nil
  rwa [List.nil_append] at hexec

end Step

/-- The step of a graph is the loop over all rules of the engine, from nothing. -/
theorem RuleGraph.step_eq {g : RuleGraph} {engine : String} {rules : AgentRules}
    (h : g.agents engine = .ok rules) (snapshot : Universe) :
    g.step engine snapshot =
      (Step.resolve engine snapshot Table.empty (Step.pendingOf rules)).map (·.1) := by
  rw [step, h]

end Orrery
