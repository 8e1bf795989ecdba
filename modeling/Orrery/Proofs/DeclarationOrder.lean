import Orrery.Proofs.WriteOnce
import Mathlib.Data.List.Nodup

/-!
# The order of declaration does not matter

The rules of an agent are listed in some order, and a step goes through them in that order, so it calls
them in different passes and against different states when the order changes.  What it comes to is the
same, under one condition: **no rule reads a place above a target of its agent**.  Such a place changes
each time something is written below it, so what is found there depends on who comes first.

The argument does not follow the passes.  Let one list settle.  Then whatever another order calls has
been called there too, with the same input (`Settles.exists_call`): all that the call has read was
written by earlier calls, these have their like in the list that settled, and what they wrote is still
there in the end, so the rule cannot have been left.  By induction the calls of either order are calls
of the other (`Course.covered`), the same places hold the same outputs, and the same rules are left.  A
refusal has its like too, so an order that is refused never has a partner that settles.

Positions change with the order, so rules are compared by their agent and by what they say.
-/

namespace Orrery

/-- A rule, with its agent and without its position. -/
def Pending.key (p : Pending) : String × Rule := (p.agent, p.rule)

namespace Step

/-- What is done in a call, without the position of the rule. -/
def Call.key (c : Call) : (String × Rule) × Value × Except ProducerError Value :=
  (c.pending.key, c.input, c.result)

/-- All rules of an engine with their agents, without positions. -/
def roster (rules : AgentRules) : List (String × Rule) :=
  rules.entries.flatMap fun e => e.2.map fun r => (e.1, r)

/-- The rules of each agent write beside each other, and none reads a place above a target. -/
structure Orderly (all : List (String × Rule)) : Prop where
  /-- No two targets of an agent overlap. -/
  beside : all.Pairwise fun k l => k.1 = l.1 → k.2.Beside l.2
  /-- A place that is read is a target, or inside one, or has nothing to do with it. -/
  whole : ∀ k ∈ all, ∀ path ∈ k.2.consumed.readPaths, ∀ l ∈ all, l.1 = k.1 →
    ∀ target, l.2.path? = some target → path <+: target → path = target

/-- Calls that have been made in the course of a step over some rules. -/
structure Course (engine : String) (snapshot : Universe) (all : List (String × Rule))
    (calls : List Call) (states : States) : Prop where
  /-- They were made one after the other, from nothing. -/
  execution : Execution engine snapshot Table.empty calls states
  /-- They are calls of these rules. -/
  listed : ∀ c ∈ calls, c.pending.key ∈ all
  /-- What they write does not overlap. -/
  beside : (calls.map (·.pending)).Pairwise Pending.Beside

variable {engine : String} {snapshot : Universe} {all : List (String × Rule)}
variable {pending left : List Pending} {calls others : List Call} {states after : States}

/-! ## Courses -/

/-- Rules listed in any order write beside each other if they do so in one. -/
theorem Orderly.pairwise (h : Orderly all) (hp : (pending.map Pending.key).Perm all) :
    pending.Pairwise Pending.Beside := by
  have hkeys := (hp.pairwise_iff fun {k l} hkl heq => (hkl heq.symm).symm).2 h.beside
  rw [List.pairwise_map] at hkeys
  exact hkeys

theorem Settles.course (h : Settles engine snapshot Table.empty pending calls after left)
    (hp : (pending.map Pending.key).Perm all) (ho : Orderly all) :
    Course engine snapshot all calls after := by
  refine ⟨h.execution_nil, fun c hc => ?_, h.beside (ho.pairwise hp)⟩
  have hmem : c.pending ∈ pending :=
    h.perm.mem_iff.2 (List.mem_append_left _ (List.mem_map_of_mem hc))
  exact hp.mem_iff.1 (List.mem_map_of_mem hmem)

/-- A step that breaks off has made its calls and then one more, which is refused. -/
theorem Breaks.course {c : Call} {e : StepError}
    (h : Breaks engine snapshot Table.empty pending calls c e)
    (hp : (pending.map Pending.key).Perm all) (ho : Orderly all) :
    ∃ last, Course engine snapshot all calls last ∧ c.pending.key ∈ all ∧
      call? engine snapshot last c.pending = some c := by
  obtain ⟨rest, hperm⟩ := h.perm
  obtain ⟨last, hlast, hrefuses⟩ := h.execution_nil
  have hbeside := (hperm.pairwise_iff fun hpq => hpq.symm).1 (ho.pairwise hp)
  have hkey : ∀ d ∈ calls ++ [c], d.pending.key ∈ all := by
    intro d hd
    have hmem : d.pending ∈ pending :=
      hperm.mem_iff.2 (List.mem_append_left _ (List.mem_map_of_mem hd))
    exact hp.mem_iff.1 (List.mem_map_of_mem hmem)
  rw [List.map_append, List.append_assoc] at hbeside
  exact ⟨last, ⟨hlast, fun d hd => hkey d (List.mem_append_left _ hd),
    hbeside.sublist (List.sublist_append_left _ _)⟩, hkey c (by simp), hrefuses.called⟩

/-- The last call of a course was made against what the others had left. -/
theorem Course.of_concat {c : Call} (h : Course engine snapshot all (calls ++ [c]) states) :
    ∃ mid, Course engine snapshot all calls mid ∧ call? engine snapshot mid c.pending = some c := by
  have hbeside := h.beside
  rw [List.map_append] at hbeside
  generalize hlist : calls ++ [c] = list at h
  cases h.execution with
  | nil => exact absurd hlist (by simp)
  | @concat front last mid _ before fires =>
    obtain ⟨rfl, hlast⟩ := List.append_inj' hlist rfl
    obtain rfl := List.singleton_inj.1 hlast
    exact ⟨mid, ⟨before, fun d hd => h.listed d (List.mem_append_left _ hd),
      hbeside.sublist (List.sublist_append_left _ _)⟩, fires.called⟩

/-- Every call of a course was made after some of the others. -/
theorem Course.exists_before (h : Course engine snapshot all calls states) {c : Call}
    (hc : c ∈ calls) :
    ∃ front mid, front ⊆ calls ∧ Course engine snapshot all front mid ∧
      call? engine snapshot mid c.pending = some c := by
  induction calls using List.reverseRecOn generalizing states with
  | nil => simp at hc
  | append_singleton front last ih =>
    obtain ⟨mid, hmid, hcalled⟩ := h.of_concat
    rcases List.mem_append.1 hc with hc | hc
    · obtain ⟨front', mid', hsub, hfront, hcalled'⟩ := ih hmid hc
      exact ⟨front', mid', fun d hd => List.mem_append_left _ (hsub hd), hfront, hcalled'⟩
    · rw [List.mem_singleton.1 hc]
      exact ⟨front, mid, List.subset_append_left _ _, hmid, hcalled⟩

/-! ## What has been read stays as it was read -/

/-- **What a rule finds was written by one call**: it is the output of a call of its agent, or lies
inside it. -/
theorem Course.exists_call_of_under? (h : Course engine snapshot all calls states)
    (ho : Orderly all) {p : Pending} (hp : p.key ∈ all) {path : List String}
    (hpath : path ∈ p.rule.consumed.readPaths) {v : Value}
    (hv : (scopeOf engine snapshot p).under? states path = some v) :
    ∃ c ∈ calls, c.agent = p.agent ∧ ∃ target output rest, c.pending.rule.path? = some target ∧
      c.result = .ok output ∧ path = target ++ rest ∧ output.at? rest = some v := by
  obtain ⟨state, hstate, hat⟩ := Option.bind_eq_some_iff.1 hv
  rcases h.execution.at?_cases hstate hat with ⟨c, hc, hagent, target, htarget, hpre⟩ | hbelow
  · -- above a target nothing is read, so this is the target itself
    obtain rfl := ho.whole _ hp path hpath _ (h.listed c hc) hagent target htarget hpre
    obtain ⟨output, hresult⟩ := h.execution.exists_output c hc
    have hwritten := h.execution.at?_target h.beside hc htarget hresult []
    rw [List.append_nil, hagent, hstate, Option.bind_some, hat] at hwritten
    exact ⟨c, hc, hagent, path, output, [], htarget, hresult, (List.append_nil _).symm,
      hwritten.symm⟩
  · exact hbelow

/-- What a rule finds in one course, it finds in every other that has made the same calls. -/
theorem Course.under?_mono (h : Course engine snapshot all calls states)
    (h' : Course engine snapshot all others after)
    (hcov : calls.map Call.key ⊆ others.map Call.key) (ho : Orderly all) {p : Pending}
    (hp : p.key ∈ all) {path : List String} (hpath : path ∈ p.rule.consumed.readPaths) {v : Value}
    (hv : (scopeOf engine snapshot p).under? states path = some v) :
    (scopeOf engine snapshot p).under? after path = some v := by
  obtain ⟨c, hc, hagent, target, output, rest, htarget, hresult, rfl, hrest⟩ :=
    h.exists_call_of_under? ho hp hpath hv
  obtain ⟨d, hd, hkey⟩ := List.mem_map.1 (hcov (List.mem_map_of_mem hc))
  simp only [Call.key, Pending.key, Prod.mk.injEq] at hkey
  obtain ⟨⟨hagent', hrule⟩, -, hresult'⟩ := hkey
  have hwritten := h'.execution.at?_target h'.beside hd (by rw [hrule]; exact htarget)
    (hresult'.trans hresult) rest
  rw [hrest, Call.agent, hagent'.trans hagent] at hwritten
  exact hwritten

/-- **A call that is made in one course can be made in every other that has made the same calls**, and
is answered the same way. -/
theorem Course.call?_mono (h : Course engine snapshot all calls states)
    (h' : Course engine snapshot all others after)
    (hcov : calls.map Call.key ⊆ others.map Call.key) (ho : Orderly all) {p q : Pending} {c : Call}
    (hp : p.key ∈ all) (hcall : call? engine snapshot states p = some c) (hkey : q.key = p.key) :
    ∃ d, call? engine snapshot after q = some d ∧ d.key = c.key := by
  obtain ⟨input, hinput, rfl⟩ := Option.map_eq_some_iff.1 hcall
  have hfound : (scopeOf engine snapshot p).resolve? after p.rule.consumed = some input :=
    Scope.lookup?_mono _ _ (fun path hpath v hv => h.under?_mono h' hcov ho hp hpath hv) _ hinput
  have hkey' := hkey
  simp only [Pending.key, Prod.mk.injEq] at hkey'
  obtain ⟨hagent, hrule⟩ := hkey'
  refine ⟨⟨q, input, q.rule.produce (q.rule.consumed.arguments input)⟩, ?_, ?_⟩
  · rw [call?, scopeOf, hagent, hrule, hfound]
    rfl
  · simp only [Call.key, hkey, hrule]

/-- No rule that has been called is waiting in the end. -/
theorem Course.exists_call? (h : Course engine snapshot all calls states) (ho : Orderly all)
    {c : Call} (hc : c ∈ calls) : ∃ d, call? engine snapshot states c.pending = some d ∧
      d.key = c.key := by
  obtain ⟨front, mid, hsub, hfront, hcalled⟩ := h.exists_before hc
  exact hfront.call?_mono h (List.map_subset _ hsub) ho (h.listed c hc) hcalled rfl

/-! ## Two orders of the same rules -/

/-- **What another order calls is called in every order that settles**, with the same input. -/
theorem Settles.exists_call (hs : Settles engine snapshot Table.empty pending others after left)
    (hp : (pending.map Pending.key).Perm all) (ho : Orderly all)
    (h : Course engine snapshot all calls states)
    (hcov : calls.map Call.key ⊆ others.map Call.key) {c : Call} (hc : c.pending.key ∈ all)
    (hcalled : call? engine snapshot states c.pending = some c) :
    ∃ d ∈ others, d.key = c.key := by
  have h' := hs.course hp ho
  obtain ⟨q, hq, hkey⟩ := List.mem_map.1 (hp.mem_iff.2 hc)
  obtain ⟨d, hd, hdkey⟩ := h.call?_mono h' hcov ho hc hcalled hkey
  rcases List.mem_append.1 (hs.perm.mem_iff.1 hq) with hq | hq
  · -- the rule has been called, with an input that it would still find now
    obtain ⟨made, hmade, rfl⟩ := List.mem_map.1 hq
    obtain ⟨d', hd', hkey'⟩ := h'.exists_call? ho hmade
    rw [hd, Option.some.injEq] at hd'
    exact ⟨made, hmade, by rw [← hkey', ← hd', hdkey]⟩
  · -- it cannot be among the rules left, because none of these can be called
    rw [hs.stuck q hq] at hd
    exact absurd hd (by simp)

/-- **The calls of any course are calls of an order that settles.** -/
theorem Course.covered (h : Course engine snapshot all calls states)
    (hs : Settles engine snapshot Table.empty pending others after left)
    (hp : (pending.map Pending.key).Perm all) (ho : Orderly all) :
    calls.map Call.key ⊆ others.map Call.key := by
  induction calls using List.reverseRecOn generalizing states with
  | nil => simp
  | append_singleton front last ih =>
    obtain ⟨mid, hmid, hcalled⟩ := h.of_concat
    have hcov := ih hmid
    obtain ⟨d, hd, hkey⟩ := hs.exists_call hp ho hmid hcov (h.listed last (by simp)) hcalled
    intro k hk
    rw [List.map_append, List.mem_append] at hk
    rcases hk with hk | hk
    · exact hcov hk
    · rw [List.map_singleton, List.mem_singleton] at hk
      rw [hk, ← hkey]
      exact List.mem_map_of_mem hd

variable {pending' left' : List Pending} {states' : States}

theorem mem_writesOf_of_subset (hcov : calls.map Call.key ⊆ others.map Call.key) {agent : String}
    {w : List String × Value} (hw : w ∈ writesOf agent calls) : w ∈ writesOf agent others := by
  obtain ⟨c, hc, hagent, hpath, hresult⟩ := mem_writesOf_iff.1 hw
  obtain ⟨d, hd, hkey⟩ := List.mem_map.1 (hcov (List.mem_map_of_mem hc))
  simp only [Call.key, Pending.key, Prod.mk.injEq] at hkey
  obtain ⟨⟨hagent', hrule⟩, -, hresult'⟩ := hkey
  refine mem_writesOf_iff.2 ⟨d, hd, hagent'.trans hagent, ?_, hresult'.trans hresult⟩
  rw [hrule]
  exact hpath

/-- Courses with the same calls have made the same writes, in some order. -/
theorem Course.writesOf_perm (h : Course engine snapshot all calls states)
    (h' : Course engine snapshot all others states')
    (hcov : calls.map Call.key ⊆ others.map Call.key)
    (hcov' : others.map Call.key ⊆ calls.map Call.key) (agent : String) :
    (writesOf agent calls).Perm (writesOf agent others) := by
  have hnodup : ∀ {l : List (List String × Value)}, Value.Scattered l → l.Nodup := by
    intro l hl
    refine hl.imp fun {a b} hab heq => ?_
    rw [heq] at hab
    exact hab.1 List.prefix_rfl
  refine (List.perm_ext_iff_of_nodup (hnodup (scattered_writesOf h.beside agent))
    (hnodup (scattered_writesOf h'.beside agent))).2 fun w => ?_
  exact ⟨mem_writesOf_of_subset hcov, mem_writesOf_of_subset hcov'⟩

/-- **Courses with the same calls lead to the same states.** -/
theorem Course.states_eq (h : Course engine snapshot all calls states)
    (h' : Course engine snapshot all others states')
    (hcov : calls.map Call.key ⊆ others.map Call.key)
    (hcov' : others.map Call.key ⊆ calls.map Call.key) : states = states' := by
  refine Table.ext_get? fun agent => ?_
  have hperm := h.writesOf_perm h' hcov hcov' agent
  have hsame := Value.assemble_perm hperm (scattered_writesOf h.beside agent)
  rw [h.execution.assemble_writesOf, h'.execution.assemble_writesOf, Option.some.injEq] at hsame
  have hnone : states.get? agent = none ↔ states'.get? agent = none := by
    rw [h.execution.get?_eq_none_iff, h'.execution.get?_eq_none_iff, ← List.perm_nil,
      ← List.perm_nil]
    exact ⟨fun hnil => hperm.symm.trans hnil, fun hnil => hperm.trans hnil⟩
  cases hv : states.get? agent with
  | none => rw [hnone.1 hv]
  | some v =>
    cases hv' : states'.get? agent with
    | none => rw [hnone.2 hv'] at hv; exact absurd hv (by simp)
    | some v' =>
      rw [hv, hv', Option.getD_some, Option.getD_some] at hsame
      rw [hsame]

/-- A rule, without its position, whose input is not found. -/
def waits (engine : String) (snapshot : Universe) (states : States) (k : String × Rule) : Bool :=
  ((⟨engine, k.1, snapshot⟩ : Scope).resolve? states k.2.consumed).isNone

theorem waits_key (p : Pending) :
    waits engine snapshot states p.key = (call? engine snapshot states p).isNone := by
  rw [call?, Option.isNone_map]
  rfl

/-- **The rules left are those that are waiting in the end.** -/
theorem Settles.left_perm (h : Settles engine snapshot Table.empty pending calls after left)
    (hp : (pending.map Pending.key).Perm all) (ho : Orderly all) :
    (left.map Pending.key).Perm (all.filter (waits engine snapshot after)) := by
  have hcourse := h.course hp ho
  have hkeys : all.Perm ((calls.map (·.pending)).map Pending.key ++ left.map Pending.key) := by
    rw [← List.map_append]
    exact hp.symm.trans (h.perm.map _)
  have hcalled : ((calls.map (·.pending)).map Pending.key).filter (waits engine snapshot after) =
      [] := by
    refine List.filter_eq_nil_iff.2 fun k hk => ?_
    obtain ⟨p, hp, rfl⟩ := List.mem_map.1 hk
    obtain ⟨c, hc, rfl⟩ := List.mem_map.1 hp
    obtain ⟨d, hd, -⟩ := hcourse.exists_call? ho hc
    rw [waits_key, hd]
    simp
  have hleft : (left.map Pending.key).filter (waits engine snapshot after) =
      left.map Pending.key := by
    refine List.filter_eq_self.2 fun k hk => ?_
    obtain ⟨p, hp, rfl⟩ := List.mem_map.1 hk
    rw [waits_key, h.stuck p hp]
    rfl
  have hfilter := hkeys.filter (waits engine snapshot after)
  rw [List.filter_append, hcalled, List.nil_append, hleft] at hfilter
  exact hfilter.symm

/-- **Two orders that settle come to the same states with the same rules left.** -/
theorem Settles.rearranged (h : Settles engine snapshot Table.empty pending calls after left)
    (h' : Settles engine snapshot Table.empty pending' others states' left')
    (hp : (pending.map Pending.key).Perm all) (hp' : (pending'.map Pending.key).Perm all)
    (ho : Orderly all) :
    after = states' ∧ (left.map Pending.key).Perm (left'.map Pending.key) := by
  have hc := h.course hp ho
  have hc' := h'.course hp' ho
  obtain rfl := hc.states_eq hc' (hc.covered h' hp' ho) (hc'.covered h hp ho)
  exact ⟨rfl, (h.left_perm hp ho).trans (h'.left_perm hp' ho).symm⟩

/-- **An order that is refused has no partner that settles.** -/
theorem Breaks.not_settles {c : Call} {e : StepError}
    (h : Breaks engine snapshot Table.empty pending calls c e)
    (hp : (pending.map Pending.key).Perm all) (hp' : (pending'.map Pending.key).Perm all)
    (ho : Orderly all) :
    ¬ Settles engine snapshot Table.empty pending' others after left := by
  intro hs
  obtain ⟨cause, hcause, -⟩ := h.producer (ho.pairwise hp)
  obtain ⟨last, hlast, hkey, hcalled⟩ := h.course hp ho
  obtain ⟨d, hd, hdkey⟩ := hs.exists_call hp' ho hlast (hlast.covered hs hp' ho) hkey hcalled
  obtain ⟨output, houtput⟩ := (hs.course hp' ho).execution.exists_output d hd
  simp only [Call.key, Prod.mk.injEq] at hdkey
  rw [← hdkey.2.2, houtput] at hcause
  exact absurd hcause (by simp)

/-- **Two orders of the same rules end the same way.** -/
theorem resolve_rearranged (engine : String) (snapshot : Universe)
    (hp : (pending.map Pending.key).Perm all) (hp' : (pending'.map Pending.key).Perm all)
    (ho : Orderly all) :
    (∃ after passes passes', resolve engine snapshot Table.empty pending = .ok (after, passes) ∧
      resolve engine snapshot Table.empty pending' = .ok (after, passes')) ∨
    (∃ left left' : List Pending, left.Sublist pending ∧ left'.Sublist pending' ∧
      (left.map Pending.key).Perm (left'.map Pending.key) ∧
      resolve engine snapshot Table.empty pending =
        .error (.deadlock engine (left.map (·.stuck))) ∧
      resolve engine snapshot Table.empty pending' =
        .error (.deadlock engine (left'.map (·.stuck)))) ∨
    (∃ place function cause place' function' cause',
      resolve engine snapshot Table.empty pending = .error (.producer place function cause) ∧
      resolve engine snapshot Table.empty pending' =
        .error (.producer place' function' cause')) := by
  rcases settles_or_breaks Table.empty pending with ⟨calls, after, left, h⟩ | ⟨calls, c, e, h⟩
  · rcases settles_or_breaks Table.empty pending' with
      ⟨calls', after', left', h'⟩ | ⟨calls', c', e', h'⟩
    · obtain ⟨rfl, hleft⟩ := h.rearranged h' hp hp' ho
      by_cases hnil : left = []
      · subst hnil
        obtain rfl : left' = [] := List.map_eq_nil_iff.1 hleft.nil_eq.symm
        obtain ⟨passes, hpasses⟩ := resolve_of_settles_nil h
        obtain ⟨passes', hpasses'⟩ := resolve_of_settles_nil h'
        exact .inl ⟨after, passes, passes', hpasses, hpasses'⟩
      · have hne : left' ≠ [] := by
          rintro rfl
          exact hnil (List.map_eq_nil_iff.1 hleft.eq_nil)
        exact .inr (.inl ⟨left, left', h.sublist, h'.sublist, hleft, resolve_of_settles h hnil,
          resolve_of_settles h' hne⟩)
    · exact absurd h (h'.not_settles hp' hp ho)
  · rcases settles_or_breaks Table.empty pending' with
      ⟨calls', after', left', h'⟩ | ⟨calls', c', e', h'⟩
    · exact absurd h' (h.not_settles hp hp' ho)
    · -- both are refused, but maybe not by the same producer
      obtain ⟨cause, -, rfl⟩ := h.producer (ho.pairwise hp)
      obtain ⟨cause', -, rfl⟩ := h'.producer (ho.pairwise hp')
      exact .inr (.inr ⟨_, _, _, _, _, _, resolve_of_breaks h, resolve_of_breaks h'⟩)

/-! ## The rules of an engine without their positions -/

theorem map_key_number (agent : String) (index : Nat) (own : List Rule) :
    (number agent index own).map Pending.key = own.map fun r => (agent, r) := by
  induction own generalizing index with
  | nil => rfl
  | cons r rest ih => rw [number, List.map_cons, List.map_cons, ih, Pending.key]

theorem map_key_pendingOf (rules : AgentRules) :
    (pendingOf rules).map Pending.key = roster rules := by
  rw [pendingOf, roster, List.map_flatMap]
  simp only [map_key_number]

theorem mem_roster_iff {rules : AgentRules} {k : String × Rule} :
    k ∈ roster rules ↔ ∃ own, rules.get? k.1 = some own ∧ k.2 ∈ own := by
  rw [← map_key_pendingOf, ← exists_mem_pendingOf_iff, List.mem_map]
  simp only [Pending.key, Prod.ext_iff]

theorem roster_perm {rules rules' : AgentRules} (h : Table.Rel List.Perm rules rules') :
    (roster rules).Perm (roster rules') := by
  unfold Table.Rel at h
  unfold roster
  generalize rules.entries = l, rules'.entries = m at h
  induction h with
  | nil => exact .refl _
  | @cons a b l m hab _ ih =>
    rw [List.flatMap_cons, List.flatMap_cons, hab.1]
    exact (hab.2.map _).append ih

end Step

namespace RuleGraph

/-- **No rule reads a place above a target.**  Here are all rules of an agent; what they read below
`prev` and of other agents does not count. -/
def ReadsWhole (own : List Rule) : Prop :=
  ∀ r ∈ own, ∀ path ∈ r.consumed.readPaths, ∀ r' ∈ own, ∀ target ∈ r'.path?,
    path <+: target → path = target

instance (own : List Rule) : Decidable (ReadsWhole own) :=
  inferInstanceAs (Decidable (∀ r ∈ own, ∀ path ∈ r.consumed.readPaths, ∀ r' ∈ own,
    ∀ target ∈ r'.path?, path <+: target → path = target))

theorem orderly_roster {rules : AgentRules} (hsound : ∀ a ∈ rules.entries, Sound rules a.2)
    (hwhole : ∀ a ∈ rules.entries, ReadsWhole a.2) : Step.Orderly (Step.roster rules) := by
  refine ⟨?_, ?_⟩
  · rw [← Step.map_key_pendingOf, List.pairwise_map]
    exact Step.pairwise_beside_pendingOf hsound
  · intro k hk path hpath l hl heq target htarget hpre
    obtain ⟨own, hown, hk⟩ := Step.mem_roster_iff.1 hk
    obtain ⟨own', hown', hl⟩ := Step.mem_roster_iff.1 hl
    rw [heq, hown, Option.some.injEq] at hown'
    rw [← hown'] at hl
    exact hwhole _ (Table.mem_entries_iff.2 hown) k.2 hk path hpath l.2 hl target htarget hpre

/-- Sound rules stay sound in another order, among agents whose rules are in another order. -/
theorem Sound.perm {rules rules' : AgentRules} {own own' : List Rule} (h : Sound rules own)
    (hrules : Table.Rel List.Perm rules rules') (hown : own.Perm own') : Sound rules' own' := by
  refine ⟨?_, ?_, ?_⟩
  · rintro rfl
    exact h.nonempty hown.eq_nil
  · exact (hown.pairwise_iff fun hr => hr.symm).1 h.beside
  · intro r hr name hname
    exact hrules.contains (h.known r (hown.mem_iff.2 hr) name hname)

/-- A table is accepted in every order of its rules. -/
theorem ofRules_rearranged {engines engines' : Table AgentRules} {g : RuleGraph}
    (hg : ofRules engines = .ok g) (h : Table.Rel (Table.Rel List.Perm) engines engines') :
    ofRules engines' = .ok ⟨engines'⟩ := by
  obtain ⟨-, hsound⟩ := ofRules_eq_ok_iff.1 hg
  refine ofRules_eq_ok_iff.2 ⟨rfl, fun e' he' a' ha' => ?_⟩
  obtain ⟨e, he, -, hrules⟩ := h.exists_mem he'
  obtain ⟨a, ha, -, hown⟩ := hrules.exists_mem ha'
  exact (hsound e he a ha).perm hrules hown

/-- The stuck rules that two orders of the same rules report are the same rules, each at the position
it has in its order. -/
def SameStuck (rules rules' : AgentRules) (stuck stuck' : List StuckRule) : Prop :=
  ∃ left left' : List Pending,
    left.Sublist (Step.pendingOf rules) ∧ left'.Sublist (Step.pendingOf rules') ∧
    (left.map Pending.key).Perm (left'.map Pending.key) ∧
    stuck = left.map (·.stuck) ∧ stuck' = left'.map (·.stuck)

/-- **The order of declaration does not matter.**  Let a table of rules be accepted, and let no rule of
the engine read a place above a target of its agent.  List the rules of every agent in any other order:
the table is accepted again, and a step comes to the same states, or is stuck with the same rules, or
is refused by a producer, as before. -/
theorem step_rearranged {engines engines' : Table AgentRules} {g : RuleGraph} {engine : String}
    {rules : AgentRules} (hg : ofRules engines = .ok g) (hr : g.agents engine = .ok rules)
    (hwhole : ∀ a ∈ rules.entries, ReadsWhole a.2)
    (h : Table.Rel (Table.Rel List.Perm) engines engines') :
    ∃ g' rules', ofRules engines' = .ok g' ∧ g'.agents engine = .ok rules' ∧
      Table.Rel List.Perm rules rules' ∧
      ∀ snapshot,
        (∀ states, g.step engine snapshot = .ok states → g'.step engine snapshot = .ok states) ∧
        (∀ stuck, g.step engine snapshot = .error (.deadlock engine stuck) →
          ∃ stuck', g'.step engine snapshot = .error (.deadlock engine stuck') ∧
            SameStuck rules rules' stuck stuck') ∧
        (∀ place function cause,
          g.step engine snapshot = .error (.producer place function cause) →
          ∃ place' function' cause',
            g'.step engine snapshot = .error (.producer place' function' cause')) := by
  have hg' := ofRules_rearranged hg h
  have hget := agents_eq_ok_iff.1 hr
  rw [(ofRules_eq_ok_iff.1 hg).1] at hget
  obtain ⟨rules', hget', hrules⟩ := h.exists_get? hget
  have hr' : (⟨engines'⟩ : RuleGraph).agents engine = .ok rules' := agents_eq_ok_iff.2 hget'
  have ho := orderly_roster (sound_of_ofRules hg hr) hwhole
  have hp : ((Step.pendingOf rules).map Pending.key).Perm (Step.roster rules) := by
    rw [Step.map_key_pendingOf]
  have hp' : ((Step.pendingOf rules').map Pending.key).Perm (Step.roster rules) := by
    rw [Step.map_key_pendingOf]
    exact (Step.roster_perm hrules).symm
  refine ⟨⟨engines'⟩, rules', hg', hr', hrules, fun snapshot => ?_⟩
  rw [step_eq hr, step_eq hr']
  rcases Step.resolve_rearranged engine snapshot hp hp' ho with
    ⟨after, passes, passes', hok, hok'⟩ |
    ⟨left, left', hsub, hsub', hperm, hdead, hdead'⟩ |
    ⟨place, function, cause, place', function', cause', hrefused, hrefused'⟩
  · rw [hok, hok']
    exact ⟨fun states hs => hs, fun stuck hs => absurd hs (by simp [Except.map]),
      fun _ _ _ hs => absurd hs (by simp [Except.map])⟩
  · rw [hdead, hdead']
    refine ⟨fun states hs => absurd hs (by simp [Except.map]), fun stuck hs => ?_,
      fun _ _ _ hs => absurd hs (by simp [Except.map])⟩
    obtain rfl : left.map (·.stuck) = stuck := by simpa [Except.map] using hs
    exact ⟨_, rfl, left, left', hsub, hsub', hperm, rfl, rfl⟩
  · rw [hrefused, hrefused']
    exact ⟨fun states hs => absurd hs (by simp [Except.map]),
      fun stuck hs => absurd hs (by simp [Except.map]), fun _ _ _ _ => ⟨_, _, _, rfl⟩⟩

end RuleGraph

namespace Sky

/-- The rules of both, those of the moon from the last to the first. -/
def rules' : AgentRules :=
  ⟨[("moon", moon.reverse), ("sun", sun)], List.pairwise_pair.2 (by decide)⟩

/-- The engine with these rules. -/
def engines' : Table AgentRules := Table.single "sky" rules'

theorem rearranged : Table.Rel (Table.Rel List.Perm) engines engines' :=
  .cons ⟨rfl, .cons ⟨rfl, moon.reverse_perm.symm⟩ (.cons ⟨rfl, .refl _⟩ .nil)⟩ .nil

theorem readsWhole : ∀ a ∈ rules.entries, RuleGraph.ReadsWhole a.2 := by decide

end Sky

/-- In the small sky the moon's rules may be listed the other way round: no rule of it has to wait
then, and a step comes to the same. -/
theorem RuleGraph.sky_rearranged :
    ofRules Sky.engines = .ok ⟨Sky.engines⟩ ∧
    (⟨Sky.engines⟩ : RuleGraph).agents "sky" = .ok Sky.rules ∧
    ∃ g', ofRules Sky.engines' = .ok g' ∧ g'.step "sky" Sky.snapshot = .ok Sky.after := by
  have hg : ofRules Sky.engines = .ok ⟨Sky.engines⟩ := rfl
  have hr : (⟨Sky.engines⟩ : RuleGraph).agents "sky" = .ok Sky.rules := rfl
  obtain ⟨g', rules', hg', -, -, hstep⟩ := step_rearranged hg hr Sky.readsWhole Sky.rearranged
  exact ⟨hg, hr, g', hg', (hstep Sky.snapshot).1 Sky.after Sky.step_after⟩

end Orrery
