import Orrery.Proofs.Path
import Orrery.RuleGraph

/-!
# What an accepted table of rules satisfies

`RuleGraph.ofRules` goes through engines, agents and rules and reports the first thing it finds.  What
it means to be accepted is a condition without an order: `ofRules_eq_ok_iff` says that a table is
accepted exactly when the rules of every agent are `Sound`.

The condition on the targets is that any two rules of an agent are `Beside` each other: of two paths
that they write, neither begins the other.  The check carries along the paths seen so far, and
`firstOverlap_eq_none_iff` removes them.
-/

namespace Orrery

/-! ## Targets -/

theorem overlaps_eq_false_iff {p q : List String} : overlaps p q = false ↔ Apart p q := by
  rw [overlaps, Bool.or_eq_false_iff, ← Bool.not_eq_true, ← Bool.not_eq_true,
    List.isPrefixOf_iff_prefix, List.isPrefixOf_iff_prefix, Apart]

namespace Rule

/-- Of two paths that the rules write, neither begins the other. -/
def Beside (r r' : Rule) : Prop :=
  ∀ p q, r.path? = some p → r'.path? = some q → Apart p q

theorem Beside.symm {r r' : Rule} (h : Beside r r') : Beside r' r :=
  fun p q hp hq => (h q p hq hp).symm

/-- The path that a rule writes is the path of its target, and leads somewhere. -/
theorem path?_eq_some_iff {r : Rule} {path : List String} :
    r.path? = some path ↔ r.produced.targetPath? = some path ∧ path ≠ [] := by
  unfold path?
  split
  · next h =>
    rw [h]
    constructor
    · intro h'
      exact absurd h' (by simp)
    · rintro ⟨h', hne⟩
      rw [Option.some.injEq] at h'
      exact absurd h'.symm hne
  · next h =>
    constructor
    · intro h'
      exact ⟨h', fun hnil => h (by rw [h', hnil])⟩
    · exact fun h' => h'.1

/-- A rule that writes no path discards what it produces. -/
theorem path?_eq_none_iff {r : Rule} : r.path? = none ↔ r.produced = .root := by
  have hsome := (Query.checkWriteTarget_eq_ok_iff r.produced).1 r.writable
  obtain ⟨path, hpath⟩ := Option.isSome_iff_exists.1 hsome
  rw [← Scope.targetPath?_eq_nil_iff, hpath]
  cases path with
  | nil => simp [path?, hpath]
  | cons f rest => simp [path?, hpath]

end Rule

/-- No overlap is found exactly when there is none, with what was seen before or among the rules. -/
theorem firstOverlap_eq_none_iff (seen : List (List String × Nat)) (index : Nat) (own : List Rule) :
    firstOverlap seen index own = none ↔
      (∀ r ∈ own, ∀ p, r.path? = some p → ∀ s ∈ seen, Apart p s.1) ∧ own.Pairwise Rule.Beside := by
  induction own generalizing seen index with
  | nil => simp [firstOverlap]
  | cons r rest ih =>
    rw [firstOverlap, List.pairwise_cons]
    cases hr : r.path? with
    | none =>
      -- a rule that discards its result overlaps nothing
      simp only [ih, List.forall_mem_cons, hr]
      simp [Rule.Beside, hr]
    | some path =>
      dsimp only
      cases hfind : seen.find? fun s => overlaps path s.1 with
      | some s =>
        have hov : overlaps path s.1 = true := by simpa using List.find?_some hfind
        have hmem : s ∈ seen := List.mem_of_find?_eq_some hfind
        simp only [reduceCtorEq, false_iff]
        rintro ⟨hseen, -⟩
        have hap := hseen r (List.mem_cons_self ..) path hr s hmem
        rw [overlaps_eq_false_iff.2 hap] at hov
        exact absurd hov (by simp)
      | none =>
        have hfree : ∀ s ∈ seen, Apart path s.1 := by
          intro s hs
          refine overlaps_eq_false_iff.1 ?_
          simpa using List.find?_eq_none.1 hfind s hs
        simp only [ih]
        constructor
        · rintro ⟨hseen, hpair⟩
          refine ⟨?_, ?_, hpair⟩
          · intro r' hr' p hp s hs
            rcases List.mem_cons.1 hr' with rfl | hr'
            · rw [hr, Option.some.injEq] at hp
              exact hp ▸ hfree s hs
            · exact hseen r' hr' p hp s (List.mem_append_left _ hs)
          · intro r' hr' p q hp hq
            rw [hr, Option.some.injEq] at hp
            have hap := hseen r' hr' q hq (path, index) (by simp)
            exact hp ▸ hap.symm
        · rintro ⟨hseen, hhead, hpair⟩
          refine ⟨?_, hpair⟩
          intro r' hr' p hp s hs
          rcases List.mem_append.1 hs with hs | hs
          · exact hseen r' (List.mem_cons_of_mem _ hr') p hp s hs
          · rw [List.mem_singleton.1 hs]
            exact (hhead r' hr' path p hr hp).symm

/-! ## Whole tables -/

/-- Going through a list in order succeeds exactly when every member does. -/
theorem forM_eq_ok_iff {α ε : Type} (f : α → Except ε PUnit) (l : List α) :
    l.forM f = .ok ⟨⟩ ↔ ∀ a ∈ l, f a = .ok ⟨⟩ := by
  induction l with
  | nil => simp [List.forM, pure, Except.pure]
  | cons a l ih =>
    rw [List.forM, List.forall_mem_cons, ← ih]
    cases f a with
    | error e => simp [bind, Except.bind]
    | ok u => simp [bind, Except.bind]

namespace RuleGraph

/-- An agent has rules, they write beside each other, and they read agents of their engine only. -/
structure Sound (rules : AgentRules) (own : List Rule) : Prop where
  /-- The agent has a rule. -/
  nonempty : own ≠ []
  /-- No two targets overlap. -/
  beside : own.Pairwise Rule.Beside
  /-- Every agent that is read belongs to the engine. -/
  known : ∀ r ∈ own, ∀ name ∈ r.consumed.agents, rules.contains name = true

theorem checkReference_eq_ok_iff (engines : Table AgentRules) (engine agent : String)
    (rules : AgentRules) (name : String) :
    checkReference engines engine agent rules name = .ok () ↔ rules.contains name = true := by
  unfold checkReference
  by_cases h : rules.contains name = true
  · simp [h]
  · rw [if_neg h]
    cases owner? engines name <;> simp [h]

theorem checkAgent_eq_ok_iff (engines : Table AgentRules) (engine : String) (rules : AgentRules)
    (agent : String) (own : List Rule) :
    checkAgent engines engine rules agent own = .ok () ↔ Sound rules own := by
  have hrefs : (own.forM fun r => r.consumed.agents.forM
      (checkReference engines engine agent rules)) = .ok ⟨⟩ ↔
      ∀ r ∈ own, ∀ name ∈ r.consumed.agents, rules.contains name = true := by
    simp only [forM_eq_ok_iff, checkReference_eq_ok_iff]
  have hoverlap := firstOverlap_eq_none_iff [] 0 own
  unfold checkAgent
  cases hown : own.isEmpty with
  | true =>
    simp only [throw, throwThe, MonadExceptOf.throw, bind, Except.bind, if_true, reduceCtorEq,
      false_iff]
    exact fun h => h.nonempty (List.isEmpty_iff.1 hown)
  | false =>
    have hne : own ≠ [] := fun h => by simp [h] at hown
    cases hfirst : firstOverlap [] 0 own with
    | some found =>
      simp only [throw, throwThe, MonadExceptOf.throw, bind, Except.bind, Bool.false_eq_true,
        if_false, reduceCtorEq, false_iff]
      intro h
      rw [hoverlap.2 ⟨by simp, h.beside⟩] at hfirst
      exact absurd hfirst (by simp)
    | none =>
      simp only [bind, Except.bind, Bool.false_eq_true, if_false]
      rw [hrefs]
      exact ⟨fun h => ⟨hne, (hoverlap.1 hfirst).2, h⟩, fun h => h.known⟩

/-- **A table is accepted exactly when the rules of every agent are sound**, and is kept as it is. -/
theorem ofRules_eq_ok_iff {engines : Table AgentRules} {g : RuleGraph} :
    ofRules engines = .ok g ↔
      g = ⟨engines⟩ ∧ ∀ e ∈ engines.entries, ∀ a ∈ e.2.entries, Sound e.2 a.2 := by
  have hall : (engines.entries.forM fun e => e.2.entries.forM fun a =>
      checkAgent engines e.1 e.2 a.1 a.2) = .ok ⟨⟩ ↔
      ∀ e ∈ engines.entries, ∀ a ∈ e.2.entries, Sound e.2 a.2 := by
    simp only [forM_eq_ok_iff, checkAgent_eq_ok_iff]
  rw [← hall]
  unfold ofRules
  cases engines.entries.forM fun e => e.2.entries.forM fun a =>
      checkAgent engines e.1 e.2 a.1 a.2 with
  | error e => simp [bind, Except.bind]
  | ok u => simp [bind, Except.bind, pure, Except.pure, eq_comm]

/-- The rules of an engine are those of the table. -/
theorem agents_eq_ok_iff {g : RuleGraph} {engine : String} {rules : AgentRules} :
    g.agents engine = .ok rules ↔ g.engines.get? engine = some rules := by
  unfold agents
  cases g.engines.get? engine <;> simp

/-- In an accepted graph, every agent of every engine has sound rules. -/
theorem sound_of_ofRules {engines : Table AgentRules} {g : RuleGraph} {engine : String}
    {rules : AgentRules} (hg : ofRules engines = .ok g) (hr : g.agents engine = .ok rules) :
    ∀ a ∈ rules.entries, Sound rules a.2 := by
  obtain ⟨rfl, hsound⟩ := ofRules_eq_ok_iff.1 hg
  have hmem := Table.mem_entries_iff.2 (agents_eq_ok_iff.1 hr)
  exact hsound _ hmem

end RuleGraph

end Orrery
