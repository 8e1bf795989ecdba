import Orrery.Physics
import Orrery.Proofs.Acceptance

/-!
# What a table of rules is refused for

`RuleGraph.ofRules` goes through engines, agents and rules, and gives up at the first thing that is wrong.
This file says what that comes to without going through anything.

* A table is `WellFormed` if every agent has rules, no two targets of an agent overlap, and the agents that
  are read belong to the engine.  What a query reads is said by `Query.Mentions`, and not by the list that
  the check makes.
* An agent's rules have one `Fault` at most, although several things may be wrong with them: no rules
  before overlapping targets, these before a reference.  Of overlapping targets the least position that
  overlaps an earlier one is reported, with the least such earlier position (`LeastOverlap`).  Of the
  references it is the first in the order of the rules and, inside a query, from left to right
  (`Query.FirstStray`), and it is blamed on the least engine that has the name (`LeastOwner`).
* `RuleGraph.ofRules_verdict`: a table is accepted exactly when it is well-formed, and is otherwise refused
  with the fault of the first agent that has one, in the order of the engines and then of the agents.

The loop over the targets carries along the paths seen so far.  `Seen` says what they are, and the least
positions come from their being listed in order.
-/

namespace Orrery

/-! ## What a query mentions -/

namespace Query

/-- A query names an agent somewhere. -/
inductive Mentions (name : String) : Query → Prop
  /-- It is the agent. -/
  | agent : Mentions name (.agent name)
  /-- In the snapshot. -/
  | prev {inner : Query} (h : Mentions name inner) : Mentions name (.prev inner)
  /-- In the container of a field. -/
  | access {container : Query} {field : String} (h : Mentions name container) :
      Mentions name (.access container field)
  /-- In one of several queries. -/
  | tuple {items : List Query} {q : Query} (mem : q ∈ items) (h : Mentions name q) :
      Mentions name (.tuple items)

/-- Of the agents that a query names, from left to right, the first that is not known. -/
inductive FirstStray (known : String → Prop) (name : String) : Query → Prop
  /-- It is the agent. -/
  | agent (stray : ¬ known name) : FirstStray known name (.agent name)
  /-- In the snapshot. -/
  | prev {inner : Query} (h : FirstStray known name inner) : FirstStray known name (.prev inner)
  /-- In the container of a field. -/
  | access {container : Query} {field : String} (h : FirstStray known name container) :
      FirstStray known name (.access container field)
  /-- In one of several queries, after some that name known agents only. -/
  | tuple {before after : List Query} {q : Query}
      (clear : ∀ p ∈ before, ∀ other, p.Mentions other → known other)
      (h : FirstStray known name q) : FirstStray known name (.tuple (before ++ q :: after))

mutual

/-- The list of agents holds those that a query names. -/
theorem mem_agents_iff (name : String) : ∀ q : Query, name ∈ q.agents ↔ q.Mentions name
  | .agent other => by
    rw [agents, List.mem_singleton]
    constructor
    · rintro rfl
      exact .agent
    · rintro ⟨⟩
      rfl
  | .prev inner => by
    rw [agents, mem_agents_iff name inner]
    exact ⟨.prev, fun h => by cases h; assumption⟩
  | .access container _ => by
    rw [agents, mem_agents_iff name container]
    exact ⟨.access, fun h => by cases h; assumption⟩
  | .tuple items => by
    rw [agents, mem_itemAgents_iff name items]
    constructor
    · rintro ⟨q, hq, h⟩
      exact .tuple hq h
    · rintro ⟨⟩
      exact ⟨_, ‹_›, ‹_›⟩
  | .root => by
    rw [agents]
    exact ⟨nofun, nofun⟩
  | .base _ => by
    rw [agents]
    exact ⟨nofun, nofun⟩

theorem mem_itemAgents_iff (name : String) :
    ∀ items : List Query, name ∈ itemAgents items ↔ ∃ q ∈ items, q.Mentions name
  | [] => by simp [itemAgents]
  | q :: rest => by
    rw [itemAgents, List.mem_append, mem_agents_iff name q, mem_itemAgents_iff name rest,
      List.exists_mem_cons_iff]

end

variable (known : String → Bool)

/-- All agents that a query names are known exactly when no other is found in the list. -/
theorem find?_agents_eq_none_iff (q : Query) :
    q.agents.find? (fun name => !known name) = none ↔ ∀ other, q.Mentions other → known other = true := by
  simp only [List.find?_eq_none, mem_agents_iff, Bool.not_eq_true', Bool.not_eq_false]

mutual

/-- **The first name in the list that is not known is the first one from left to right.** -/
theorem find?_agents_eq_some_iff (name : String) : ∀ q : Query,
    q.agents.find? (fun name => !known name) = some name ↔ q.FirstStray (known · = true) name
  | .agent other => by
    rw [agents, List.find?_singleton]
    constructor
    · intro h
      split at h
      · next hstray =>
        obtain rfl := Option.some.inj h
        exact .agent (by simpa using hstray)
      · cases h
    · rintro ⟨hstray⟩
      simp [hstray]
  | .prev inner => by
    rw [agents, find?_agents_eq_some_iff name inner]
    exact ⟨.prev, fun h => by cases h; assumption⟩
  | .access container _ => by
    rw [agents, find?_agents_eq_some_iff name container]
    exact ⟨.access, fun h => by cases h; assumption⟩
  | .tuple items => by
    rw [agents, find?_itemAgents_eq_some_iff name items]
    constructor
    · rintro ⟨before, q, after, rfl, hclear, hq⟩
      exact .tuple hclear hq
    · intro h
      cases h with
      | tuple hclear hq => exact ⟨_, _, _, rfl, hclear, hq⟩
  | .root => by
    rw [agents]
    exact ⟨nofun, nofun⟩
  | .base _ => by
    rw [agents]
    exact ⟨nofun, nofun⟩

theorem find?_itemAgents_eq_some_iff (name : String) : ∀ items : List Query,
    (itemAgents items).find? (fun name => !known name) = some name ↔
      ∃ before q after, items = before ++ q :: after ∧
        (∀ p ∈ before, ∀ other, p.Mentions other → known other = true) ∧
        q.FirstStray (known · = true) name
  | [] => by simp [itemAgents]
  | q :: rest => by
    rw [itemAgents, List.find?_append, Option.or_eq_some_iff, find?_agents_eq_some_iff name q,
      find?_itemAgents_eq_some_iff name rest, find?_agents_eq_none_iff]
    constructor
    · rintro (hq | ⟨hclear, before, p, after, rfl, hbefore, hp⟩)
      · exact ⟨[], q, rest, rfl, by simp, hq⟩
      · exact ⟨q :: before, p, after, rfl, List.forall_mem_cons.2 ⟨hclear, hbefore⟩, hp⟩
    · rintro ⟨before, p, after, heq, hbefore, hp⟩
      cases before with
      | nil =>
        obtain ⟨rfl, rfl⟩ := List.cons.inj heq
        exact .inl hp
      | cons first before =>
        obtain ⟨rfl, rfl⟩ := List.cons.inj heq
        obtain ⟨hclear, hbefore⟩ := List.forall_mem_cons.1 hbefore
        exact .inr ⟨hclear, before, p, after, rfl, hbefore, hp⟩

end

end Query

/-! ## Overlapping targets -/

/-- The path that the rule at a position writes. -/
def pathAt? (own : List Rule) (index : Nat) : Option (List String) := own[index]?.bind (·.path?)

/-- Of two rules, the later writes a place that leads to that of the earlier, or lies in it. -/
def Overlap (own : List Rule) (i j : Nat) : Prop :=
  i < j ∧ ∃ p q, pathAt? own i = some p ∧ pathAt? own j = some q ∧ (p <+: q ∨ q <+: p)

theorem Overlap.ne_nil {own : List Rule} {i j : Nat} (h : Overlap own i j) : own ≠ [] := by
  rintro rfl
  obtain ⟨-, p, q, hp, -, -⟩ := h
  cases hp

/-- The overlap that is reported: its later position is the least of all, and its earlier position the
least for that one. -/
structure LeastOverlap (own : List Rule) (target : Query) (first second : Nat) : Prop where
  /-- The two overlap. -/
  overlap : Overlap own first second
  /-- No position before the later one overlaps an earlier one. -/
  second_le : ∀ i j, Overlap own i j → second ≤ j
  /-- Nor does it overlap a position before the earlier one. -/
  first_le : ∀ i, Overlap own i second → first ≤ i
  /-- The target is that of the later rule. -/
  target : own[second]?.map (·.produced) = some target

theorem LeastOverlap.unique {own : List Rule} {target target' : Query} {first first' second second' : Nat}
    (h : LeastOverlap own target first second) (h' : LeastOverlap own target' first' second') :
    (target, first, second) = (target', first', second') := by
  have hsecond : second = second' :=
    Nat.le_antisymm (h.second_le _ _ h'.overlap) (h'.second_le _ _ h.overlap)
  subst hsecond
  have hfirst : first = first' :=
    Nat.le_antisymm (h.first_le _ h'.overlap) (h'.first_le _ h.overlap)
  have htarget : target = target' := Option.some.inj (h.target.symm.trans h'.target)
  rw [hfirst, htarget]

theorem not_apart_iff {p q : List String} : ¬ Apart p q ↔ p <+: q ∨ q <+: p := by
  rw [Apart, not_and_or, not_not, not_not]

theorem overlaps_eq_true_iff {p q : List String} : overlaps p q = true ↔ p <+: q ∨ q <+: p := by
  rw [← Bool.not_eq_false, overlaps_eq_false_iff, not_apart_iff]

/-- The rules of an agent write beside each other exactly when no two positions overlap. -/
theorem pairwise_beside_iff {own : List Rule} :
    own.Pairwise Rule.Beside ↔ ∀ i j, ¬ Overlap own i j := by
  rw [List.pairwise_iff_getElem]
  constructor
  · rintro h i j ⟨hij, p, q, hp, hq, hover⟩
    obtain ⟨r, hr, hp⟩ := Option.bind_eq_some_iff.1 hp
    obtain ⟨r', hr', hq⟩ := Option.bind_eq_some_iff.1 hq
    obtain ⟨hi, rfl⟩ := List.getElem?_eq_some_iff.1 hr
    obtain ⟨hj, rfl⟩ := List.getElem?_eq_some_iff.1 hr'
    exact not_apart_iff.2 hover (h i j hi hj hij p q hp hq)
  · intro h i j hi hj hij p q hp hq
    by_contra hnot
    refine h i j ⟨hij, p, q, ?_, ?_, not_apart_iff.1 hnot⟩
    · rw [pathAt?, List.getElem?_eq_getElem hi]
      exact hp
    · rw [pathAt?, List.getElem?_eq_getElem hj]
      exact hq

/-- The paths of the rules before a position, with their own positions and in their order. -/
structure Seen (own : List Rule) (index : Nat) (seen : List (List String × Nat)) : Prop where
  /-- They are what the rules before the position write. -/
  mem_iff : ∀ path i, (path, i) ∈ seen ↔ i < index ∧ pathAt? own i = some path
  /-- Earlier positions come first. -/
  increasing : seen.Pairwise fun a b => a.2 < b.2

namespace Seen

variable {own : List Rule} {index : Nat} {seen : List (List String × Nat)}

theorem zero (own : List Rule) : Seen own 0 [] := ⟨by simp, .nil⟩

/-- One position on, past a rule that discards its result. -/
theorem skip (h : Seen own index seen) (hnone : pathAt? own index = none) :
    Seen own (index + 1) seen := by
  refine ⟨fun path i => ?_, h.increasing⟩
  rw [h.mem_iff, Nat.lt_succ_iff_lt_or_eq]
  constructor
  · exact fun ⟨hlt, hpath⟩ => ⟨.inl hlt, hpath⟩
  · rintro ⟨hlt | rfl, hpath⟩
    · exact ⟨hlt, hpath⟩
    · rw [hnone] at hpath
      cases hpath

/-- One position on, past a rule that has a target. -/
theorem concat (h : Seen own index seen) {path : List String} (hpath : pathAt? own index = some path) :
    Seen own (index + 1) (seen ++ [(path, index)]) := by
  refine ⟨fun other i => ?_, ?_⟩
  · rw [List.mem_append, h.mem_iff, List.mem_singleton, Prod.mk.injEq, Nat.lt_succ_iff_lt_or_eq]
    constructor
    · rintro (⟨hlt, hother⟩ | ⟨rfl, rfl⟩)
      · exact ⟨.inl hlt, hother⟩
      · exact ⟨.inr rfl, hpath⟩
    · rintro ⟨hlt | rfl, hother⟩
      · exact .inl ⟨hlt, hother⟩
      · rw [hpath, Option.some.injEq] at hother
        exact .inr ⟨hother.symm, rfl⟩
  · refine List.pairwise_append.2 ⟨h.increasing, List.pairwise_singleton .., fun a ha b hb => ?_⟩
    rw [List.mem_singleton.1 hb]
    exact ((h.mem_iff a.1 a.2).1 ha).1

/-- What is found among the paths seen has the least position of all that would do. -/
theorem le_of_find? (h : Seen own index seen) {P : List String × Nat → Bool} {s t : List String × Nat}
    (hs : seen.find? P = some s) (ht : t ∈ seen) (hP : P t = true) : s.2 ≤ t.2 := by
  obtain ⟨-, before, after, rfl, hbefore⟩ := List.find?_eq_some_iff_append.1 hs
  rcases List.mem_append.1 ht with ht | ht
  · have hnot := hbefore t ht
    rw [hP] at hnot
    cases hnot
  · rcases List.mem_cons.1 ht with rfl | ht
    · exact Nat.le_refl _
    · have hafter := (List.pairwise_append.1 h.increasing).2.1
      exact Nat.le_of_lt ((List.pairwise_cons.1 hafter).1 t ht)

end Seen

/-- **The overlap that the loop finds is the least one**, if there is none before where it starts. -/
theorem leastOverlap_of_firstOverlap {own rest : List Rule} {seen : List (List String × Nat)}
    {index first second : Nat} {target : Query} (hrest : own.drop index = rest)
    (hseen : Seen own index seen) (hclear : ∀ i j, Overlap own i j → index ≤ j)
    (h : firstOverlap seen index rest = some (target, first, second)) :
    LeastOverlap own target first second := by
  induction rest generalizing seen index with
  | nil => cases h
  | cons r rest ih =>
    have hr : own[index]? = some r := by
      rw [← Nat.add_zero index, ← List.getElem?_drop, hrest]
      rfl
    have hrest' : own.drop (index + 1) = rest := by
      rw [← List.tail_drop, hrest, List.tail_cons]
    have hpathAt : pathAt? own index = r.path? := by rw [pathAt?, hr, Option.bind_some]
    rw [firstOverlap] at h
    cases hpath : r.path? with
    | none =>
      rw [hpath] at h hpathAt
      refine ih hrest' (hseen.skip hpathAt) (fun i j hover => ?_) h
      refine Nat.lt_of_le_of_ne (hclear i j hover) ?_
      rintro rfl
      obtain ⟨-, -, q, -, hq, -⟩ := hover
      rw [hpathAt] at hq
      cases hq
    | some path =>
      rw [hpath] at h hpathAt
      dsimp only at h
      cases hfind : seen.find? fun s => overlaps path s.1 with
      | some s =>
        rw [hfind] at h
        obtain ⟨rfl, rfl, rfl⟩ : r.produced = target ∧ s.2 = first ∧ index = second := by
          simpa using h
        obtain ⟨hlt, hs⟩ := (hseen.mem_iff s.1 s.2).1 (List.mem_of_find?_eq_some hfind)
        have hover : overlaps path s.1 = true := by simpa using List.find?_some hfind
        refine ⟨⟨hlt, s.1, path, hs, hpathAt, (overlaps_eq_true_iff.1 hover).symm⟩, hclear, ?_, ?_⟩
        · rintro i ⟨hi, p, q, hp, hq, hpq⟩
          obtain rfl : path = q := Option.some.inj (hpathAt.symm.trans hq)
          exact hseen.le_of_find? hfind ((hseen.mem_iff p i).2 ⟨hi, hp⟩)
            (overlaps_eq_true_iff.2 hpq.symm)
        · rw [hr, Option.map_some]
      | none =>
        rw [hfind] at h
        refine ih hrest' (hseen.concat hpathAt) (fun i j hover => ?_) h
        refine Nat.lt_of_le_of_ne (hclear i j hover) ?_
        rintro rfl
        obtain ⟨hi, p, q, hp, hq, hpq⟩ := hover
        obtain rfl : path = q := Option.some.inj (hpathAt.symm.trans hq)
        have hnot := List.find?_eq_none.1 hfind (p, i) ((hseen.mem_iff p i).2 ⟨hi, hp⟩)
        exact hnot (overlaps_eq_true_iff.2 hpq.symm)

/-- **The loop over the targets reports the least overlap.** -/
theorem firstOverlap_eq_some_iff {own : List Rule} {target : Query} {first second : Nat} :
    firstOverlap [] 0 own = some (target, first, second) ↔ LeastOverlap own target first second := by
  have hspec : ∀ {t f s}, firstOverlap [] 0 own = some (t, f, s) → LeastOverlap own t f s := fun h =>
    leastOverlap_of_firstOverlap rfl (Seen.zero own) (fun _ j _ => Nat.zero_le j) h
  refine ⟨hspec, fun h => ?_⟩
  cases hfirst : firstOverlap [] 0 own with
  | none =>
    have hbeside := ((firstOverlap_eq_none_iff [] 0 own).1 hfirst).2
    exact absurd h.overlap (pairwise_beside_iff.1 hbeside first second)
  | some found =>
    obtain ⟨t, f, s⟩ := found
    rw [(hspec hfirst).unique h]

/-! ## The first failure -/

/-- Going through a list in order fails with the failure of the first member that has one. -/
theorem forM_eq_error_iff {α ε : Type} {f : α → Except ε PUnit} {l : List α} {e : ε} :
    l.forM f = .error e ↔
      ∃ before a after, l = before ++ a :: after ∧ (∀ b ∈ before, f b = .ok ⟨⟩) ∧ f a = .error e := by
  induction l with
  | nil => simp [List.forM, pure, Except.pure]
  | cons x l ih =>
    rw [List.forM]
    cases hx : f x with
    | error cause =>
      simp only [bind, Except.bind, Except.error.injEq]
      constructor
      · rintro rfl
        exact ⟨[], x, l, rfl, by simp, hx⟩
      · rintro ⟨before, a, after, heq, hbefore, ha⟩
        cases before with
        | nil =>
          obtain ⟨rfl, -⟩ := List.cons.inj heq
          exact Except.error.inj (hx.symm.trans ha)
        | cons b before =>
          obtain ⟨rfl, -⟩ := List.cons.inj heq
          rw [(List.forall_mem_cons.1 hbefore).1] at hx
          cases hx
    | ok u =>
      simp only [bind, Except.bind, ih]
      constructor
      · rintro ⟨before, a, after, rfl, hbefore, ha⟩
        exact ⟨x :: before, a, after, rfl, List.forall_mem_cons.2 ⟨hx, hbefore⟩, ha⟩
      · rintro ⟨before, a, after, heq, hbefore, ha⟩
        cases before with
        | nil =>
          obtain ⟨rfl, -⟩ := List.cons.inj heq
          rw [hx] at ha
          cases ha
        | cons b before =>
          obtain ⟨rfl, rfl⟩ := List.cons.inj heq
          exact ⟨before, a, after, rfl, (List.forall_mem_cons.1 hbefore).2, ha⟩

namespace Table

variable {α ε : Type} {t : Table α}

/-- What is listed before an entry of a table is what has a smaller name. -/
theorem mem_before_iff {before after : Entries α} {x y : String × α}
    (h : t.entries = before ++ x :: after) : y ∈ before ↔ y ∈ t.entries ∧ y.1 < x.1 := by
  have hsorted := t.sorted
  rw [Entries.Sorted, h, List.pairwise_append] at hsorted
  obtain ⟨-, htail, hcross⟩ := hsorted
  rw [h]
  constructor
  · exact fun hy => ⟨List.mem_append_left _ hy, hcross y hy x (List.mem_cons_self ..)⟩
  · rintro ⟨hy, hlt⟩
    rcases List.mem_append.1 hy with hy | hy
    · exact hy
    · rcases List.mem_cons.1 hy with rfl | hy
      · exact absurd hlt (String.lt_irrefl _)
      · exact absurd ((List.pairwise_cons.1 htail).1 y hy) (String.lt_asymm hlt)

/-- Going through a table fails with the failure of the least name that has one. -/
theorem forM_entries_eq_error_iff {f : String × α → Except ε PUnit} {e : ε} :
    t.entries.forM f = .error e ↔
      ∃ name value, t.get? name = some value ∧ f (name, value) = .error e ∧
        ∀ other value', t.get? other = some value' → other < name → f (other, value') = .ok ⟨⟩ := by
  rw [forM_eq_error_iff]
  constructor
  · rintro ⟨before, ⟨name, value⟩, after, heq, hbefore, he⟩
    refine ⟨name, value, mem_entries_iff.1 (by simp [heq]), he, fun other value' hother hlt => ?_⟩
    exact hbefore _ ((mem_before_iff heq).2 ⟨mem_entries_iff.2 hother, hlt⟩)
  · rintro ⟨name, value, hget, he, hless⟩
    obtain ⟨before, after, heq⟩ := List.append_of_mem (mem_entries_iff.2 hget)
    refine ⟨before, (name, value), after, heq, fun b hb => ?_, he⟩
    obtain ⟨hmem, hlt⟩ := (mem_before_iff heq).1 hb
    exact hless b.1 b.2 (mem_entries_iff.1 hmem) hlt

end Table

namespace RuleGraph

variable {engines : Table AgentRules} {engine agent name : String} {rules : AgentRules}
variable {own : List Rule} {e : GraphError}

/-! ## References -/

/-- The engine that a name is blamed on: of those that have it, the least. -/
structure LeastOwner (engines : Table AgentRules) (name owner : String) : Prop where
  /-- The engine has the name. -/
  has : ∃ rules, engines.get? owner = some rules ∧ rules.contains name = true
  /-- No smaller one does. -/
  le : ∀ other rules, engines.get? other = some rules → rules.contains name = true → owner ≤ other

/-- No engine has a name. -/
def Unowned (engines : Table AgentRules) (name : String) : Prop :=
  ∀ engine rules, engines.get? engine = some rules → rules.contains name = false

theorem LeastOwner.unique {owner owner' : String} (h : LeastOwner engines name owner)
    (h' : LeastOwner engines name owner') : owner = owner' := by
  obtain ⟨rules, hget, hhas⟩ := h.has
  obtain ⟨rules', hget', hhas'⟩ := h'.has
  exact String.le_antisymm (h.le _ _ hget' hhas') (h'.le _ _ hget hhas)

theorem leastOwner_of_owner? {owner : String} (h : owner? engines name = some owner) :
    LeastOwner engines name owner := by
  obtain ⟨⟨k, rules⟩, hfind, rfl⟩ := Option.map_eq_some_iff.1 h
  obtain ⟨hhas, before, after, heq, hbefore⟩ := List.find?_eq_some_iff_append.1 hfind
  refine ⟨⟨rules, Table.mem_entries_iff.1 (by simp [heq]), hhas⟩, fun other rules' hother hhas' => ?_⟩
  refine String.not_lt.1 fun hlt => ?_
  have hnot := hbefore _ ((Table.mem_before_iff heq).2 ⟨Table.mem_entries_iff.2 hother, hlt⟩)
  rw [hhas'] at hnot
  cases hnot

theorem owner?_eq_none_iff : owner? engines name = none ↔ Unowned engines name := by
  rw [owner?, Option.map_eq_none_iff, List.find?_eq_none]
  constructor
  · intro h engine rules hget
    simpa using h _ (Table.mem_entries_iff.2 hget)
  · rintro h ⟨engine, rules⟩ hmem
    simpa using h engine rules (Table.mem_entries_iff.1 hmem)

/-- **A name is blamed on the least engine that has it.** -/
theorem owner?_eq_some_iff {owner : String} :
    owner? engines name = some owner ↔ LeastOwner engines name owner := by
  refine ⟨leastOwner_of_owner?, fun h => ?_⟩
  cases howner : owner? engines name with
  | none =>
    obtain ⟨rules, hget, hhas⟩ := h.has
    rw [owner?_eq_none_iff.1 howner owner rules hget] at hhas
    cases hhas
  | some other => rw [(leastOwner_of_owner? howner).unique h]

/-- What is wrong with a reference to an agent that the engine does not have. -/
inductive Blame (engines : Table AgentRules) (engine agent name : String) : GraphError → Prop
  /-- Another engine has the agent. -/
  | foreign {owner : String} (h : LeastOwner engines name owner) :
      Blame engines engine agent name (.crossEngineReference engine agent name owner)
  /-- No engine has it. -/
  | unknown (h : Unowned engines name) :
      Blame engines engine agent name (.unknownAgent engine agent name)

theorem checkReference_eq_error_iff :
    checkReference engines engine agent rules name = .error e ↔
      rules.contains name = false ∧ Blame engines engine agent name e := by
  unfold checkReference
  cases hknown : rules.contains name with
  | true => simp
  | false =>
    simp only [Bool.false_eq_true, if_false, true_and]
    cases howner : owner? engines name with
    | some owner =>
      simp only [Except.error.injEq]
      constructor
      · rintro rfl
        exact .foreign (owner?_eq_some_iff.1 howner)
      · rintro (h | h)
        · rw [(owner?_eq_some_iff.1 howner).unique h]
        · rw [owner?_eq_none_iff.2 h] at howner
          cases howner
    | none =>
      simp only [Except.error.injEq]
      constructor
      · rintro rfl
        exact .unknown (owner?_eq_none_iff.1 howner)
      · rintro (h | h)
        · rw [owner?_eq_some_iff.2 h] at howner
          cases howner
        · rfl

/-- Of the agents that rules read, the first that is not known: in the order of the rules, and inside a
rule from left to right. -/
def FirstReference (known : String → Prop) (own : List Rule) (name : String) : Prop :=
  ∃ before r after, own = before ++ r :: after ∧
    (∀ r' ∈ before, ∀ other, r'.consumed.Mentions other → known other) ∧
    r.consumed.FirstStray known name

theorem FirstReference.ne_nil {known : String → Prop} (h : FirstReference known own name) : own ≠ [] := by
  obtain ⟨before, r, after, rfl, -, -⟩ := h
  simp

/-- Going through the references of one query fails at the first that is not known. -/
theorem forM_agents_eq_error_iff {q : Query} :
    q.agents.forM (checkReference engines engine agent rules) = .error e ↔
      ∃ name, q.FirstStray (rules.contains · = true) name ∧ Blame engines engine agent name e := by
  simp only [← Query.find?_agents_eq_some_iff, List.find?_eq_some_iff_append, forM_eq_error_iff,
    checkReference_eq_ok_iff, checkReference_eq_error_iff, Bool.not_not, Bool.not_eq_true']
  constructor
  · rintro ⟨before, name, after, heq, hbefore, hstray, hblame⟩
    exact ⟨name, ⟨hstray, before, after, heq, hbefore⟩, hblame⟩
  · rintro ⟨name, ⟨hstray, before, after, heq, hbefore⟩, hblame⟩
    exact ⟨before, name, after, heq, hbefore, hstray, hblame⟩

theorem forM_agents_eq_ok_iff {q : Query} :
    q.agents.forM (checkReference engines engine agent rules) = .ok ⟨⟩ ↔
      ∀ other, q.Mentions other → rules.contains other = true := by
  simp only [forM_eq_ok_iff, checkReference_eq_ok_iff, Query.mem_agents_iff]

/-- **Going through the references of all rules fails at the first that is not known.** -/
theorem forM_references_eq_error_iff :
    (own.forM fun r => r.consumed.agents.forM (checkReference engines engine agent rules)) = .error e ↔
      ∃ name, FirstReference (rules.contains · = true) own name ∧ Blame engines engine agent name e := by
  rw [forM_eq_error_iff]
  simp only [forM_agents_eq_ok_iff, forM_agents_eq_error_iff]
  constructor
  · rintro ⟨before, r, after, heq, hbefore, name, hstray, hblame⟩
    exact ⟨name, ⟨before, r, after, heq, hbefore, hstray⟩, hblame⟩
  · rintro ⟨name, ⟨before, r, after, heq, hbefore, hstray⟩, hblame⟩
    exact ⟨before, r, after, heq, hbefore, name, hstray, hblame⟩

/-! ## Agents and tables -/

/-- An agent has rules, no two of its targets overlap, and its rules read agents of their engine only. -/
structure WellFormedAgent (rules : AgentRules) (own : List Rule) : Prop where
  /-- There is a rule. -/
  nonempty : own ≠ []
  /-- Of two targets neither leads to the other. -/
  apart : ∀ i j, ¬ Overlap own i j
  /-- Every agent that is read belongs to the engine. -/
  known : ∀ r ∈ own, ∀ name, r.consumed.Mentions name → rules.contains name = true

/-- Every agent of every engine is well-formed. -/
def WellFormed (engines : Table AgentRules) : Prop :=
  ∀ engine rules agent own, engines.get? engine = some rules → rules.get? agent = some own →
    WellFormedAgent rules own

/-- What the rules of an agent are refused for. -/
inductive Fault (engines : Table AgentRules) (engine : String) (rules : AgentRules) (agent : String)
    (own : List Rule) : GraphError → Prop
  /-- There are none. -/
  | empty (h : own = []) : Fault engines engine rules agent own (.emptyAgent engine agent)
  /-- Two targets overlap. -/
  | duplicate {target : Query} {first second : Nat} (h : LeastOverlap own target first second) :
      Fault engines engine rules agent own (.duplicateProducer engine agent target first second)
  /-- No targets overlap, but an agent is read that the engine does not have. -/
  | reference {name : String} {e : GraphError} (apart : ∀ i j, ¬ Overlap own i j)
      (first : FirstReference (rules.contains · = true) own name)
      (blame : Blame engines engine agent name e) : Fault engines engine rules agent own e

/-- The fault of the first agent that has one: whatever agent comes before it, by its engine and then by
its own name, is well-formed. -/
def FirstFault (engines : Table AgentRules) (e : GraphError) : Prop :=
  ∃ engine rules agent own, engines.get? engine = some rules ∧ rules.get? agent = some own ∧
    Fault engines engine rules agent own e ∧
    ∀ engine' rules' agent' own', engines.get? engine' = some rules' →
      rules'.get? agent' = some own' → (engine' < engine ∨ engine' = engine ∧ agent' < agent) →
      WellFormedAgent rules' own'

theorem sound_iff_wellFormedAgent : Sound rules own ↔ WellFormedAgent rules own := by
  constructor
  · intro h
    refine ⟨h.nonempty, pairwise_beside_iff.1 h.beside, fun r hr name hname => ?_⟩
    exact h.known r hr name ((Query.mem_agents_iff name r.consumed).2 hname)
  · intro h
    refine ⟨h.nonempty, pairwise_beside_iff.2 h.apart, fun r hr name hname => ?_⟩
    exact h.known r hr name ((Query.mem_agents_iff name r.consumed).1 hname)

/-- **The rules of an agent are refused for what they are at fault with.** -/
theorem checkAgent_eq_error_iff :
    checkAgent engines engine rules agent own = .error e ↔ Fault engines engine rules agent own e := by
  unfold checkAgent
  cases hown : own.isEmpty with
  | true =>
    have hnil : own = [] := List.isEmpty_iff.1 hown
    simp only [throw, throwThe, MonadExceptOf.throw, bind, Except.bind, if_true, Except.error.injEq]
    constructor
    · rintro rfl
      exact .empty hnil
    · rintro (- | h | ⟨-, h, -⟩)
      · rfl
      · exact absurd hnil h.overlap.ne_nil
      · exact absurd hnil h.ne_nil
  | false =>
    have hne : own ≠ [] := List.isEmpty_eq_false_iff.1 hown
    cases hfirst : firstOverlap [] 0 own with
    | some found =>
      have hleast := firstOverlap_eq_some_iff.1 hfirst
      simp only [throw, throwThe, MonadExceptOf.throw, bind, Except.bind, Bool.false_eq_true,
        if_false, Except.error.injEq]
      constructor
      · rintro rfl
        exact .duplicate hleast
      · rintro (h | h | ⟨h, -, -⟩)
        · exact absurd h hne
        · obtain ⟨rfl, rfl, rfl⟩ := Option.some.inj (hfirst.symm.trans (firstOverlap_eq_some_iff.2 h))
          rfl
        · exact absurd hleast.overlap (h _ _)
    | none =>
      have hapart := pairwise_beside_iff.1 ((firstOverlap_eq_none_iff [] 0 own).1 hfirst).2
      simp only [bind, Except.bind, Bool.false_eq_true, if_false]
      rw [forM_references_eq_error_iff]
      constructor
      · rintro ⟨name, hreference, hblame⟩
        exact .reference hapart hreference hblame
      · rintro (h | h | ⟨-, hreference, hblame⟩)
        · exact absurd h hne
        · exact absurd h.overlap (hapart _ _)
        · exact ⟨_, hreference, hblame⟩

theorem forM_checkAgent_eq_ok_iff :
    (rules.entries.forM fun a => checkAgent engines engine rules a.1 a.2) = .ok ⟨⟩ ↔
      ∀ agent own, rules.get? agent = some own → WellFormedAgent rules own := by
  simp only [forM_eq_ok_iff, checkAgent_eq_ok_iff, sound_iff_wellFormedAgent, Prod.forall,
    Table.mem_entries_iff]

theorem ofRules_eq_error_iff :
    ofRules engines = .error e ↔
      (engines.entries.forM fun x => x.2.entries.forM fun a => checkAgent engines x.1 x.2 a.1 a.2) =
        .error e := by
  unfold ofRules
  cases engines.entries.forM fun x => x.2.entries.forM fun a =>
      checkAgent engines x.1 x.2 a.1 a.2 with
  | error cause => simp [bind, Except.bind]
  | ok u => simp [bind, Except.bind, pure, Except.pure]

/-- **Which tables of rules are accepted, and what the others are refused for.** -/
theorem ofRules_verdict (engines : Table AgentRules) :
    (∀ g, ofRules engines = .ok g ↔ g = ⟨engines⟩ ∧ WellFormed engines) ∧
    ∀ e, ofRules engines = .error e ↔ FirstFault engines e := by
  constructor
  · intro g
    rw [ofRules_eq_ok_iff]
    simp only [sound_iff_wellFormedAgent, Prod.forall, Table.mem_entries_iff]
    exact and_congr_right fun _ => ⟨fun h engine rules agent own hr ho => h engine rules hr agent own ho,
      fun h engine rules hr agent own ho => h engine rules agent own hr ho⟩
  · intro e
    rw [ofRules_eq_error_iff, Table.forM_entries_eq_error_iff]
    simp only [Table.forM_entries_eq_error_iff, forM_checkAgent_eq_ok_iff, checkAgent_eq_ok_iff,
      sound_iff_wellFormedAgent, checkAgent_eq_error_iff]
    constructor
    · rintro ⟨engine, rules, hr, ⟨agent, own, ho, hfault, hagents⟩, hengines⟩
      refine ⟨engine, rules, agent, own, hr, ho, hfault, fun engine' rules' agent' own' hr' ho' hlt => ?_⟩
      rcases hlt with hlt | ⟨rfl, hlt⟩
      · exact hengines engine' rules' hr' hlt agent' own' ho'
      · obtain rfl : rules = rules' := Option.some.inj (hr.symm.trans hr')
        exact hagents agent' own' ho' hlt
    · rintro ⟨engine, rules, agent, own, hr, ho, hfault, hbefore⟩
      exact ⟨engine, rules, hr,
        ⟨agent, own, ho, hfault, fun agent' own' ho' hlt =>
          hbefore engine rules agent' own' hr ho' (.inr ⟨rfl, hlt⟩)⟩,
        fun engine' rules' hr' hlt agent' own' ho' =>
          hbefore engine' rules' agent' own' hr' ho' (.inl hlt)⟩

-- The sun of the zenith has no rules, the moon reads it across engines, and the moon writes one field
-- in two spellings.  The sky comes first, and so do the targets; the root between them overlaps nothing.
example : ofRules ⟨[("sky", Table.single "moon"
      [⟨.agent "sun", .base "x", "identity", Producer.identity, rfl⟩,
       ⟨.prev .root, .root, "identity", Producer.identity, rfl⟩,
       ⟨.prev .root, .access .root "x", "identity", Producer.identity, rfl⟩]),
      ("zenith", Table.single "sun" [])], List.pairwise_pair.2 (by decide)⟩ =
    .error (.duplicateProducer "sky" "moon" (.access .root "x") 0 2) := rfl

end RuleGraph

end Orrery
