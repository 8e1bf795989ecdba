import Orrery.Proofs.Footprint

/-!
# When a rule has read what is there in the end

A rule is fired as soon as its inputs are found.  Found is not finished: a place that is a mapping is
found when the first of its fields has been written, and changes with every field that comes after.  So
the question is which rules have read what a look at the finished states would show them.

The answer is exact.  What a call has read is always found again (`Execution.under?_later`), and it is
what the call has read unless this call or a later one writes *inside* a place that was read
(`RuleGraph.step_inputs_final`).  Writes that have nothing to do with the place leave it alone, and a
place that was found is no target of a rule still to come.

An accepted graph may have such rules, since acceptance compares targets with targets and never with
what is read.  `RuleGraph.glimpse_not_final` is one of them: a rule copies a place of which one half is
there, and the other half comes later.
-/

namespace Orrery

namespace Value

variable {writes more : List (List String × Value)} {v w u : Value} {path : List String}

/-! ## What later writes do to a place -/

/-- Nothing is found where no write has come near. -/
theorem at?_assemble_eq_none (h : assemble writes = some v) (hne : path ≠ [])
    (hap : ∀ a ∈ writes, Apart a.1 path) : v.at? path = none := by
  cases hu : v.at? path with
  | none => rfl
  | some u =>
    rcases at?_assemble_cases h hu with hnil | ⟨a, ha, hpre⟩ | ⟨a, ha, rest, rfl, -⟩
    · exact absurd hnil hne
    · exact absurd hpre (hap a ha).2
    · exact absurd (List.prefix_append a.1 rest) (hap a ha).1

/-- **A place that was found stays as it is until something is written inside it.** -/
theorem at?_assemble_of_not_inside (h : assemble writes = some v)
    (h' : assemble (writes ++ more) = some w) (hs : Scattered (writes ++ more))
    (hmore : ∀ a ∈ more, a.1 ≠ []) (hu : v.at? path = some u)
    (hnot : ∀ a ∈ more, ¬ (path <+: a.1 ∧ path ≠ a.1)) : w.at? path = some u := by
  induction more using List.reverseRecOn generalizing w with
  | nil =>
    rw [List.append_nil, h, Option.some.injEq] at h'
    rw [← h']
    exact hu
  | append_singleton more last ih =>
    rw [← List.append_assoc] at h' hs
    rw [assemble_concat, Option.bind_eq_some_iff] at h'
    obtain ⟨before, hbefore, hput⟩ := h'
    obtain ⟨hs', hap⟩ := scattered_concat.1 hs
    have hold := ih hbefore hs' (fun a ha => hmore a (List.mem_append_left _ ha))
      fun a ha => hnot a (List.mem_append_left _ ha)
    have hlast : last ∈ more ++ [last] := by simp
    -- there was nothing at the target of the last write, so the place is not there and not below it
    have hnone := at?_assemble_eq_none hbefore (hmore last hlast) hap
    have hbelow : ¬ last.1 <+: path := by
      rintro ⟨rest, rfl⟩
      rw [at?_append, hnone, Option.bind_none] at hold
      exact absurd hold (by simp)
    have habove : ¬ path <+: last.1 := fun hpre =>
      hnot last hlast ⟨hpre, fun heq => hbelow (heq ▸ List.prefix_rfl)⟩
    rw [at?_put_of_apart hput ⟨hbelow, habove⟩]
    exact hold

/-- **A write inside a place changes what is found there.** -/
theorem at?_assemble_of_inside (h : assemble writes = some v)
    (h' : assemble (writes ++ more) = some w) (hs : Scattered (writes ++ more))
    {a : List String × Value} (ha : a ∈ more) (hne : a.1 ≠ []) (hpre : path <+: a.1) :
    ∃ x, w.at? path = some x ∧ v.at? path ≠ some x := by
  obtain ⟨rest, hrest⟩ := hpre
  have hap : ∀ b ∈ writes, Apart b.1 a.1 := fun b hb => (List.pairwise_append.1 hs).2.2 b hb a ha
  have hnone := at?_assemble_eq_none h hne hap
  have hsome := at?_assemble_append h' hs (List.mem_append_right _ ha) []
  rw [List.append_nil, at?_nil, ← hrest, at?_append] at hsome
  obtain ⟨x, hx, hinside⟩ := Option.bind_eq_some_iff.1 hsome
  refine ⟨x, hx, fun hsame => ?_⟩
  rw [← hrest, at?_append, hsame, Option.bind_some, hinside] at hnone
  exact absurd hnone (by simp)

end Value

namespace Scope

variable (s : Scope) {states after : States}

/-! ## Queries against two states -/

/-- A field is found in the value of a query that has no path only if the query reads nothing under
construction: a tuple is a list, and lists have no fields. -/
theorem readPaths_eq_nil_of_field? : ∀ {q : Query} {v w : Value} {field : String},
    q.targetPath? = none → s.lookup? states false q = some v → v.field? field = some w →
      q.readPaths = []
  | .base _, _, _, _, h, _, _ => absurd h (by simp [Query.targetPath?])
  | .prev _, _, _, _, _, _, _ => by rw [Query.readPaths]
  | .root, _, _, _, h, _, _ => absurd h (by simp [Query.targetPath?])
  | .agent _, _, _, _, _, _, _ => by rw [Query.readPaths]
  | .access container _, _, _, _, h, hv, _ => by
    have hc : container.targetPath? = none := by simpa [Query.targetPath?] using h
    obtain ⟨inner, hinner, hfield⟩ := Option.bind_eq_some_iff.1 (by rwa [lookup?] at hv)
    rw [Query.readPaths, hc]
    exact readPaths_eq_nil_of_field? hc hinner hfield
  | .tuple items, _, _, _, _, hv, hw => by
    rw [lookup?, Option.map_eq_some_iff] at hv
    obtain ⟨values, -, rfl⟩ := hv
    exact absurd hw (by simp [Value.field?])

mutual

/-- A query is found only if every place it looks at is. -/
theorem exists_under?_of_lookup? : ∀ {q : Query} {v : Value}, s.lookup? states false q = some v →
    ∀ path ∈ q.readPaths, ∃ u, s.under? states path = some u
  | .base field, v, hv, path, hpath => by
    obtain rfl : path = [field] := by simpa [Query.readPaths] using hpath
    exact ⟨v, by rwa [s.lookup?_false_of_path rfl] at hv⟩
  | .prev _, _, _, path, hpath => absurd hpath (by simp [Query.readPaths])
  | .root, v, hv, path, hpath => by
    obtain rfl : path = [] := by simpa [Query.readPaths] using hpath
    exact ⟨v, by rwa [s.lookup?_false_of_path rfl] at hv⟩
  | .agent _, _, _, path, hpath => absurd hpath (by simp [Query.readPaths])
  | .access container field, v, hv, path, hpath => by
    cases hc : container.targetPath? with
    | some above =>
      have htarget : (Query.access container field).targetPath? = some (above ++ [field]) := by
        rw [Query.targetPath?, hc, Option.map_some]
      obtain rfl : path = above ++ [field] := by simpa [Query.readPaths, hc] using hpath
      exact ⟨v, by rwa [s.lookup?_false_of_path htarget] at hv⟩
    | none =>
      obtain ⟨inner, hinner, -⟩ := Option.bind_eq_some_iff.1 (by rwa [lookup?] at hv)
      exact exists_under?_of_lookup? hinner path (by simpa [Query.readPaths, hc] using hpath)
  | .tuple items, v, hv, path, hpath => by
    rw [lookup?, Option.map_eq_some_iff] at hv
    obtain ⟨values, hvalues, -⟩ := hv
    exact exists_under?_of_lookupItems? hvalues path (by simpa [Query.readPaths] using hpath)

theorem exists_under?_of_lookupItems? : ∀ {items : List Query} {values : List Value},
    s.lookupItems? states false items = some values →
      ∀ path ∈ Query.itemReadPaths items, ∃ u, s.under? states path = some u
  | [], _, _, path, hpath => absurd hpath (by simp [Query.itemReadPaths])
  | q :: rest, values, hv, path, hpath => by
    rw [lookupItems?] at hv
    cases hq : s.lookup? states false q with
    | none =>
      rw [hq] at hv
      exact absurd hv (by simp)
    | some v =>
      rw [hq] at hv
      obtain ⟨others, hothers, -⟩ := Option.map_eq_some_iff.1 hv
      rw [Query.itemReadPaths] at hpath
      rcases List.mem_append.1 hpath with hfirst | hrest
      · exact exists_under?_of_lookup? hq path hfirst
      · exact exists_under?_of_lookupItems? hothers path hrest

end

mutual

/-- **A query that was found is found again if every place it looks at is**, and its value is the old
one exactly when all these places hold what they held. -/
theorem lookup?_again : ∀ {q : Query} {v : Value}, s.lookup? states false q = some v →
    (∀ path ∈ q.readPaths, ∃ u, s.under? after path = some u) →
      ∃ v', s.lookup? after false q = some v' ∧
        (v' = v ↔ ∀ path ∈ q.readPaths, s.under? after path = s.under? states path)
  | .base field, v, hv, hfound => by
    have htarget : (Query.base field).targetPath? = some [field] := rfl
    rw [s.lookup?_false_of_path htarget] at hv ⊢
    obtain ⟨v', hv'⟩ := hfound [field] (by simp [Query.readPaths])
    exact ⟨v', hv', by simp [Query.readPaths, hv, hv']⟩
  | .prev inner, v, hv, _ => by
    have hnil : (Query.prev inner).readPaths = [] := by rw [Query.readPaths]
    exact ⟨v, by rwa [s.lookup?_of_readPaths_eq_nil hnil after states], by simp [hnil]⟩
  | .root, v, hv, hfound => by
    have htarget : Query.root.targetPath? = some [] := rfl
    rw [s.lookup?_false_of_path htarget] at hv ⊢
    obtain ⟨v', hv'⟩ := hfound [] (by simp [Query.readPaths])
    exact ⟨v', hv', by simp [Query.readPaths, hv, hv']⟩
  | .agent name, v, hv, _ => by
    have hnil : (Query.agent name).readPaths = [] := by rw [Query.readPaths]
    exact ⟨v, by rwa [s.lookup?_of_readPaths_eq_nil hnil after states], by simp [hnil]⟩
  | .access container field, v, hv, hfound => by
    cases hc : container.targetPath? with
    | some above =>
      have htarget : (Query.access container field).targetPath? = some (above ++ [field]) := by
        rw [Query.targetPath?, hc, Option.map_some]
      have hpaths : (Query.access container field).readPaths = [above ++ [field]] := by
        rw [Query.readPaths, hc]
      rw [s.lookup?_false_of_path htarget] at hv ⊢
      obtain ⟨v', hv'⟩ := hfound (above ++ [field]) (by simp [hpaths])
      exact ⟨v', hv', by simp [hpaths, hv, hv']⟩
    | none =>
      obtain ⟨inner, hinner, hfield⟩ := Option.bind_eq_some_iff.1 (by rwa [lookup?] at hv)
      have hnil : (Query.access container field).readPaths = [] := by
        rw [Query.readPaths, hc]
        exact s.readPaths_eq_nil_of_field? hc hinner hfield
      exact ⟨v, by rwa [s.lookup?_of_readPaths_eq_nil hnil after states], by simp [hnil]⟩
  | .tuple items, v, hv, hfound => by
    have hpaths : (Query.tuple items).readPaths = Query.itemReadPaths items := by
      rw [Query.readPaths]
    rw [hpaths] at hfound ⊢
    rw [lookup?, Option.map_eq_some_iff] at hv
    obtain ⟨values, hvalues, rfl⟩ := hv
    obtain ⟨values', hvalues', hsame⟩ := lookupItems?_again hvalues hfound
    refine ⟨.list values', ?_, by rw [← hsame, Value.list.injEq]⟩
    rw [lookup?, hvalues', Option.map_some]

theorem lookupItems?_again : ∀ {items : List Query} {values : List Value},
    s.lookupItems? states false items = some values →
    (∀ path ∈ Query.itemReadPaths items, ∃ u, s.under? after path = some u) →
      ∃ values', s.lookupItems? after false items = some values' ∧
        (values' = values ↔
          ∀ path ∈ Query.itemReadPaths items, s.under? after path = s.under? states path)
  | [], values, hv, _ => by
    rw [lookupItems?] at hv ⊢
    exact ⟨values, hv, by simp [Query.itemReadPaths]⟩
  | q :: rest, values, hv, hfound => by
    rw [Query.itemReadPaths, List.forall_mem_append] at hfound ⊢
    rw [lookupItems?] at hv ⊢
    cases hq : s.lookup? states false q with
    | none =>
      rw [hq] at hv
      exact absurd hv (by simp)
    | some v =>
      rw [hq] at hv
      obtain ⟨others, hothers, rfl⟩ := Option.map_eq_some_iff.1 hv
      obtain ⟨v', hv', hfirst⟩ := lookup?_again hq hfound.1
      obtain ⟨others', hothers', hrest⟩ := lookupItems?_again hothers hfound.2
      refine ⟨v' :: others', by rw [hv', hothers']; rfl, ?_⟩
      rw [List.cons.injEq, hfirst, hrest]

end

end Scope

/-- A rule writes inside a place that a rule of the same agent reads. -/
def Pending.WritesInside (q p : Pending) : Prop :=
  q.agent = p.agent ∧ ∃ target, q.rule.path? = some target ∧
    ∃ path ∈ p.rule.consumed.readPaths, path <+: target ∧ path ≠ target

namespace Step

variable {engine : String} {snapshot : Universe} {start states after mid : States}
variable {front later : List Call} {c : Call}

/-! ## Calls and what comes after them -/

theorem Execution.of_concat (h : Execution engine snapshot start (front ++ [c]) after) :
    ∃ states, Execution engine snapshot start front states ∧
      Fires engine snapshot states c after := by
  generalize hlist : front ++ [c] = list at h
  cases h with
  | nil => exact absurd hlist (by simp)
  | concat before fires =>
    obtain ⟨rfl, hlast⟩ := List.append_inj' hlist rfl
    obtain rfl := List.singleton_inj.1 hlast
    exact ⟨_, before, fires⟩

/-- A call was made against what the calls before it had left. -/
theorem Execution.called_after (h : Execution engine snapshot start (front ++ c :: later) states) :
    ∃ mid, Execution engine snapshot start front mid ∧
      call? engine snapshot mid c.pending = some c := by
  induction later using List.reverseRecOn generalizing states with
  | nil =>
    obtain ⟨mid, hmid, hfires⟩ := h.of_concat
    exact ⟨mid, hmid, hfires.called⟩
  | append_singleton later last ih =>
    rw [← List.cons_append, ← List.append_assoc] at h
    obtain ⟨before, hbefore, -⟩ := h.of_concat
    exact ih hbefore

/-- The paths that answered calls write into the state of an agent are the targets of its rules. -/
theorem forall_mem_writesOf_iff {calls : List Call} {agent : String} {P : List String → Prop}
    (hanswered : ∀ c ∈ calls, ∃ output, c.result = .ok output) :
    (∀ a ∈ writesOf agent calls, P a.1) ↔
      ∀ d ∈ calls, d.agent = agent → ∀ target, d.pending.rule.path? = some target → P target := by
  constructor
  · intro hall d hd hagent target hpath
    obtain ⟨output, hresult⟩ := hanswered d hd
    exact hall (target, output) (mem_writesOf_iff.2 ⟨d, hd, hagent, hpath, hresult⟩)
  · rintro hall ⟨target, output⟩ ha
    obtain ⟨d, hd, hagent, hpath, -⟩ := mem_writesOf_iff.1 ha
    exact hall d hd hagent target hpath

/-- An agent that has a state keeps one. -/
theorem Execution.exists_get?_later (h : Execution engine snapshot Table.empty front mid)
    (h' : Execution engine snapshot Table.empty (front ++ later) states) {agent : String} {v : Value}
    (hv : mid.get? agent = some v) : ∃ w, states.get? agent = some w := by
  refine Option.ne_none_iff_exists'.1 fun hnone => ?_
  have hempty := (h'.get?_eq_none_iff agent).1 hnone
  rw [writesOf, List.filterMap_append, List.append_eq_nil_iff] at hempty
  rw [(h.get?_eq_none_iff agent).2 hempty.1] at hv
  exact absurd hv (by simp)

/-- **A place that was found is found again in the end**, and holds what it held unless something has
been written inside it. -/
theorem Execution.under?_later (h : Execution engine snapshot Table.empty front mid)
    (h' : Execution engine snapshot Table.empty (front ++ later) states)
    (hbeside : ((front ++ later).map (·.pending)).Pairwise Pending.Beside) {p : Pending}
    {path : List String} {u : Value} (hu : (scopeOf engine snapshot p).under? mid path = some u) :
    (∃ x, (scopeOf engine snapshot p).under? states path = some x) ∧
    ((scopeOf engine snapshot p).under? states path = some u ↔
      ∀ d ∈ later, d.agent = p.agent → ∀ target, d.pending.rule.path? = some target →
        ¬ (path <+: target ∧ path ≠ target)) := by
  obtain ⟨v, hv, hat⟩ := Option.bind_eq_some_iff.1 hu
  obtain ⟨w, hw⟩ := h.exists_get?_later h' hv
  have hanswered : ∀ d ∈ later, ∃ output, d.result = .ok output := fun d hd =>
    h'.exists_output d (List.mem_append_right _ hd)
  have happend : writesOf p.agent (front ++ later) =
      writesOf p.agent front ++ writesOf p.agent later := List.filterMap_append ..
  have hbefore := h.assemble_of_get? hv
  have hafter := h'.assemble_of_get? hw
  have hscattered := scattered_writesOf hbeside p.agent
  rw [happend] at hafter hscattered
  have hlater : ∀ a ∈ writesOf p.agent later, a.1 ≠ [] :=
    (forall_mem_writesOf_iff hanswered).2 fun d _ _ target htarget =>
      (Rule.path?_eq_some_iff.1 htarget).2
  rw [Scope.under?, hw, Option.bind_some, ← forall_mem_writesOf_iff hanswered]
  by_cases hnot : ∀ a ∈ writesOf p.agent later, ¬ (path <+: a.1 ∧ path ≠ a.1)
  · have hsame := Value.at?_assemble_of_not_inside hbefore hafter hscattered hlater hat hnot
    exact ⟨⟨u, hsame⟩, fun _ => hnot, fun _ => hsame⟩
  · obtain ⟨a, ha, hpre, -⟩ : ∃ a ∈ writesOf p.agent later, path <+: a.1 ∧ path ≠ a.1 := by
      simpa only [not_forall, not_not, exists_prop] using hnot
    obtain ⟨x, hx, hchanged⟩ :=
      Value.at?_assemble_of_inside hbefore hafter hscattered ha (hlater a ha) hpre
    refine ⟨⟨x, hx⟩, fun hsame => ?_, fun hall => absurd hall hnot⟩
    exact absurd (hat.trans (hsame.symm.trans hx)) hchanged

/-- Every place that a query has looked at and found is found again in the end. -/
theorem Execution.exists_under?_later (h : Execution engine snapshot Table.empty front mid)
    (h' : Execution engine snapshot Table.empty (front ++ later) states)
    (hbeside : ((front ++ later).map (·.pending)).Pairwise Pending.Beside) {p : Pending} {q : Query}
    {v : Value} (hread : (scopeOf engine snapshot p).lookup? mid false q = some v) :
    ∀ path ∈ q.readPaths, ∃ x, (scopeOf engine snapshot p).under? states path = some x := by
  intro path hpath
  obtain ⟨u, hu⟩ := Scope.exists_under?_of_lookup? _ hread path hpath
  exact (h.under?_later h' hbeside hu).1

/-- **What a call has read is found again in the end**, and is the same exactly when neither the call
nor a later one has written inside a place that was read. -/
theorem Execution.resolve?_later
    (h : Execution engine snapshot Table.empty (front ++ c :: later) states)
    (hbeside : ((front ++ c :: later).map (·.pending)).Pairwise Pending.Beside) :
    ∃ input,
      (scopeOf engine snapshot c.pending).resolve? states c.pending.rule.consumed = some input ∧
      (input = c.input ↔ ∀ d ∈ c :: later, ¬ d.pending.WritesInside c.pending) := by
  obtain ⟨mid, hmid, hcalled⟩ := h.called_after
  obtain ⟨read, hread, hc⟩ := Option.map_eq_some_iff.1 hcalled
  have hinput : read = c.input := by rw [← hc]
  rw [Scope.resolve?, hinput] at hread
  have hplace := fun path (hpath : path ∈ c.pending.rule.consumed.readPaths) =>
    (scopeOf engine snapshot c.pending).exists_under?_of_lookup? hread path hpath
  have hfound := hmid.exists_under?_later h hbeside hread
  obtain ⟨input, hresolved, hsame⟩ := Scope.lookup?_again _ hread hfound
  refine ⟨input, hresolved, hsame.trans ⟨fun hall d hd => ?_, fun hnot path hpath => ?_⟩⟩
  · rintro ⟨hagent, target, htarget, path, hpath, hinside⟩
    obtain ⟨u, hu⟩ := hplace path hpath
    have hkept := (hall path hpath).trans hu
    exact (hmid.under?_later h hbeside hu).2.1 hkept d hd hagent target htarget hinside
  · obtain ⟨u, hu⟩ := hplace path hpath
    rw [hu]
    refine (hmid.under?_later h hbeside hu).2.2 fun d hd hagent target htarget hinside => ?_
    exact hnot d hd ⟨hagent, target, htarget, path, hpath, hinside⟩

end Step

namespace RuleGraph

/-- **Which rules of a step have read what is there in the end.**  Every rule is called once, and what
it has read is found in the finished states.  It is what the rule was given exactly when neither the
rule nor one that was called later writes inside a place that the rule reads.  So a rule has read final
inputs for certain if no rule of its agent writes inside a place that it reads. -/
theorem step_inputs_final {engines : Table AgentRules} {g : RuleGraph} {engine : String}
    {rules : AgentRules} (hg : ofRules engines = .ok g) (hr : g.agents engine = .ok rules)
    {snapshot : Universe} {states : States} (h : g.step engine snapshot = .ok states) :
    ∃ calls, Step.WrittenOnce engine snapshot rules calls states ∧
      (∀ front c later, calls = front ++ c :: later →
        ∃ input,
          (Step.scopeOf engine snapshot c.pending).resolve? states c.pending.rule.consumed =
            some input ∧
          (input = c.input ↔ ∀ d ∈ c :: later, ¬ d.pending.WritesInside c.pending)) ∧
      ∀ c ∈ calls, (∀ p ∈ Step.pendingOf rules, ¬ p.WritesInside c.pending) →
        (Step.scopeOf engine snapshot c.pending).resolve? states c.pending.rule.consumed =
          some c.input := by
  have hbeside := Step.pairwise_beside_pendingOf (sound_of_ofRules hg hr)
  obtain ⟨calls, hsettles⟩ := exists_settles hr h
  have honce := hsettles.writtenOnce hbeside
  have hexec := hsettles.execution_nil
  have hcalls := hsettles.beside hbeside
  refine ⟨calls, honce, ?_, fun c hc hnot => ?_⟩
  · rintro front c later rfl
    exact hexec.resolve?_later hcalls
  obtain ⟨front, later, rfl⟩ := List.append_of_mem hc
  obtain ⟨input, hinput, hsame⟩ := hexec.resolve?_later hcalls
  rw [hinput, hsame.2]
  intro d hd
  have hd' : d ∈ front ++ c :: later := List.mem_append_right _ hd
  exact hnot d.pending (honce.once.mem_iff.1 (List.mem_map_of_mem hd'))

end RuleGraph

/-! ## A glimpse of the moon

The moon copies its position while the position has one coordinate; the other one is written after
that. -/

namespace Glimpse

/-- The moon copies its position. -/
def glance : Rule := ⟨.base "position", .base "sight", "identity", Producer.identity, rfl⟩

/-- The rules of the moon. -/
def moon : List Rule :=
  [⟨.prev (.base "x"), .access (.base "position") "x", "identity", Producer.identity, rfl⟩,
   glance,
   ⟨.prev (.base "y"), .access (.base "position") "y", "identity", Producer.identity, rfl⟩]

/-- There are no others. -/
def rules : AgentRules := Table.single "moon" moon

/-- One engine. -/
def engines : Table AgentRules := Table.single "sky" rules

/-- The whole position. -/
def position : Value := .mapping [("x", .ofFloat 1.0), ("y", .ofFloat 2.0)]

/-- The half of it that is there first. -/
def half : Value := .mapping [("x", .ofFloat 1.0)]

/-- What was committed: both coordinates. -/
def snapshot : Universe := Table.single "sky" (Table.single "moon" position)

/-- What a step comes to. -/
def after : States := Table.single "moon" (.mapping [("position", position), ("sight", half)])

theorem step_after : (⟨engines⟩ : RuleGraph).step "sky" snapshot = .ok after := by decide +kernel

end Glimpse

/-- The coordinates are copied from the snapshot, so the rules that do it have read final inputs. -/
theorem RuleGraph.glimpse_inputs_final :
    ofRules Glimpse.engines = .ok ⟨Glimpse.engines⟩ ∧
    (⟨Glimpse.engines⟩ : RuleGraph).agents "sky" = .ok Glimpse.rules ∧
    (⟨Glimpse.engines⟩ : RuleGraph).step "sky" Glimpse.snapshot = .ok Glimpse.after ∧
    ∃ calls, Step.WrittenOnce "sky" Glimpse.snapshot Glimpse.rules calls Glimpse.after ∧
      ∀ c ∈ calls, c.pending.rule.consumed.readPaths = [] →
        (Step.scopeOf "sky" Glimpse.snapshot c.pending).resolve? Glimpse.after
          c.pending.rule.consumed = some c.input := by
  have hg : ofRules Glimpse.engines = .ok ⟨Glimpse.engines⟩ := rfl
  have hr : (⟨Glimpse.engines⟩ : RuleGraph).agents "sky" = .ok Glimpse.rules := rfl
  obtain ⟨calls, honce, -, hfinal⟩ := step_inputs_final hg hr Glimpse.step_after
  refine ⟨hg, hr, Glimpse.step_after, calls, honce, fun c hc hreads => hfinal c hc fun p _ => ?_⟩
  rintro ⟨-, target, -, path, hpath, -⟩
  rw [hreads] at hpath
  exact absurd hpath (by simp)

/-- **An accepted graph need not fire its rules on final inputs**: the moon was given half of its
position, and the whole position is there in the end. -/
theorem RuleGraph.glimpse_not_final :
    ofRules Glimpse.engines = .ok ⟨Glimpse.engines⟩ ∧
    (⟨Glimpse.engines⟩ : RuleGraph).agents "sky" = .ok Glimpse.rules ∧
    (⟨Glimpse.engines⟩ : RuleGraph).step "sky" Glimpse.snapshot = .ok Glimpse.after ∧
    ∃ calls, Step.Settles "sky" Glimpse.snapshot Table.empty (Step.pendingOf Glimpse.rules) calls
        Glimpse.after [] ∧
      ∃ c ∈ calls, c.input = Glimpse.half ∧
        (Step.scopeOf "sky" Glimpse.snapshot c.pending).resolve? Glimpse.after
          c.pending.rule.consumed = some Glimpse.position ∧ Glimpse.position ≠ Glimpse.half := by
  have hg : ofRules Glimpse.engines = .ok ⟨Glimpse.engines⟩ := rfl
  have hr : (⟨Glimpse.engines⟩ : RuleGraph).agents "sky" = .ok Glimpse.rules := rfl
  obtain ⟨calls, hsettles⟩ := exists_settles hr Glimpse.step_after
  have honce := hsettles.writtenOnce (Step.pairwise_beside_pendingOf (sound_of_ofRules hg hr))
  have hglance : (⟨"moon", 1, Glimpse.glance⟩ : Pending) ∈ Step.pendingOf Glimpse.rules :=
    List.mem_cons_of_mem _ (List.mem_cons_self ..)
  obtain ⟨c, hc, hpending⟩ := List.mem_map.1 (honce.once.mem_iff.2 hglance)
  obtain ⟨mid, hcalled⟩ := hsettles.execution_nil.exists_called c hc
  obtain ⟨output, hresult, hholds⟩ := honce.holds c hc
  -- the glance is copied as it was, so it can be read off the finished state
  rw [hpending] at hcalled
  obtain ⟨input, -, rfl⟩ := Option.map_eq_some_iff.1 hcalled
  obtain rfl : input = output := Except.ok.inj hresult
  have hsight : some Glimpse.half = some input := hholds ["sight"] rfl
  exact ⟨hg, hr, Glimpse.step_after, calls, hsettles, _, hc, (Option.some.inj hsight).symm, rfl,
    by decide +kernel⟩

end Orrery
