import Orrery.Proofs.FieldOrder
import Orrery.Proofs.Reading

/-!
# Writing is path update

A writer goes through the containers of its target and makes those that are missing.  It may meet a
container that is no mapping, and by then it has touched the states.  This file says what is left in either
case, and that only the path of the target matters.

* `Value.store_fst_of_blocked`: a store that is given up leaves the value as it was.  All containers above
  the one that blocks the path are there, so nothing has been made on the way to it; they are only put back
  where they were taken out, and that is where the order of the fields enters.
* `Scope.assign_of_refused`: a target that cannot be written is refused before anything happens.
* `Scope.assign_snd_cases`: any other target fails at what stands in its way, and for no other reason.
* `Scope.updated_of_assign`: what goes through is seen below the path, beside it and above it as it should be.

The two main statements are about `Scope.assign`.  `Scope.assign_updates_path` says that it is the update of
a path: the spelling of the target plays no part, reading gives back what was written, everything beside
the path is as it was.  `Scope.assign_fails_cleanly` says when it fails, with which error, and that it then
leaves no trace.
-/

namespace Orrery

/-! ## Stores in place -/

namespace Value

variable {v value : Value} {path above : List String}

/-- **A store that is given up leaves the value as it was.** -/
theorem store_fst_of_blocked (h : v.Ordered) (hblocked : (v.store path value).2 = some above) :
    (v.store path value).1 = v := by
  induction path generalizing v above with
  | nil => cases hblocked
  | cons f path ih =>
    cases v with
    | mapping fields =>
      rw [store_mapping_cons, Option.map_eq_some_iff] at hblocked
      obtain ⟨rest, hrest, rfl⟩ := hblocked
      rw [store_mapping_cons]
      cases hget : Entries.get? f fields with
      | none =>
        -- a container made on the way is empty, and nothing is in the way there
        rw [hget] at hrest
        exact absurd (store_snd_eq_some_iff.1 hrest) not_blocks_mapping_nil
      | some w =>
        rw [hget, Option.getD_some] at hrest
        rw [Option.getD_some, ih (h.get? hget) hrest]
        cases h with
        | mapping sorted _ => rw [sorted.insert_of_get? hget]
    | _ => rfl

end Value

/-! ## Targets that cannot be written -/

namespace Query

theorem exists_illegalTarget {q : Query} {e : WriteError} (h : q.checkWriteTarget = .error e) :
    ∃ node, e = .illegalTarget node := by
  induction q using checkWriteTarget.induct with
  | case1 => cases h
  | case2 field => cases h
  | case3 container field ih => exact ih h
  | case4 q h1 h2 h3 =>
    rw [checkWriteTarget.eq_4 q h1 h2 h3] at h
    exact ⟨q, (Except.error.inj h).symm⟩

/-- A query is refused, or is the root, or leads to a field. -/
theorem target_cases (q : Query) :
    (∃ e, q.checkWriteTarget = .error e) ∨ q = .root ∨ ∃ path, q.targetPath? = some path ∧ path ≠ [] := by
  cases hcheck : q.checkWriteTarget with
  | error e => exact .inl ⟨e, rfl⟩
  | ok u =>
    right
    obtain ⟨path, hpath⟩ := Option.isSome_iff_exists.1 (q.checkWriteTarget_eq_ok_iff.1 hcheck)
    by_cases hne : path = []
    · exact .inl (Scope.targetPath?_eq_nil_iff.1 (hne ▸ hpath))
    · exact .inr ⟨path, hpath, hne⟩

end Query

namespace Scope

variable {s : Scope} {states : States} {q : Query} {path : List String} {value : Value}

/-- A change through a query that is refused does not begin. -/
theorem changeAt_of_refused {e : Query.WriteError} (h : q.checkWriteTarget = .error e) (agent : String)
    (change : Change) : changeAt states agent change q = (states, .error e) := by
  induction q using Query.checkWriteTarget.induct generalizing change with
  | case1 => cases h
  | case2 field => cases h
  | case3 container field ih => exact ih h _
  | case4 q h1 h2 h3 =>
    rw [Query.checkWriteTarget.eq_4 q h1 h2 h3] at h
    rw [changeAt.eq_4 _ _ _ q h1 h2 h3, h]

/-- **A target that is refused is refused before anything happens.** -/
theorem assign_of_refused {e : Query.WriteError} (h : q.checkWriteTarget = .error e) (value : Value) :
    s.assign states q value = (states, .error e) := by
  unfold assign
  split
  · cases h
  · exact changeAt_of_refused h s.agent _

/-! ## Targets that have a path -/

@[simp] theorem assign_root (s : Scope) (states : States) (value : Value) :
    s.assign states .root value = (states, .ok ()) := rfl

/-- What an assignment leaves. -/
theorem assign_fst (h : q.targetPath? = some path) (hne : path ≠ []) (value : Value) :
    (s.assign states q value).1 =
      states.insert s.agent (((states.get? s.agent).getD (.mapping [])).store path value).1 :=
  congrArg Prod.fst (s.located_assign states h hne value)

/-- A container on the way to the end of a path holds something that is no mapping.  The container of the
first field is the subject's state. -/
def Obstructs (s : Scope) (states : States) (path above : List String) : Prop :=
  above <+: path ∧ above ≠ path ∧ ∃ u, s.under? states above = some u ∧ ∀ fields, u ≠ .mapping fields

/-- A store into the subject's state is given up at what stands in its way. -/
theorem store_snd_eq_some_iff_obstructs (value : Value) {above : List String} :
    (((states.get? s.agent).getD (.mapping [])).store path value).2 = some above ↔
      s.Obstructs states path above := by
  rw [Value.store_snd_eq_some_iff]
  unfold Obstructs under?
  cases states.get? s.agent with
  | none => exact ⟨fun h => absurd h Value.not_blocks_mapping_nil, fun ⟨_, _, _, hu, _⟩ => nomatch hu⟩
  | some v => rfl

/-- **An assignment with a path fails at what stands in its way**, and for no other reason. -/
theorem assign_snd_cases (s : Scope) (states : States) (h : q.targetPath? = some path)
    (hne : path ≠ []) (value : Value) :
    ((s.assign states q value).2 = .ok () ∧ ∀ above, ¬ s.Obstructs states path above) ∨
    ∃ container above, (s.assign states q value).2 = .error (.notAMapping container) ∧
      container.targetPath? = some above ∧ s.Obstructs states path above := by
  have hend := congrArg Prod.snd (s.located_assign states h hne value)
  simp only [located, reported, Prod.map_snd, id_eq] at hend
  cases hstore : (((states.get? s.agent).getD (.mapping [])).store path value).2 with
  | none =>
    rw [hstore] at hend
    left
    refine ⟨?_, fun above habove => ?_⟩
    · cases houtcome : (s.assign states q value).2 with
      | ok u => rfl
      | error e =>
        rw [houtcome] at hend
        cases hend
    · rw [(store_snd_eq_some_iff_obstructs value).2 habove] at hstore
      cases hstore
  | some above =>
    rw [hstore] at hend
    right
    cases houtcome : (s.assign states q value).2 with
    | ok u =>
      rw [houtcome] at hend
      cases hend
    | error e =>
      rw [houtcome] at hend
      have hplace : e.place? = some above := Except.error.inj hend
      cases e with
      | illegalTarget node => cases hplace
      | notAMapping container =>
        exact ⟨container, above, rfl, hplace, (store_snd_eq_some_iff_obstructs value).1 hstore⟩

/-- **An assignment that fails leaves the states as they were.** -/
theorem assign_fst_of_error (hstates : states.Ordered) {e : Query.WriteError}
    (h : (s.assign states q value).2 = .error e) : (s.assign states q value).1 = states := by
  obtain ⟨refusal, hrefusal⟩ | rfl | ⟨path, hpath, hne⟩ := q.target_cases
  · rw [assign_of_refused hrefusal]
  · cases h
  · obtain ⟨hok, -⟩ | ⟨container, above, -, -, hobstructs⟩ := s.assign_snd_cases states hpath hne value
    · rw [hok] at h
      cases h
    · -- something is found above the end of the path, so the subject has a state to put back
      have hblocked := (store_snd_eq_some_iff_obstructs value).2 hobstructs
      obtain ⟨-, -, u, hu, -⟩ := hobstructs
      obtain ⟨v, hv, -⟩ := Option.bind_eq_some_iff.1 hu
      rw [assign_fst hpath hne, Value.store_fst_of_blocked (hstates.getD s.agent) hblocked, hv]
      exact Table.insert_of_get? hv

/-- **A target is refused exactly by its own check**, and with the same words. -/
theorem checkWriteTarget_eq_error_iff (s : Scope) (states : States) (value : Value)
    {e : Query.WriteError} :
    q.checkWriteTarget = .error e ↔
      (∃ node, e = .illegalTarget node) ∧ (s.assign states q value).2 = .error e := by
  constructor
  · intro h
    exact ⟨Query.exists_illegalTarget h, by rw [assign_of_refused h]⟩
  · rintro ⟨⟨node, rfl⟩, h⟩
    obtain ⟨refusal, hrefusal⟩ | rfl | ⟨path, hpath, hne⟩ := q.target_cases
    · rw [assign_of_refused hrefusal] at h
      exact hrefusal.trans h
    · cases h
    · obtain ⟨hok, -⟩ | ⟨container, above, hfail, -⟩ := s.assign_snd_cases states hpath hne value
      · rw [hok] at h
        cases h
      · rw [hfail] at h
        cases h

/-- A value has been put at the end of a path of the subject's state, by what queries read before and
after. -/
structure Updated (s : Scope) (before after : States) (path : List String) (value : Value) : Prop where
  /-- Below the path, the inside of the value is read. -/
  below : ∀ (r : Query) (rest : List String), r.targetPath? = some (path ++ rest) →
    s.resolve? after r = value.at? rest
  /-- Beside the path, what was found is found, and what was missing is missing. -/
  beside : ∀ (r : Query) (other : List String), r.targetPath? = some other → Apart path other →
    s.resolve? after r = s.resolve? before r
  /-- Above the path there are mappings. -/
  above : ∀ (r : Query) (outer : List String), r.targetPath? = some outer → outer <+: path →
    outer ≠ path → ∃ fields, s.resolve? after r = some (.mapping fields)
  /-- The other agents are not concerned. -/
  others : ∀ agent, agent ≠ s.agent → after.get? agent = before.get? agent

theorem under?_insert (s : Scope) (states : States) (v : Value) (path : List String) :
    s.under? (states.insert s.agent v) path = v.at? path := by
  rw [under?, Table.get?_insert_self, Option.bind_some]

/-- An agent that is missing has no more fields than one without any. -/
theorem at?_getD (s : Scope) (states : States) (hne : path ≠ []) :
    ((states.get? s.agent).getD (.mapping [])).at? path = s.under? states path := by
  unfold under?
  cases states.get? s.agent with
  | none => exact Value.at?_mapping_nil hne
  | some v => rfl

/-- **An assignment that goes through updates its path.** -/
theorem updated_of_assign {after : States} (h : q.targetPath? = some path) (hne : path ≠ [])
    (hok : s.assign states q value = (after, .ok ())) : s.Updated states after path value := by
  obtain ⟨new, hstore, rfl⟩ := (s.assign_eq_ok_iff states after h hne value).1 hok
  have hput := Value.put_eq_some_iff.2 hstore
  refine ⟨fun r rest hr => ?_, fun r other hr hap => ?_, fun r outer hr hpre hstrict => ?_,
    fun agent hagent => ?_⟩
  · rw [resolve?, s.lookup?_false_of_path hr, under?_insert, Value.at?_put_append hput]
  · rw [resolve?, resolve?, s.lookup?_false_of_path hr, s.lookup?_false_of_path hr, under?_insert,
      Value.at?_put_of_apart hput hap, s.at?_getD states hap.right_ne_nil]
  · rw [resolve?, s.lookup?_false_of_path hr, under?_insert]
    exact Value.at?_put_of_strict_prefix hput hpre hstrict
  · exact states.get?_insert_of_ne new (Ne.symm hagent)

/-- Only the path of a target matters, but for the words in which an obstacle is reported. -/
theorem located_assign_congr {other : Query} (h : q.targetPath? = some path)
    (hother : other.targetPath? = some path) :
    located (s.assign states other value) = located (s.assign states q value) := by
  by_cases hne : path = []
  · subst hne
    rw [targetPath?_eq_nil_iff.1 h, targetPath?_eq_nil_iff.1 hother]
  · rw [s.located_assign states h hne, s.located_assign states hother hne]

section Apart

variable {q' : Query} {path' : List String} (h : q.targetPath? = some path)
  (h' : q'.targetPath? = some path') (hap : Apart path path') (value value' : Value)

include h h' hap

/-- What two assignments beside each other leave. -/
theorem assign_assign_fst :
    (s.assign (s.assign states q value).1 q' value').1 =
      states.insert s.agent
        ((((states.get? s.agent).getD (.mapping [])).store path value).1.store path' value').1 := by
  rw [assign_fst h' hap.right_ne_nil, assign_fst h hap.left_ne_nil, Table.get?_insert_self,
    Option.getD_some, Table.insert_insert_self]

/-- **Assignments beside each other can be exchanged**, whether they go through or not. -/
theorem assign_comm :
    (s.assign (s.assign states q value).1 q' value').1 =
      (s.assign (s.assign states q' value').1 q value).1 := by
  rw [assign_assign_fst h h' hap, assign_assign_fst h' h hap.symm, Value.store_comm hap]

/-- An assignment beside another one ends as it would have without it. -/
theorem located_assign_snd_of_apart :
    (located (s.assign (s.assign states q value).1 q' value')).2 =
      (located (s.assign states q' value')).2 := by
  rw [s.located_assign _ h' hap.right_ne_nil, s.located_assign states h' hap.right_ne_nil,
    assign_fst h hap.left_ne_nil, Table.get?_insert_self, Option.getD_some]
  simp only [reported, Prod.map_snd, id_eq, Value.store_snd_of_apart hap]

end Apart

/-! ## The two statements -/

/-- **Writing is path update.**  Targets with one path leave the same states and end alike, up to the words
in which an obstacle is reported; the root takes nothing; what goes through updates the path, and its target
reads back what was written.  Two writes beside each other leave the same states in either order, and each
of them ends in one order as it does in the other. -/
theorem assign_updates_path (s : Scope) (states : States) {q : Query} {path : List String}
    (hq : q.targetPath? = some path) (value : Value) :
    (∀ q' : Query, q'.targetPath? = some path →
      located (s.assign states q' value) = located (s.assign states q value)) ∧
    (q = .root → s.assign states q value = (states, .ok ())) ∧
    (∀ after, path ≠ [] → s.assign states q value = (after, .ok ()) →
      s.resolve? after q = some value ∧ s.Updated states after path value) ∧
    ∀ (q' : Query) (path' : List String) (value' : Value), q'.targetPath? = some path' →
      Apart path path' →
      (s.assign (s.assign states q value).1 q' value').1 =
        (s.assign (s.assign states q' value').1 q value).1 ∧
      (located (s.assign (s.assign states q' value').1 q value)).2 =
        (located (s.assign states q value)).2 ∧
      (located (s.assign (s.assign states q value).1 q' value')).2 =
        (located (s.assign states q' value')).2 := by
  refine ⟨fun q' hq' => located_assign_congr hq hq', fun hroot => by rw [hroot, assign_root],
    fun after hne hok => ?_, fun q' path' value' hq' hap => ?_⟩
  · have hupdated := updated_of_assign hq hne hok
    refine ⟨hupdated.below q [] ?_, hupdated⟩
    rw [hq, List.append_nil]
  · exact ⟨assign_comm hq hq' hap value value',
      located_assign_snd_of_apart hq' hq hap.symm value' value,
      located_assign_snd_of_apart hq hq' hap value value'⟩

end Scope

/-! A moon of which half is there: its mass is said to be nothing, and its place has one of two fields. -/

namespace HalfBuilt

/-- The moon is the subject. -/
def scope : Scope := ⟨"sky", "moon", Table.empty⟩

/-- The moon as it is. -/
def states : States :=
  Table.single "moon" (.mapping [("mass", .null), ("place", .mapping [("x", .null)])])

/-- The other field of the place. -/
def target : Query := .access (.base "place") "y"

/-- Two fields below the mass, which has none. -/
def beyond : Query := .access (.access (.base "mass") "unit") "name"

theorem ordered_states : states.Ordered := by
  have hplace : (Value.mapping [("x", .null)]).Ordered := Value.ordered_nil.insert "x" .null
  exact States.ordered_single ((Value.ordered_nil.insert "place" hplace).insert "mass" .null)

end HalfBuilt

namespace Scope

/-- The half-built moon gets the other field, before or after a write that is given up. -/
theorem halfBuilt_updates_path :
    ∃ after, HalfBuilt.scope.assign HalfBuilt.states HalfBuilt.target (.text "far") = (after, .ok ()) ∧
      HalfBuilt.scope.resolve? after HalfBuilt.target = some (.text "far") ∧
      HalfBuilt.scope.Updated HalfBuilt.states after ["place", "y"] (.text "far") ∧
      (HalfBuilt.scope.assign after HalfBuilt.beyond .null).1 =
        (HalfBuilt.scope.assign (HalfBuilt.scope.assign HalfBuilt.states HalfBuilt.beyond .null).1
          HalfBuilt.target (.text "far")).1 := by
  have hpath : HalfBuilt.target.targetPath? = some ["place", "y"] := rfl
  have hpath' : HalfBuilt.beyond.targetPath? = some ["mass", "unit", "name"] := rfl
  obtain ⟨-, -, hupdates, hcomm⟩ :=
    assign_updates_path HalfBuilt.scope HalfBuilt.states hpath (.text "far")
  have hok : HalfBuilt.scope.assign HalfBuilt.states HalfBuilt.target (.text "far") =
      ((HalfBuilt.scope.assign HalfBuilt.states HalfBuilt.target (.text "far")).1, .ok ()) := rfl
  obtain ⟨hread, hupdated⟩ := hupdates _ (by decide) hok
  exact ⟨_, hok, hread, hupdated, (hcomm _ _ .null hpath' (by simp [Apart])).1⟩

/-- **A write fails when it should, and cleanly.**  After a failure the states are what they were; that
their mappings are in order holds of all data that is read or made (`RuleGraph.ordered_of_step`).  A target
is refused exactly when it is no writable query, whatever the states, and with the error that the query's
own check gives.  Every other target fails exactly at a container that is there and is no mapping, `null`
included, and goes through otherwise. -/
theorem assign_fails_cleanly (s : Scope) (states : States) (q : Query) (value : Value) :
    (states.Ordered → ∀ after e, s.assign states q value = (after, .error e) → after = states) ∧
    (∀ e, q.checkWriteTarget = .error e ↔
      (∃ node, e = .illegalTarget node) ∧ (s.assign states q value).2 = .error e) ∧
    ∀ path, q.targetPath? = some path → path ≠ [] →
      ((∃ container, (s.assign states q value).2 = .error (.notAMapping container)) ↔
        ∃ above, s.Obstructs states path above) ∧
      (∀ container, (s.assign states q value).2 = .error (.notAMapping container) →
        ∃ above, container.targetPath? = some above ∧ s.Obstructs states path above) ∧
      ((∀ above, ¬ s.Obstructs states path above) → (s.assign states q value).2 = .ok ()) := by
  refine ⟨fun hstates after e hfail => ?_, fun e => s.checkWriteTarget_eq_error_iff states value,
    fun path hpath hne => ?_⟩
  · have hafter := assign_fst_of_error hstates (congrArg Prod.snd hfail)
    rwa [hfail] at hafter
  · obtain ⟨hok, hfree⟩ | ⟨container, above, hfail, hcontainer, hobstructs⟩ :=
      s.assign_snd_cases states hpath hne value
    · rw [hok]
      exact ⟨⟨fun ⟨_, h⟩ => (nomatch h), fun ⟨above, h⟩ => absurd h (hfree above)⟩,
        fun _ h => (nomatch h), fun _ => rfl⟩
    · refine ⟨⟨fun _ => ⟨above, hobstructs⟩, fun _ => ⟨container, hfail⟩⟩, fun other hother => ?_,
        fun hfree => absurd hobstructs (hfree above)⟩
      rw [hfail] at hother
      cases hother
      exact ⟨above, hcontainer, hobstructs⟩

/-- Below the mass of the half-built moon nothing can be written, and nothing has changed then. -/
theorem halfBuilt_fails_cleanly :
    HalfBuilt.states.Ordered ∧
    HalfBuilt.scope.assign HalfBuilt.states HalfBuilt.beyond .null =
      (HalfBuilt.states, .error (.notAMapping (.base "mass"))) ∧
    ∃ above, HalfBuilt.scope.Obstructs HalfBuilt.states ["mass", "unit", "name"] above := by
  obtain ⟨hclean, -, hpaths⟩ :=
    assign_fails_cleanly HalfBuilt.scope HalfBuilt.states HalfBuilt.beyond .null
  have hfail : HalfBuilt.scope.assign HalfBuilt.states HalfBuilt.beyond .null =
      ((HalfBuilt.scope.assign HalfBuilt.states HalfBuilt.beyond .null).1,
        .error (.notAMapping (.base "mass"))) := rfl
  refine ⟨HalfBuilt.ordered_states, ?_, ?_⟩
  · rwa [hclean HalfBuilt.ordered_states _ _ hfail] at hfail
  · exact (hpaths _ rfl (by decide)).1.1 ⟨_, congrArg Prod.snd hfail⟩

end Scope

end Orrery
