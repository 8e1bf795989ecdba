import Orrery.Proofs.Failure
import Orrery.Proofs.Store

/-!
# Rules with shapes

Rules say what they read and where they write, and nothing about what stands there.  This file adds that.
A `Form` lists the fields of an agent with their shapes.  A table of rules is typed by a form if every rule
hands over arguments of the shapes that its producer takes, and writes a result of the shape that its field
has (`Rule.Makes`), and if there is a rule for every field (`AgentRules.Typed`).

Rules may read fields that the same step writes.  So that no rule waits for ever, a field has a rank, and a
rule reads only fields of a lower rank than the one it writes.

* `Scope.holds_of_lookup?`, `Scope.exists_lookup?`: what is found has its shape, and what has been made is
  found.
* `Execution.partly`: at every moment of a step, the states hold fields of the form and no others.
* `Settles.left_eq_nil`: no rule is left in the end, by induction on the rank.
* `RuleGraph.step_typed`: a step gives every agent a state of the form, or the result of a producer is not
  finite.
* `Reachable.historyFits`, `Reachable.run_typed`: so it is for whole runs, where in addition a clock may
  refuse.
-/

namespace Orrery

/-! ## Shapes and forms -/

/-- What a field holds. -/
inductive Shape where
  /-- A number. -/
  | number
  /-- A mapping with three numeric components. -/
  | vector
  deriving DecidableEq

/-- A value has a shape. -/
def Shape.Holds : Shape → Value → Prop
  | .number, v => v.float?.isSome = true
  | .vector, v => ∀ axis ∈ ["x", "y", "z"], (v.numericField? axis).isSome = true

instance : ∀ (shape : Shape) (v : Value), Decidable (shape.Holds v)
  | .number, v => inferInstanceAs (Decidable (v.float?.isSome = true))
  | .vector, v =>
    inferInstanceAs (Decidable (∀ axis ∈ ["x", "y", "z"], (v.numericField? axis).isSome = true))

/-- The fields of an agent with their shapes. -/
abbrev Form := Table Shape

namespace Value

/-- Every field of a form is there and has its shape. -/
def Fits (form : Form) (v : Value) : Prop :=
  ∀ e ∈ form.entries, ∃ w ∈ v.field? e.1, e.2.Holds w

instance (form : Form) (v : Value) : Decidable (v.Fits form) :=
  inferInstanceAs (Decidable (∀ e ∈ form.entries, ∃ w ∈ v.field? e.1, e.2.Holds w))

/-- The names of the fields, in their order; only mappings have fields. -/
def fieldNames : Value → List String
  | .mapping fields => fields.map (·.1)
  | _ => []

/-- A value fits a form and has no other fields. -/
structure Exact (form : Form) (v : Value) : Prop where
  /-- Every field is there and has its shape. -/
  fits : v.Fits form
  /-- There is no other field. -/
  names : v.fieldNames = form.keys

/-- A mapping in order whose fields are fields of the form, each of its shape. -/
def Partly (form : Form) (v : Value) : Prop :=
  ∃ fields : Table Value, v = .mapping fields.entries ∧
    ∀ name w, fields.get? name = some w → ∃ shape, form.get? name = some shape ∧ shape.Holds w

variable {form : Form} {v : Value}

theorem Fits.exists_field? (h : v.Fits form) {name : String} {shape : Shape}
    (hshape : form.get? name = some shape) : ∃ w, v.field? name = some w ∧ shape.Holds w :=
  h (name, shape) (Table.mem_entries_iff.2 hshape)

theorem partly_empty (form : Form) : Partly form (.mapping []) :=
  ⟨Table.empty, rfl, by simp⟩

theorem Partly.holds (h : Partly form v) {name : String} {shape : Shape} {w : Value}
    (hshape : form.get? name = some shape) (hw : v.field? name = some w) : shape.Holds w := by
  obtain ⟨fields, rfl, hfields⟩ := h
  obtain ⟨shape', hshape', hholds⟩ := hfields name w hw
  obtain rfl : shape' = shape := Option.some.inj (hshape'.symm.trans hshape)
  exact hholds

/-- A mapping that has all fields has exactly them. -/
theorem Partly.exact (h : Partly form v) (hall : ∀ name ∈ form.keys, (v.field? name).isSome = true) :
    v.Exact form := by
  have hfits : v.Fits form := by
    intro e he
    have hshape := Table.mem_entries_iff.1 he
    obtain ⟨w, hw⟩ := Option.isSome_iff_exists.1 (hall e.1 (List.mem_map_of_mem he))
    exact ⟨w, hw, h.holds hshape hw⟩
  refine ⟨hfits, ?_⟩
  obtain ⟨fields, rfl, hfields⟩ := h
  refine Table.keys_eq_of_mem_iff (t := fields) fun name => ⟨fun hname => ?_, fun hname => ?_⟩
  · obtain ⟨w, hw⟩ := Table.mem_keys_iff.1 hname
    obtain ⟨shape, hshape, -⟩ := hfields name w hw
    exact Table.mem_keys_iff.2 ⟨shape, hshape⟩
  · exact Table.mem_keys_iff.2 (Option.isSome_iff_exists.1 (hall name hname))

theorem Partly.insert {fields : Table Value} (h : Partly form (.mapping fields.entries)) {name : String}
    {shape : Shape} {w : Value} (hshape : form.get? name = some shape) (hw : shape.Holds w) :
    Partly form (.mapping (fields.insert name w).entries) := by
  refine ⟨fields.insert name w, rfl, fun other u hu => ?_⟩
  obtain ⟨own, hown, hfields⟩ := h
  obtain rfl : fields = own := Table.ext_entries (Value.mapping.inj hown)
  rw [Table.get?_insert] at hu
  split at hu
  · next heq =>
    rw [← heq, ← Option.some.inj hu]
    exact ⟨shape, hshape, hw⟩
  · exact hfields other u hu

end Value

/-! ## Typed rules -/

/-- A query reads a value of a shape: a field as it was, a field that is being made, or a field of another
agent. -/
inductive Query.Reads (form : Form) : Query → Shape → Prop
  | previous {field : String} {shape : Shape} (h : form.get? field = some shape) :
      Reads form (.prev (.base field)) shape
  | current {field : String} {shape : Shape} (h : form.get? field = some shape) :
      Reads form (.base field) shape
  | other {field : String} {shape : Shape} (agent : String) (h : form.get? field = some shape) :
      Reads form (.access (.agent agent) field) shape

/-- A result has a shape, or is not finite. -/
def Producer.Gives (shape : Shape) (result : Except ProducerError Value) : Prop :=
  (∃ v, result = .ok v ∧ shape.Holds v) ∨ ∃ what, result = .error (.nonFinite what)

/-- From arguments of some shapes, a producer makes a result of a shape. -/
def Producer.Maps (takes : List Shape) (gives : Shape) (p : Producer) : Prop :=
  ∀ args, List.Forall₂ Shape.Holds takes args → Gives gives (p args)

/-- A rule makes a field of a form, out of what was there before and of fields of a lower rank. -/
structure Rule.Makes (form : Form) (rank : String → Nat) (field : String) (r : Rule) : Prop where
  /-- The field is where the result goes. -/
  target : r.produced = .base field
  /-- The producer takes what is read, and gives what the field holds. -/
  typed : ∃ items takes gives, r.consumed = .tuple items ∧
    List.Forall₂ (Query.Reads form) items takes ∧ r.produce.Maps takes gives ∧
    form.get? field = some gives ∧ ∀ earlier, .base earlier ∈ items → rank earlier < rank field

/-- Every rule makes a field, and every field is made. -/
structure AgentRules.Typed (form : Form) (rank : String → Nat) (rules : AgentRules) : Prop where
  /-- Every rule makes a field. -/
  makes : ∀ agent own, rules.get? agent = some own → ∀ r ∈ own, ∃ field, r.Makes form rank field
  /-- Every field is made for every agent. -/
  made : ∀ agent own, rules.get? agent = some own → ∀ field ∈ form.keys,
    ∃ r ∈ own, r.produced = .base field

/-- An agent has a field. -/
def States.Has (states : States) (agent field : String) : Prop :=
  ∃ v, states.get? agent = some v ∧ (v.field? field).isSome = true

namespace Scope

variable {form : Form} {s : Scope} {states : States} {names : List String}

/-- What is committed of some agents fits a form. -/
def Knows (s : Scope) (form : Form) (names : List String) : Prop :=
  ∀ name ∈ names, ∃ v, s.committed? name = some v ∧ v.Fits form

/-- **What is found has its shape.** -/
theorem holds_of_lookup? (hknows : s.Knows form names) (hagent : s.agent ∈ names)
    (hstate : ∀ v, states.get? s.agent = some v → v.Partly form) {q : Query} {shape : Shape}
    (h : q.Reads form shape) (hnames : ∀ name ∈ q.agents, name ∈ names) {w : Value}
    (hw : s.lookup? states false q = some w) : shape.Holds w := by
  cases h with
  | previous hshape =>
    obtain ⟨v, hv, hfits⟩ := hknows _ hagent
    obtain ⟨u, hu, hholds⟩ := hfits.exists_field? hshape
    simp only [lookup?, subject?, if_true, hv, Option.bind_some, hu] at hw
    rwa [← Option.some.inj hw]
  | current hshape =>
    obtain ⟨v, hv, hfield⟩ := Option.bind_eq_some_iff.1 hw
    exact (hstate v hv).holds hshape hfield
  | other agent hshape =>
    obtain ⟨v, hv, hfits⟩ := hknows agent (hnames agent (List.mem_singleton_self agent))
    obtain ⟨u, hu, hholds⟩ := hfits.exists_field? hshape
    simp only [lookup?, hv, Option.bind_some, hu] at hw
    rwa [← Option.some.inj hw]

/-- **What has been made is found.** -/
theorem exists_lookup? (hknows : s.Knows form names) (hagent : s.agent ∈ names) {q : Query}
    {shape : Shape} (h : q.Reads form shape) (hnames : ∀ name ∈ q.agents, name ∈ names)
    (hmade : ∀ field, q = .base field → states.Has s.agent field) :
    ∃ w, s.lookup? states false q = some w := by
  cases h with
  | previous hshape =>
    obtain ⟨v, hv, hfits⟩ := hknows _ hagent
    obtain ⟨u, hu, -⟩ := hfits.exists_field? hshape
    exact ⟨u, by simp only [lookup?, subject?, if_true, hv, Option.bind_some, hu]⟩
  | current hshape =>
    obtain ⟨v, hv, hfield⟩ := hmade _ rfl
    obtain ⟨u, hu⟩ := Option.isSome_iff_exists.1 hfield
    exact ⟨u, Option.bind_eq_some_iff.2 ⟨v, hv, hu⟩⟩
  | other agent hshape =>
    obtain ⟨v, hv, hfits⟩ := hknows agent (hnames agent (List.mem_singleton_self agent))
    obtain ⟨u, hu, -⟩ := hfits.exists_field? hshape
    exact ⟨u, by simp only [lookup?, hv, Option.bind_some, hu]⟩

theorem holds_of_lookupItems? (hknows : s.Knows form names) (hagent : s.agent ∈ names)
    (hstate : ∀ v, states.get? s.agent = some v → v.Partly form) {items : List Query}
    {shapes : List Shape} (h : List.Forall₂ (Query.Reads form) items shapes)
    (hnames : ∀ name ∈ Query.itemAgents items, name ∈ names) {vs : List Value}
    (hvs : s.lookupItems? states false items = some vs) : List.Forall₂ Shape.Holds shapes vs := by
  induction h generalizing vs with
  | nil =>
    rw [lookupItems?, Option.some.injEq] at hvs
    rw [← hvs]
    exact .nil
  | @cons q shape rest shapes hq _ ih =>
    obtain ⟨hhead, htail⟩ := List.forall_mem_append.1 hnames
    rw [lookupItems?] at hvs
    cases hw : s.lookup? states false q with
    | none =>
      rw [hw] at hvs
      cases hvs
    | some w =>
      rw [hw] at hvs
      obtain ⟨ws, hws, rfl⟩ := Option.map_eq_some_iff.1 hvs
      exact .cons (holds_of_lookup? hknows hagent hstate hq hhead hw) (ih htail hws)

theorem exists_lookupItems? (hknows : s.Knows form names) (hagent : s.agent ∈ names)
    {items : List Query} {shapes : List Shape} (h : List.Forall₂ (Query.Reads form) items shapes)
    (hnames : ∀ name ∈ Query.itemAgents items, name ∈ names)
    (hmade : ∀ field, .base field ∈ items → states.Has s.agent field) :
    ∃ vs, s.lookupItems? states false items = some vs := by
  induction h with
  | nil => exact ⟨[], rfl⟩
  | @cons q shape rest shapes hq _ ih =>
    obtain ⟨hhead, htail⟩ := List.forall_mem_append.1 hnames
    obtain ⟨w, hw⟩ := exists_lookup? hknows hagent hq hhead fun field hfield =>
      hmade field (hfield ▸ List.mem_cons_self ..)
    obtain ⟨ws, hws⟩ := ih htail fun field hfield => hmade field (List.mem_cons_of_mem _ hfield)
    refine ⟨w :: ws, ?_⟩
    rw [lookupItems?, hw, hws]
    rfl

/-- Writing a field of a state that is a mapping. -/
theorem write_base (s : Scope) (states : States) (field : String) (value : Value) {fields : Table Value}
    (h : (states.get? s.agent).getD (.mapping []) = .mapping fields.entries) :
    s.write states (.base field) value =
      .ok (states.insert s.agent (.mapping (fields.insert field value).entries)) := by
  simp only [write, assign, changeAt, changeState, h]
  rfl

end Scope

/-! ## One step -/

namespace Step

variable {form : Form} {rank : String → Nat} {engine : String} {snapshot : Universe} {rules : AgentRules}
variable {states after : States} {calls : List Call} {p : Pending} {c : Call}

/-- A step of typed rules of an accepted graph, from a snapshot that fits. -/
structure Typed (form : Form) (rank : String → Nat) (engine : String) (snapshot : Universe)
    (rules : AgentRules) : Prop where
  /-- The rules are typed. -/
  typed : rules.Typed form rank
  /-- The rules are accepted. -/
  sound : ∀ a ∈ rules.entries, RuleGraph.Sound rules a.2
  /-- The snapshot fits. -/
  fits : ∀ name ∈ rules.keys, ∃ v, (snapshot.get? engine).bind (·.get? name) = some v ∧ v.Fits form

theorem Typed.knows (h : Typed form rank engine snapshot rules) (p : Pending) :
    (scopeOf engine snapshot p).Knows form rules.keys := h.fits

/-- A pending rule belongs to an agent of the engine, makes a field, and reads agents of the engine. -/
theorem Typed.pending (h : Typed form rank engine snapshot rules) (hp : p ∈ pendingOf rules) :
    p.agent ∈ rules.keys ∧ (∃ field, p.rule.Makes form rank field) ∧
      ∀ name ∈ p.rule.consumed.agents, name ∈ rules.keys := by
  obtain ⟨own, hown, hr⟩ := exists_mem_pendingOf_iff.1 ⟨p, hp, rfl, rfl⟩
  refine ⟨Table.mem_keys_iff.2 ⟨own, hown⟩, h.typed.makes _ own hown _ hr, fun name hname => ?_⟩
  have hknown := (h.sound _ (Table.mem_entries_iff.2 hown)).known _ hr name hname
  exact Table.mem_keys_iff.2 (Option.isSome_iff_exists.1 hknown)

/-- For every field of an agent there is a pending rule that makes it. -/
theorem Typed.exists_pending (h : Typed form rank engine snapshot rules) {agent field : String}
    (hagent : agent ∈ rules.keys) (hfield : field ∈ form.keys) :
    ∃ p ∈ pendingOf rules, p.agent = agent ∧ p.rule.produced = .base field := by
  obtain ⟨own, hown⟩ := Table.mem_keys_iff.1 hagent
  obtain ⟨r, hr, hproduced⟩ := h.typed.made agent own hown field hfield
  obtain ⟨p, hp, hpagent, rfl⟩ := exists_mem_pendingOf_iff.2 ⟨own, hown, hr⟩
  exact ⟨p, hp, hpagent, hproduced⟩

/-- **The result of a call has the shape of its field, or is not finite.** -/
theorem Typed.result (h : Typed form rank engine snapshot rules) (hp : p ∈ pendingOf rules)
    (hstate : ∀ v, states.get? p.agent = some v → v.Partly form)
    (hcall : call? engine snapshot states p = some c) :
    ∃ field shape, p.rule.produced = .base field ∧ form.get? field = some shape ∧
      Producer.Gives shape c.result := by
  obtain ⟨hagent, ⟨field, hmakes⟩, hnames⟩ := h.pending hp
  obtain ⟨items, takes, gives, hconsumed, hreads, hmaps, hgives, -⟩ := hmakes.typed
  refine ⟨field, gives, hmakes.target, hgives, ?_⟩
  rw [hconsumed] at hnames
  obtain ⟨input, hinput, rfl⟩ := Option.map_eq_some_iff.1 hcall
  rw [hconsumed, Scope.resolve?, Scope.lookup?] at hinput
  obtain ⟨vs, hvs, rfl⟩ := Option.map_eq_some_iff.1 hinput
  rw [hconsumed]
  exact hmaps vs (Scope.holds_of_lookupItems? (h.knows p) hagent hstate hreads hnames hvs)

/-- **A rule can be called as soon as the fields of lower rank are made.** -/
theorem Typed.exists_call (h : Typed form rank engine snapshot rules) (hp : p ∈ pendingOf rules)
    {field : String} (hmakes : p.rule.Makes form rank field)
    (hmade : ∀ earlier ∈ form.keys, rank earlier < rank field → states.Has p.agent earlier) :
    ∃ c, call? engine snapshot states p = some c := by
  obtain ⟨hagent, -, hnames⟩ := h.pending hp
  obtain ⟨items, takes, gives, hconsumed, hreads, -, -, hrank⟩ := hmakes.typed
  rw [hconsumed] at hnames
  have hitems : ∀ earlier, .base earlier ∈ items → states.Has p.agent earlier := by
    intro earlier hearlier
    obtain ⟨shape, -, hread⟩ := Table.exists_mem_of_forall₂ hreads.flip hearlier
    cases hread with
    | current hshape =>
      exact hmade earlier (Table.mem_keys_iff.2 ⟨_, hshape⟩) (hrank earlier hearlier)
  obtain ⟨vs, hvs⟩ := Scope.exists_lookupItems? (h.knows p) hagent hreads hnames hitems
  refine ⟨_, Option.map_eq_some_iff.2 ⟨.list vs, ?_, rfl⟩⟩
  rw [hconsumed, Scope.resolve?, Scope.lookup?, hvs]
  rfl

/-- The states under construction hold fields of the form and no others, and what calls have made is
there. -/
structure Partly (form : Form) (calls : List Call) (states : States) : Prop where
  /-- Only fields of the form. -/
  partly : ∀ agent v, states.get? agent = some v → v.Partly form
  /-- What has been made stays. -/
  made : ∀ c ∈ calls, ∀ field, c.pending.rule.produced = .base field → states.Has c.agent field

/-- A field that is written is there, and no other one is lost. -/
theorem has_insert {agent field : String} {fields : Table Value}
    (h : (states.get? agent).getD (.mapping []) = .mapping fields.entries) (w : Value)
    {other name : String} (hname : states.Has other name ∨ agent = other ∧ field = name) :
    States.Has (states.insert agent (.mapping (fields.insert field w).entries)) other name := by
  by_cases hagent : agent = other
  · subst hagent
    refine ⟨_, Table.get?_insert_self .., ?_⟩
    change ((fields.insert field w).get? name).isSome = true
    rw [Table.get?_insert]
    split
    · rfl
    · next hne =>
      rcases hname with ⟨v, hv, hfield⟩ | ⟨-, heq⟩
      · rw [hv, Option.getD_some] at h
        rw [h] at hfield
        exact hfield
      · exact absurd heq hne
  · rcases hname with ⟨v, hv, hfield⟩ | ⟨heq, -⟩
    · exact ⟨v, (Table.get?_insert_of_ne _ _ hagent).trans hv, hfield⟩
    · exact absurd heq hagent

/-- One more call. -/
theorem Partly.concat (h : Partly form calls states) (ht : Typed form rank engine snapshot rules)
    (hp : c.pending ∈ pendingOf rules) (hfires : Fires engine snapshot states c after) :
    Partly form (calls ++ [c]) after := by
  obtain ⟨output, hresult, hwrite⟩ := hfires.wrote
  obtain ⟨field, shape, htarget, hshape, hcases⟩ := ht.result hp (h.partly _) hfires.called
  have hholds : shape.Holds output := by
    rcases hcases with ⟨w, hw, hholds⟩ | ⟨what, hwhat⟩
    · rw [hresult] at hw
      rwa [Except.ok.inj hw]
    · rw [hresult] at hwhat
      cases hwhat
  have hold : ((states.get? c.agent).getD (.mapping [])).Partly form := by
    cases hget : states.get? c.agent with
    | none => exact Value.partly_empty form
    | some v => exact h.partly _ v hget
  obtain ⟨fields, hfields, -⟩ := id hold
  rw [htarget, Scope.write_base _ _ _ _ hfields, Except.ok.injEq] at hwrite
  subst hwrite
  rw [hfields] at hold
  refine ⟨fun agent v hv => ?_, fun d hd name hname => ?_⟩
  · rw [Table.get?_insert] at hv
    split at hv
    · rw [← Option.some.inj hv]
      exact hold.insert hshape hholds
    · exact h.partly agent v hv
  · refine has_insert hfields output ?_
    rcases List.mem_append.1 hd with hd | hd
    · exact .inl (h.made d hd name hname)
    · obtain rfl := List.mem_singleton.1 hd
      exact .inr ⟨rfl, Query.base.inj (htarget.symm.trans hname)⟩

/-- **At every moment of a step, the states hold fields of the form and no others.** -/
theorem Execution.partly (h : Execution engine snapshot Table.empty calls states)
    (ht : Typed form rank engine snapshot rules) (hcalls : ∀ c ∈ calls, c.pending ∈ pendingOf rules) :
    Partly form calls states := by
  induction h with
  | nil => exact ⟨by simp, by simp⟩
  | @concat calls c states after _ hfires ih =>
    obtain ⟨hbefore, hlast⟩ := List.forall_mem_append.1 hcalls
    exact (ih hbefore).concat ht (hlast c (List.mem_singleton_self c)) hfires

theorem Settles.partly {left : List Pending}
    (h : Settles engine snapshot Table.empty (pendingOf rules) calls after left)
    (ht : Typed form rank engine snapshot rules) : Partly form calls after :=
  h.execution_nil.partly ht fun _ hc =>
    h.perm.mem_iff.2 (List.mem_append_left _ (List.mem_map_of_mem hc))

/-- **No rule waits for ever.** -/
theorem Settles.left_eq_nil {left : List Pending}
    (h : Settles engine snapshot Table.empty (pendingOf rules) calls after left)
    (ht : Typed form rank engine snapshot rules) : left = [] := by
  have hpartly := h.partly ht
  have hcalled : ∀ n, ∀ p ∈ pendingOf rules, ∀ field, p.rule.Makes form rank field →
      rank field = n → p ∉ left := by
    intro n
    -- a rule that is left could be called, because the rules of lower rank have been
    induction n using Nat.strong_induction_on with
    | h n ih =>
      rintro p hp field hmakes rfl hleft
      have hmade : ∀ earlier ∈ form.keys, rank earlier < rank field → after.Has p.agent earlier := by
        intro earlier hearlier hlt
        obtain ⟨q, hq, hagent, htarget⟩ := ht.exists_pending (ht.pending hp).1 hearlier
        obtain ⟨-, ⟨other, hother⟩, -⟩ := ht.pending hq
        obtain rfl : other = earlier := Query.base.inj (hother.target.symm.trans htarget)
        have hdone : q ∈ calls.map (·.pending) :=
          (List.mem_append.1 (h.perm.mem_iff.1 hq)).resolve_right (ih _ hlt q hq _ hother rfl)
        obtain ⟨d, hd, rfl⟩ := List.mem_map.1 hdone
        rw [← hagent]
        exact hpartly.made d hd _ htarget
      obtain ⟨c, hc⟩ := ht.exists_call hp hmakes hmade
      rw [h.stuck p hleft] at hc
      cases hc
  refine List.eq_nil_iff_forall_not_mem.2 fun p hleft => ?_
  have hp : p ∈ pendingOf rules := h.perm.mem_iff.2 (List.mem_append_right _ hleft)
  obtain ⟨-, ⟨field, hmakes⟩, -⟩ := ht.pending hp
  exact hcalled _ p hp field hmakes rfl hleft

/-- The states at the end of a step have the form. -/
theorem Settles.exact (h : Settles engine snapshot Table.empty (pendingOf rules) calls after [])
    (ht : Typed form rank engine snapshot rules) {name : String} (hname : name ∈ rules.keys) :
    ∃ v, after.get? name = some v ∧ v.Exact form := by
  have hpartly := h.partly ht
  have hhas : ∀ p ∈ pendingOf rules, ∀ field, p.rule.produced = .base field →
      after.Has p.agent field := by
    intro p hp field htarget
    obtain ⟨c, hc, rfl⟩ := List.mem_map.1 (h.perm_of_nil.mem_iff.1 hp)
    exact hpartly.made c hc field htarget
  -- an agent has rules, so it has a state
  obtain ⟨own, hown⟩ := Table.mem_keys_iff.1 hname
  obtain ⟨r, hr⟩ := List.exists_mem_of_ne_nil _ (ht.sound _ (Table.mem_entries_iff.2 hown)).nonempty
  obtain ⟨p, hp, rfl, rfl⟩ := exists_mem_pendingOf_iff.2 ⟨own, hown, hr⟩
  obtain ⟨-, ⟨field, hmakes⟩, -⟩ := ht.pending hp
  obtain ⟨v, hv, -⟩ := hhas p hp field hmakes.target
  refine ⟨v, hv, (hpartly.partly _ v hv).exact fun other hother => ?_⟩
  obtain ⟨q, hq, hagent, htarget⟩ := ht.exists_pending hname hother
  obtain ⟨u, hu, hfield⟩ := hhas q hq other htarget
  rw [hagent, hv, Option.some.injEq] at hu
  rwa [hu]

end Step

open Step in
/-- **Typed rules keep the form.**  A step from a snapshot that fits gives every agent a state of the form
and nothing more, or the result of a producer is not finite. -/
theorem RuleGraph.step_typed {form : Form} {rank : String → Nat} {engines : Table AgentRules}
    {g : RuleGraph} {engine : String} {rules : AgentRules} {before : States}
    (hg : ofRules engines = .ok g) (hr : g.agents engine = .ok rules) (ht : rules.Typed form rank)
    (hfits : ∀ name ∈ rules.keys, ∃ v, before.get? name = some v ∧ v.Fits form) :
    (∃ next, g.step engine (Table.single engine before) = .ok next ∧
      ∀ name ∈ rules.keys, ∃ v, next.get? name = some v ∧ v.Exact form) ∨
    ∃ place function what, g.step engine (Table.single engine before) =
      .error (.producer place function (.nonFinite what)) := by
  have hsound := sound_of_ofRules hg hr
  have htyped : Typed form rank engine (Table.single engine before) rules := by
    refine ⟨ht, hsound, fun name hname => ?_⟩
    rw [Table.get?_single, if_pos rfl]
    exact hfits name hname
  rw [step_eq hr]
  rcases resolve_cases engine (Table.single engine before) Table.empty (pendingOf rules) with
    ⟨calls, after, passes, hsettles, hok⟩ | ⟨calls, after, left, hsettles, hleft, -⟩ |
    ⟨calls, c, e, hbreaks, herror⟩
  · rw [hok]
    exact .inl ⟨after, rfl, fun name hname => hsettles.exact htyped hname⟩
  · exact absurd (hsettles.left_eq_nil htyped) hleft
  · obtain ⟨cause, hcause, rfl⟩ := hbreaks.producer (pairwise_beside_pendingOf hsound)
    obtain ⟨last, hexecution, hrefuses⟩ := hbreaks.execution_nil
    obtain ⟨rest, hperm⟩ := hbreaks.perm
    have hpending : ∀ d ∈ calls ++ [c], d.pending ∈ pendingOf rules := fun d hd =>
      hperm.mem_iff.2 (List.mem_append_left _ (List.mem_map_of_mem hd))
    obtain ⟨hcalls, hc⟩ := List.forall_mem_append.1 hpending
    have hpartly := hexecution.partly htyped hcalls
    obtain ⟨field, shape, -, -, hresult⟩ := htyped.result (hc c (List.mem_singleton_self c))
      (hpartly.partly _) hrefuses.called
    rcases hresult with ⟨w, hw, -⟩ | ⟨what, hwhat⟩
    · rw [hcause] at hw
      cases hw
    · rw [hcause, Except.error.injEq] at hwhat
      rw [herror, hwhat]
      exact .inr ⟨_, _, what, rfl⟩

/-! ## Whole runs -/

namespace Simulation

/-- A cycle that fails has been given nothing by the step, or is refused by the clock or the store. -/
theorem failed_cases {s after : Simulation} {agent : String} {iteration : Nat} {e : SimulationError}
    (h : s.cycle iteration agent = .failed after e) :
    (∃ clock, (s.snapshot clock).keys = s.agents ∧ s.advanced agent (s.snapshot clock) = .error e) ∨
    (∃ cause, e = .clock cause) ∨ ∃ cause, e = .store cause := by
  unfold cycle at h
  split at h
  · exact .inr (.inl ⟨_, (Cycle.failed.inj h).2.symm⟩)
  · next clock hclock =>
    dsimp only at h
    split at h
    · cases h
    · next hknown =>
      split at h
      · next cause hadvanced =>
        rw [← (Cycle.failed.inj h).2]
        exact .inl ⟨clock, not_not.1 hknown, hadvanced⟩
      · split at h
        · exact .inr (.inl ⟨_, (Cycle.failed.inj h).2.symm⟩)
        · split at h
          · exact .inr (.inr ⟨_, (Cycle.failed.inj h).2.symm⟩)
          · cases h

/-- The states of a history fit a form, and those after the seed have nothing else. -/
structure HistoryFits (form : Form) (s : Simulation) : Prop where
  /-- Every state fits. -/
  fits : ∀ r ∈ s.store.records, ∀ name v, r.value.get? name = some v → v.Fits form
  /-- After the seed, every state has the form. -/
  exact : ∀ r ∈ s.store.records.tail, ∀ name v, r.value.get? name = some v → v.Exact form

section Typed

variable {form : Form} {rank : String → Nat} {graph : RuleGraph} {engine : String} {initial : States}
variable {settings : Settings} {s after : Simulation} {agent : String} {commit : Commit}

/-- A simulation over an accepted graph, whose engine has typed rules for a form with a time. -/
structure OverTyped (form : Form) (rank : String → Nat) (s : Simulation) : Prop where
  /-- The graph is accepted. -/
  accepted : RuleGraph.ofRules s.graph.engines = .ok s.graph
  /-- The agents that take turns have typed rules. -/
  typed : ∃ rules, s.graph.agents s.engine = .ok rules ∧ rules.keys = s.agents ∧ rules.Typed form rank
  /-- The form has a time. -/
  timed : form.get? Value.timeField = some .number

/-- A snapshot that holds every agent fits. -/
theorem HistoryFits.snapshot (h : HistoryFits form s) {clock : Float}
    (hknown : (s.snapshot clock).keys = s.agents) :
    ∀ name ∈ s.agents, ∃ v, (s.snapshot clock).get? name = some v ∧ v.Fits form := by
  intro name hname
  rw [← hknown] at hname
  obtain ⟨v, hv⟩ := Table.mem_keys_iff.1 hname
  obtain ⟨r, hr, hvalue⟩ := Store.exists_mem_of_get?_merge hv
  exact ⟨v, hv, h.fits r hr name v hvalue⟩

/-- **What an agent is given has the form**, or the result of a producer is not finite. -/
theorem OverTyped.advanced (ht : OverTyped form rank s) (hagent : agent ∈ s.agents) {snapshot : States}
    (hfits : ∀ name ∈ s.agents, ∃ v, snapshot.get? name = some v ∧ v.Fits form) :
    (∃ state time, s.advanced agent snapshot = .ok (state, time) ∧ state.Exact form) ∨
    ∃ place function what,
      s.advanced agent snapshot = .error (.step (.producer place function (.nonFinite what))) := by
  obtain ⟨rules, hrules, hkeys, htyped⟩ := ht.typed
  rw [← hkeys] at hagent hfits
  rcases RuleGraph.step_typed ht.accepted hrules htyped hfits with
    ⟨next, hnext, hexact⟩ | ⟨place, function, what, herror⟩
  · obtain ⟨v, hv, hform⟩ := hexact agent hagent
    obtain ⟨w, hw, hnumber⟩ := hform.fits.exists_field? ht.timed
    obtain ⟨time, htime⟩ := Option.isSome_iff_exists.1 hnumber
    have htime? : v.time? = some time := Option.bind_eq_some_iff.2 ⟨w, hw, htime⟩
    exact .inl ⟨v, time, advanced_eq_ok_iff.2 ⟨next, hnext, hv, htime?⟩, hform⟩
  · refine .inr ⟨place, function, what, ?_⟩
    unfold Simulation.advanced
    rw [herror]

/-- A commit carries a state of the form. -/
theorem Committed.exact (hc : Committed s agent after commit) (ht : OverTyped form rank s)
    (hagent : agent ∈ s.agents) (h : HistoryFits form s) : commit.state.Exact form := by
  rcases ht.advanced hagent (h.snapshot hc.complete) with
    ⟨state, time, hok, hexact⟩ | ⟨place, function, what, herror⟩
  · rw [hc.advanced, Except.ok.injEq, Prod.mk.injEq] at hok
    rwa [hok.1]
  · rw [hc.advanced] at herror
    cases herror

/-- **One cycle keeps the history in the form.** -/
theorem HistoryFits.committed (h : HistoryFits form s) (ht : OverTyped form rank s)
    (htimeline : Timeline graph engine initial settings s) (hc : Committed s agent after commit) :
    HistoryFits form after := by
  have hexact := hc.exact ht (hc.mem_agents htimeline) h
  obtain ⟨r, -, -, hvalue, hmoves⟩ := hc.moves
  obtain ⟨seed, hseed, -⟩ := htimeline.seed
  have hne : s.store.records ≠ [] := fun hnil => by simp [hnil] at hseed
  have hnew : ∀ name v, r.value.get? name = some v → v.Exact form := by
    intro name v hv
    rw [hvalue, Table.get?_single] at hv
    split at hv
    · rwa [← Option.some.inj hv]
    · cases hv
  refine ⟨?_, ?_⟩
  · rw [hmoves.records]
    refine List.forall_mem_append.2 ⟨h.fits, List.forall_mem_singleton.2 fun name v hv => ?_⟩
    exact (hnew name v hv).fits
  · rw [hmoves.records, List.tail_append_of_ne_nil hne]
    exact List.forall_mem_append.2 ⟨h.exact, List.forall_mem_singleton.2 hnew⟩

/-- **Whenever a simulation over typed rules can be looked at, its history has the form.** -/
theorem Reachable.historyFits (h : Reachable graph engine initial settings s)
    (hstart : ∀ s, create graph engine initial settings = .ok s → OverTyped form rank s)
    (hinitial : ∀ name v, initial.get? name = some v → v.Fits form) :
    OverTyped form rank s ∧ HistoryFits form s := by
  refine h.preserves (P := fun s => OverTyped form rank s ∧ HistoryFits form s) (fun s hs => ?_)
    fun s iteration agent htimeline hs => ?_
  · refine ⟨hstart s hs, ?_⟩
    obtain ⟨seed, hseeded⟩ := seeded_of_create hs
    refine ⟨?_, ?_⟩
    · rw [hseeded.records, List.forall_mem_singleton, hseeded.value]
      exact hinitial
    · rw [hseeded.records]
      simp
  · obtain ⟨ht, hfits⟩ := hs
    rcases htimeline.left_eq_or_committed iteration agent with heq | ⟨commit, hc⟩
    · rw [heq]
      exact ⟨ht, hfits⟩
    · refine ⟨?_, hfits.committed ht htimeline hc⟩
      obtain ⟨r, -, -, -, hmoves⟩ := hc.moves
      rw [hmoves.after]
      exact ⟨ht.accepted, ht.typed, ht.timed⟩

/-- What can stop a run over typed rules. -/
inductive TypedFailure : SimulationError → Prop
  /-- The result of a producer is not finite. -/
  | nonFinite (place : RulePlace) (function what : String) :
      TypedFailure (.step (.producer place function (.nonFinite what)))
  /-- A time does not lie ahead of the clock. -/
  | regression (agent : String) (current proposed : Float) :
      TypedFailure (.clock (.regression agent current proposed))

/-- **A cycle over typed rules fails in one of two ways.** -/
theorem OverTyped.failure (ht : OverTyped form rank s) (h : HistoryFits form s)
    (htimeline : Timeline graph engine initial settings s) (hagent : agent ∈ s.agents) {iteration : Nat}
    {e : SimulationError} (hfailed : s.cycle iteration agent = .failed after e) : TypedFailure e := by
  obtain ⟨rules, hrules, hkeys, -⟩ := ht.typed
  have hforeseen := htimeline.foreseen ht.accepted hrules hkeys hagent hfailed
  rcases failed_cases hfailed with ⟨clock, hknown, hadvanced⟩ | ⟨cause, rfl⟩ | ⟨cause, rfl⟩
  · rcases ht.advanced hagent (h.snapshot hknown) with
      ⟨state, time, hok, -⟩ | ⟨place, function, what, herror⟩
    · rw [hadvanced] at hok
      cases hok
    · rw [hadvanced] at herror
      rw [Except.error.inj herror]
      exact .nonFinite place function what
  · cases hforeseen with
    | regressed => exact .regression ..
  · cases hforeseen

/-- **Runs over typed rules**: every commit carries a state of the form, and a run that stops does so in
one of two ways. -/
theorem Reachable.run_typed (h : Reachable graph engine initial settings s)
    (hstart : ∀ s, create graph engine initial settings = .ok s → OverTyped form rank s)
    (hinitial : ∀ name v, initial.get? name = some v → v.Fits form) (n : Nat) :
    (∀ commit ∈ (s.run n).commits, commit.state.Exact form) ∧
    ∀ e, (s.run n).outcome = .error e → TypedFailure e := by
  refine ⟨fun commit hcommit => ?_, fun e he => ?_⟩
  · obtain ⟨before, hmade⟩ := h.exists_madeAt hcommit
    obtain ⟨ht, hfits⟩ := hmade.reachable.historyFits hstart hinitial
    obtain ⟨after, hc⟩ := hmade.committed
    exact hc.exact ht (hc.mem_agents hmade.reachable.timeline) hfits
  · obtain ⟨before, iteration, agent, after, hreach, hagent, hfailed⟩ :=
      h.exists_failedAt (Run.outcome_eq_error_iff.1 he)
    obtain ⟨ht, hfits⟩ := hreach.historyFits hstart hinitial
    exact ht.failure hfits hreach.timeline hagent hfailed

end Typed

end Simulation

end Orrery
