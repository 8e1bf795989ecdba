import Orrery.Proofs.Isolation

/-!
# What a step reads of the snapshot

`Isolation` is about the states under construction.  This file is about the other thing that a rule
sees, the snapshot: a rule reads it at its own agent and at the agents that its consumed query names,
and nowhere else.  These agents are the *footprint* of the rule.

For one query this is a statement about two settings at once (`Scope.lookup?_footprint`).  Whether the
settings also have to agree about what is under construction depends on where the subject is read: below
a `prev` it is read in the snapshot, whatever stands between the two.  `Query.ReadsCurrent` says that some
reading of the subject has no `prev` above it, and only then does the state under construction matter
(`Scope.sees_footprint_only`).

So the rules of an agent make the same calls against any two snapshots that agree about their
footprints (`Settles.footprint`).  A step may fail against one of them and not against the other,
because of what the rules of other agents read; but if it comes to an end both times, the agent has the
same state both times (`RuleGraph.get?_step_footprint`).

A single rule that reads nothing under construction needs no more than its own footprint: what it writes
is the same both times, whatever the other rules of its agent read (`RuleGraph.at?_step_footprint`).
-/

namespace Orrery

/-- A query reads the state under construction: some `base` or `root` in it has no `prev` above. -/
inductive Query.ReadsCurrent : Query → Prop
  /-- A field of the subject. -/
  | base {field : String} : ReadsCurrent (.base field)
  /-- The subject itself. -/
  | root : ReadsCurrent .root
  /-- In the container of a field. -/
  | access {container : Query} {field : String} (h : ReadsCurrent container) :
      ReadsCurrent (.access container field)
  /-- In one of several queries. -/
  | tuple {items : List Query} {q : Query} (mem : q ∈ items) (h : ReadsCurrent q) :
      ReadsCurrent (.tuple items)

/-- Two snapshots say the same about some agents of an engine. -/
def Universe.Agree (engine : String) (names : List String) (snapshot other : Universe) : Prop :=
  ∀ name ∈ names,
    ((snapshot.get? engine).bind (·.get? name)) = (other.get? engine).bind (·.get? name)

instance (engine : String) (names : List String) (snapshot other : Universe) :
    Decidable (Universe.Agree engine names snapshot other) :=
  inferInstanceAs (Decidable (∀ name ∈ names,
    ((snapshot.get? engine).bind (·.get? name)) = (other.get? engine).bind (·.get? name)))

namespace Scope

variable {s t : Scope} {states states' : States}

/-- The subject is the same in two settings, if it is so wherever the query reads it. -/
theorem subject?_footprint {previous : Bool} (hown : s.committed? s.agent = t.committed? t.agent)
    (hstates : previous = false → states.get? s.agent = states'.get? t.agent) :
    s.subject? states previous = t.subject? states' previous := by
  cases previous with
  | true => exact hown
  | false => exact hstates rfl

mutual

/-- **A query reads the snapshot at its subject and at the agents it names**, and the state under
construction where no `prev` stands above. -/
theorem lookup?_footprint (hown : s.committed? s.agent = t.committed? t.agent) :
    ∀ (previous : Bool) (q : Query), (∀ name ∈ q.agents, s.committed? name = t.committed? name) →
      (previous = false → q.ReadsCurrent → states.get? s.agent = states'.get? t.agent) →
      s.lookup? states previous q = t.lookup? states' previous q
  | previous, .base field, _, hstates => by
    have hsubject := subject?_footprint hown fun hprevious => hstates hprevious .base
    rw [lookup?, lookup?, hsubject]
  | _, .prev inner, h, _ => by
    rw [lookup?, lookup?]
    -- from here on the state under construction is out of sight
    exact lookup?_footprint hown true inner (by simpa only [Query.agents] using h) nofun
  | previous, .root, _, hstates => by
    have hsubject := subject?_footprint hown fun hprevious => hstates hprevious .root
    rw [lookup?, lookup?, hsubject]
  | _, .agent name, h, _ => by
    rw [lookup?, lookup?]
    exact h name (by simp [Query.agents])
  | previous, .access container field, h, hstates => by
    have hcontainer := lookup?_footprint hown previous container (by simpa only [Query.agents] using h)
      fun hprevious hreads => hstates hprevious (.access hreads)
    rw [lookup?, lookup?, hcontainer]
  | previous, .tuple items, h, hstates => by
    have hitems := lookupItems?_footprint hown previous items (by simpa only [Query.agents] using h)
      fun hprevious _ hq hreads => hstates hprevious (.tuple hq hreads)
    rw [lookup?, lookup?, hitems]

theorem lookupItems?_footprint (hown : s.committed? s.agent = t.committed? t.agent) :
    ∀ (previous : Bool) (items : List Query),
      (∀ name ∈ Query.itemAgents items, s.committed? name = t.committed? name) →
      (previous = false → ∀ q ∈ items, q.ReadsCurrent →
        states.get? s.agent = states'.get? t.agent) →
      s.lookupItems? states previous items = t.lookupItems? states' previous items
  | _, [], _, _ => by rw [lookupItems?, lookupItems?]
  | previous, q :: rest, h, hstates => by
    have hfirst := lookup?_footprint hown previous q
      (fun name hname => h name (by simp [Query.itemAgents, hname]))
      fun hprevious => hstates hprevious q (List.mem_cons_self ..)
    have hrest := lookupItems?_footprint hown previous rest
      (fun name hname => h name (by simp [Query.itemAgents, hname]))
      fun hprevious other hother => hstates hprevious other (List.mem_cons_of_mem _ hother)
    rw [lookupItems?, lookupItems?, hfirst, hrest]

end

/-- A query without read paths does not depend on what is under construction. -/
theorem lookup?_of_readPaths_eq_nil (s : Scope) {q : Query} (h : q.readPaths = [])
    (states other : States) : s.lookup? states false q = s.lookup? other false q := by
  refine Option.ext fun v => ⟨?_, ?_⟩
  · exact s.lookup?_mono q (by simp [h]) v
  · exact s.lookup?_mono q (by simp [h]) v

end Scope

/-- The agents at which a rule reads the snapshot: its own, and those it names. -/
def Pending.footprint (p : Pending) : List String := p.agent :: p.rule.consumed.agents

namespace Step

variable {engine : String} {snapshot other : Universe} {states after : States}

theorem call?_footprint {p : Pending} (h : Universe.Agree engine p.footprint snapshot other) :
    call? engine snapshot states p = call? engine other states p := by
  have hown : (scopeOf engine snapshot p).committed? p.agent =
      (scopeOf engine other p).committed? p.agent := h p.agent (List.mem_cons_self ..)
  have hfound : (scopeOf engine snapshot p).lookup? states false p.rule.consumed =
      (scopeOf engine other p).lookup? states false p.rule.consumed :=
    Scope.lookup?_footprint hown false p.rule.consumed
      (fun name hname => h name (List.mem_cons_of_mem _ hname)) fun _ _ => rfl
  rw [call?, call?, Scope.resolve?, Scope.resolve?, hfound]

theorem Fires.footprint {c : Call} (h : Fires engine snapshot states c after)
    (hagree : Universe.Agree engine c.pending.footprint snapshot other) :
    Fires engine other states c after := by
  refine ⟨?_, h.wrote⟩
  rw [← call?_footprint hagree]
  exact h.called

theorem Passes.footprint {pending deferred : List Pending} {calls : List Call}
    (h : Passes engine snapshot states pending calls after deferred)
    (hagree : ∀ p ∈ pending, Universe.Agree engine p.footprint snapshot other) :
    Passes engine other states pending calls after deferred := by
  induction h with
  | nil => exact .nil
  | defer idle _ ih =>
    obtain ⟨hfirst, hrest⟩ := List.forall_mem_cons.1 hagree
    rw [call?_footprint hfirst] at idle
    exact .defer idle (ih hrest)
  | fire fires _ ih =>
    obtain ⟨hfirst, hrest⟩ := List.forall_mem_cons.1 hagree
    exact .fire (fires.footprint hfirst) (ih hrest)

/-- **Rules run alike against snapshots that agree about their footprints.** -/
theorem Settles.footprint {pending left : List Pending} {calls : List Call}
    (h : Settles engine snapshot states pending calls after left)
    (hagree : ∀ p ∈ pending, Universe.Agree engine p.footprint snapshot other) :
    Settles engine other states pending calls after left := by
  induction h with
  | idle pass => exact .idle (pass.footprint hagree)
  | again pass busy _ ih =>
    exact .again (pass.footprint hagree) busy (ih fun p hp => hagree p (pass.sublist.subset hp))

/-- Every call was made by its rule against states at some moment. -/
theorem Execution.exists_called {start : States} {calls : List Call}
    (h : Execution engine snapshot start calls states) :
    ∀ c ∈ calls, ∃ mid, call? engine snapshot mid c.pending = some c := by
  induction h with
  | nil => simp
  | concat _ fires ih =>
    intro c hc
    rcases List.mem_append.1 hc with hc | hc
    · exact ih c hc
    · rw [List.mem_singleton.1 hc]
      exact ⟨_, fires.called⟩

/-- **A rule that reads nothing under construction makes one call**, whenever it is called and against
whichever snapshot that agrees about its footprint. -/
theorem call_unique {p : Pending} (hreads : p.rule.consumed.readPaths = [])
    (hagree : Universe.Agree engine p.footprint snapshot other) {c d : Call}
    (hc : call? engine snapshot states p = some c) (hd : call? engine other after p = some d) :
    c = d := by
  rw [call?_footprint hagree] at hc
  rw [call?, Scope.resolve?] at hc hd
  rw [Scope.lookup?_of_readPaths_eq_nil _ hreads states after] at hc
  exact Option.some_inj.1 (hc.symm.trans hd)

/-- A run that leaves nothing comes to one end. -/
theorem Settles.unique {pending : List Pending} {calls calls' : List Call} {after' : States}
    (h : Settles engine snapshot states pending calls after [])
    (h' : Settles engine snapshot states pending calls' after' []) : after = after' := by
  obtain ⟨passes, hpasses⟩ := resolve_of_settles_nil h
  obtain ⟨passes', hpasses'⟩ := resolve_of_settles_nil h'
  rw [hpasses, Except.ok.injEq, Prod.mk.injEq] at hpasses'
  exact hpasses'.1

end Step

namespace RuleGraph

variable {g : RuleGraph} {engine : String} {rules : AgentRules} {snapshot other : Universe}
variable {states states' : States}

/-- A step that comes to an end has called all rules. -/
theorem exists_settles (hr : g.agents engine = .ok rules) (h : g.step engine snapshot = .ok states) :
    ∃ calls, Step.Settles engine snapshot Table.empty (Step.pendingOf rules) calls states [] := by
  rw [step_eq hr] at h
  rcases Step.resolve_cases engine snapshot Table.empty (Step.pendingOf rules) with
    ⟨calls, after, passes, hsettles, hok⟩ | ⟨calls, after, left, -, -, hdead⟩ |
    ⟨calls, c, e, -, herror⟩
  · rw [hok] at h
    obtain rfl : after = states := by simpa [Except.map] using h
    exact ⟨calls, hsettles⟩
  · rw [hdead] at h
    exact absurd h (by simp [Except.map])
  · rw [herror] at h
    exact absurd h (by simp [Except.map])

/-- **The next state of an agent depends on the footprints of its rules.** -/
theorem get?_step_footprint {agent : String} {own : List Rule} (hr : g.agents engine = .ok rules)
    (hown : rules.get? agent = some own)
    (hagree : ∀ r ∈ own, Universe.Agree engine (agent :: r.consumed.agents) snapshot other)
    (h : g.step engine snapshot = .ok states) (h' : g.step engine other = .ok states') :
    states.get? agent = states'.get? agent := by
  have he := Table.mem_entries_iff.2 hown
  obtain ⟨calls, hsettles⟩ := exists_settles hr h
  obtain ⟨calls', hsettles'⟩ := exists_settles hr h'
  obtain ⟨alone, halone, hget, -⟩ := hsettles.alone_of_mem he
  obtain ⟨alone', halone', hget', -⟩ := hsettles'.alone_of_mem he
  have hpending : ∀ p ∈ Step.number agent 0 own,
      Universe.Agree engine p.footprint snapshot other := by
    intro p hp
    have hrule : p.rule ∈ own := by
      rw [← Step.map_rule_number agent 0 own]
      exact List.mem_map_of_mem hp
    rw [Pending.footprint, Step.agent_of_mem_number hp]
    exact hagree p.rule hrule
  rw [← hget, ← hget', (halone.footprint hpending).unique halone']

/-- A finished step has called each rule, and what the rule has answered stands at its target. -/
theorem exists_call_of_step {engines : Table AgentRules} (hg : ofRules engines = .ok g)
    (hr : g.agents engine = .ok rules) (h : g.step engine snapshot = .ok states) {p : Pending}
    (hp : p ∈ Step.pendingOf rules) {path : List String} (hpath : p.rule.path? = some path) :
    ∃ mid c output, Step.call? engine snapshot mid p = some c ∧ c.result = .ok output ∧
      ((states.get? p.agent).bind fun v => v.at? path) = some output := by
  obtain ⟨calls, hsettles⟩ := exists_settles hr h
  have honce := hsettles.writtenOnce (Step.pairwise_beside_pendingOf (sound_of_ofRules hg hr))
  obtain ⟨c, hc, rfl⟩ := List.mem_map.1 (honce.once.mem_iff.2 hp)
  obtain ⟨mid, hcalled⟩ := hsettles.execution_nil.exists_called c hc
  obtain ⟨output, hresult, hholds⟩ := honce.holds c hc
  exact ⟨mid, c, output, hcalled, hresult, hholds path hpath⟩

/-- **What a rule writes depends on its own footprint**, if it reads nothing under construction. -/
theorem at?_step_footprint {engines : Table AgentRules} (hg : ofRules engines = .ok g)
    {agent : String} {own : List Rule} (hr : g.agents engine = .ok rules)
    (hown : rules.get? agent = some own) {r : Rule} (hrule : r ∈ own) {path : List String}
    (hpath : r.path? = some path) (hreads : r.consumed.readPaths = [])
    (hagree : Universe.Agree engine (agent :: r.consumed.agents) snapshot other)
    (h : g.step engine snapshot = .ok states) (h' : g.step engine other = .ok states') :
    ((states.get? agent).bind fun v => v.at? path) =
      (states'.get? agent).bind fun v => v.at? path := by
  obtain ⟨p, hp, rfl, rfl⟩ := Step.exists_mem_pendingOf_iff.2 ⟨own, hown, hrule⟩
  obtain ⟨mid, c, output, hcalled, hresult, hwritten⟩ := exists_call_of_step hg hr h hp hpath
  obtain ⟨mid', c', output', hcalled', hresult', hwritten'⟩ := exists_call_of_step hg hr h' hp hpath
  obtain rfl := Step.call_unique hreads hagree hcalled hcalled'
  rw [hresult, Except.ok.injEq] at hresult'
  rw [hwritten, hwritten', hresult']

end RuleGraph

/-! ## What a query cannot see -/

/-- **A query sees its footprint and nothing else.**  Take two snapshots that say the same about the
subject and about every agent that the query names, whatever they say about other agents and other
engines.  If the subject's states under construction are the same, so is what the query finds; and if
every `base` and `root` of the query stands below a `prev`, nothing under construction matters. -/
theorem Scope.sees_footprint_only (engine agent : String) (q : Query) {snapshot other : Universe}
    (h : Universe.Agree engine (agent :: q.agents) snapshot other) (states states' : States) :
    (states.get? agent = states'.get? agent →
      (⟨engine, agent, snapshot⟩ : Scope).resolve? states q =
        (⟨engine, agent, other⟩ : Scope).resolve? states' q) ∧
    (¬ q.ReadsCurrent →
      (⟨engine, agent, snapshot⟩ : Scope).resolve? states q =
        (⟨engine, agent, other⟩ : Scope).resolve? states' q) := by
  let s : Scope := ⟨engine, agent, snapshot⟩
  let t : Scope := ⟨engine, agent, other⟩
  have hown : s.committed? agent = t.committed? agent := h agent (List.mem_cons_self ..)
  have hnamed : ∀ name ∈ q.agents, s.committed? name = t.committed? name :=
    fun name hname => h name (List.mem_cons_of_mem _ hname)
  constructor
  · intro hstates
    exact lookup?_footprint hown false q hnamed fun _ _ => hstates
  · intro hreads
    exact lookup?_footprint hown false q hnamed fun _ hcurrent => absurd hcurrent hreads

/-! ## A ship that watches a beacon

The gull is nobody's business, and neither is what the beacon is about to show. -/

namespace Harbour

/-- What the ship goes by: where it was, what the beacon has shown, and how it is heading by now. -/
def bearings : Query :=
  .tuple [.prev (.base "place"), .access (.agent "beacon") "light", .base "course"]

/-- The same without the heading. -/
def soundings : Query := .tuple [.prev (.access .root "place"), .agent "beacon"]

/-- A state with one field. -/
def showing (field text : String) : Value := .mapping [(field, .text text)]

/-- The sea by night, with a gull somewhere. -/
def night (gull : String) : States :=
  .ofList [("beacon", showing "light" "red"), ("gull", showing "place" gull),
    ("ship", showing "place" "bay")]

/-- The sea alone. -/
def calm : Universe := .single "sea" (night "pier")

/-- The sea with the gull elsewhere, under a sky. -/
def clear : Universe :=
  .ofList [("sea", night "mast"), ("sky", .single "beacon" (showing "light" "white"))]

/-- The ship has set its course. -/
def underWay : States := .single "ship" (showing "course" "north")

/-- The beacon has changed its light as well. -/
def changing : States :=
  .ofList [("beacon", showing "light" "green"), ("ship", showing "course" "north")]

end Harbour

/-- The ship finds the same whatever else is going on; and if it does not ask for its heading, even before
anything has been written. -/
theorem Scope.harbour_sees :
    Universe.Agree "sea" ("ship" :: Harbour.bearings.agents) Harbour.calm Harbour.clear ∧
    (⟨"sea", "ship", Harbour.calm⟩ : Scope).resolve? Harbour.underWay Harbour.bearings =
      some (.list [.text "bay", .text "red", .text "north"]) ∧
    (⟨"sea", "ship", Harbour.clear⟩ : Scope).resolve? Harbour.changing Harbour.bearings =
      some (.list [.text "bay", .text "red", .text "north"]) ∧
    ¬ Harbour.soundings.ReadsCurrent ∧
    (⟨"sea", "ship", Harbour.calm⟩ : Scope).resolve? Table.empty Harbour.soundings =
      (⟨"sea", "ship", Harbour.clear⟩ : Scope).resolve? Harbour.changing Harbour.soundings := by
  have hagree : Universe.Agree "sea" ("ship" :: Harbour.bearings.agents) Harbour.calm Harbour.clear := by
    decide
  have hsettled : ¬ Harbour.soundings.ReadsCurrent := by
    rintro (_ | _ | _ | ⟨hmem, hreads⟩)
    rcases List.mem_pair.1 hmem with rfl | rfl <;> cases hreads
  have hfound : (⟨"sea", "ship", Harbour.calm⟩ : Scope).resolve? Harbour.underWay Harbour.bearings =
      some (.list [.text "bay", .text "red", .text "north"]) := by decide
  have hsame := (sees_footprint_only "sea" "ship" Harbour.bearings hagree Harbour.underWay
    Harbour.changing).1 (by decide)
  have hpast := (sees_footprint_only "sea" "ship" Harbour.soundings hagree Table.empty
    Harbour.changing).2 hsettled
  exact ⟨hagree, hfound, hsame.symm.trans hfound, hsettled, hpast⟩

end Orrery
