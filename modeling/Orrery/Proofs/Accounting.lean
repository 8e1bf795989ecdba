import Orrery.Proofs.Footprint

/-!
# Every rule once

The loop of a step makes a new list of pending rules in every pass, and the states change while a pass
goes on.  This file keeps the books of it: which rules are called in which pass, how many passes there
are, and which rules are left when nothing moves any more.

* `log` runs like the loop and writes down its calls, pass by pass.
* `length_log_le`: every pass but the last takes a rule off the list, and the last one has a rule to look
  at, so there are never more passes than rules.
* `places`: where the rules of an engine stand, agent by agent and in the order of declaration.  No place
  is listed twice (`nodup_places`), which is why a rearrangement of the rules is an account of each of them.
* `RuleGraph.step_accounts`: the whole account, however the step ends.
-/

namespace Orrery

/-! ## Where rules stand -/

namespace AgentRules

/-- Where the rules of an engine stand: their agent and their position, in this order. -/
def places (rules : AgentRules) : List (String × Nat) :=
  rules.entries.flatMap fun e => (List.range e.2.length).map (e.1, ·)

/-- The rule at a place. -/
def ruleAt? (rules : AgentRules) (place : String × Nat) : Option Rule :=
  (rules.get? place.1).bind (·[place.2]?)

end AgentRules

/-- Of two places, the one that comes first: by agent, then by position. -/
def Before (a b : String × Nat) : Prop := a.1 < b.1 ∨ a.1 = b.1 ∧ a.2 < b.2

/-- Where a pending rule stands. -/
def Pending.place (p : Pending) : String × Nat := (p.agent, p.index)

/-- Where a stuck rule stands. -/
def StuckRule.place (s : StuckRule) : String × Nat := (s.agent, s.index)

theorem Before.ne {a b : String × Nat} (h : Before a b) : a ≠ b := by
  rintro rfl
  rcases h with h | ⟨-, h⟩
  · exact String.lt_irrefl _ h
  · exact Nat.lt_irrefl _ h

theorem AgentRules.pairwise_before_places (rules : AgentRules) : rules.places.Pairwise Before := by
  refine List.pairwise_flatMap.2 ⟨fun e _ => ?_, rules.sorted.imp fun {e f} hlt a ha b hb => ?_⟩
  · exact List.pairwise_map.2 (List.pairwise_lt_range.imp fun hlt => .inr ⟨rfl, hlt⟩)
  · obtain ⟨-, -, rfl⟩ := List.mem_map.1 ha
    obtain ⟨-, -, rfl⟩ := List.mem_map.1 hb
    exact .inl hlt

/-- No place is listed twice. -/
theorem AgentRules.nodup_places (rules : AgentRules) : rules.places.Nodup :=
  rules.pairwise_before_places.imp Before.ne

namespace Step

theorem map_place_number (agent : String) (index : Nat) (own : List Rule) :
    (number agent index own).map Pending.place =
      (List.range' index own.length).map (agent, ·) := by
  induction own generalizing index with
  | nil => rfl
  | cons r rest ih =>
    rw [number, List.map_cons, ih, List.length_cons, List.range'_succ, List.map_cons]
    rfl

/-- The pending rules of an engine stand at its places. -/
theorem map_place_pendingOf (rules : AgentRules) :
    (pendingOf rules).map Pending.place = rules.places := by
  rw [pendingOf, AgentRules.places, List.map_flatMap]
  simp only [map_place_number, List.range_eq_range']

theorem getElem?_of_mem_number {agent : String} {index : Nat} {own : List Rule} {p : Pending}
    (h : p ∈ number agent index own) : ∃ i, p.index = index + i ∧ own[i]? = some p.rule := by
  induction own generalizing index with
  | nil => simp [number] at h
  | cons r rest ih =>
    rcases List.mem_cons.1 h with rfl | h
    · exact ⟨0, rfl, rfl⟩
    · obtain ⟨i, hi, hrule⟩ := ih h
      exact ⟨i + 1, by omega, by rwa [List.getElem?_cons_succ]⟩

/-- A pending rule is the rule at its place. -/
theorem ruleAt?_place {rules : AgentRules} {p : Pending} (h : p ∈ pendingOf rules) :
    rules.ruleAt? p.place = some p.rule := by
  obtain ⟨e, he, hp⟩ := List.mem_flatMap.1 h
  obtain ⟨i, hi, hrule⟩ := getElem?_of_mem_number hp
  have hown : rules.get? p.agent = some e.2 := by
    rw [agent_of_mem_number hp]
    exact Table.mem_entries_iff.1 he
  rw [AgentRules.ruleAt?, Pending.place, hown, Option.bind_some, hi, Nat.zero_add]
  exact hrule

/-! ## The calls of a step, pass by pass -/

/-- The calls that a pass makes, up to one that fails. -/
def passCalls (engine : String) (snapshot : Universe) : States → List Pending → List Call
  | _, [] => []
  | states, p :: rest =>
    match fire engine snapshot states p with
    | .error _ => (call? engine snapshot states p).toList
    | .ok none => passCalls engine snapshot states rest
    | .ok (some after) =>
      (call? engine snapshot states p).toList ++ passCalls engine snapshot after rest

/-- The calls of every pass. -/
def log (engine : String) (snapshot : Universe) (states : States) (pending : List Pending) :
    List (List Call) :=
  if pending.isEmpty then []
  else
    passCalls engine snapshot states pending ::
      match pass engine snapshot states pending with
      | .error _ => []
      | .ok (after, deferred) =>
        if deferred.length < pending.length then log engine snapshot after deferred else []
termination_by pending.length

variable {engine : String} {snapshot : Universe} {states after : States}
variable {pending deferred left : List Pending} {calls : List Call}

theorem passCalls_of_passes (h : Passes engine snapshot states pending calls after deferred) :
    passCalls engine snapshot states pending = calls := by
  induction h with
  | nil => rfl
  | defer idle _ ih => rw [passCalls, fire_of_call?_eq_none idle, ih]
  | fire fires _ ih =>
    rw [passCalls, fire_of_fires fires]
    dsimp only
    rw [fires.called, ih]
    rfl

theorem passCalls_of_passBreaks {c : Call} {e : StepError}
    (h : PassBreaks engine snapshot states pending calls c e) :
    passCalls engine snapshot states pending = calls ++ [c] := by
  induction h with
  | refuse refuses =>
    rw [passCalls, fire_of_refuses refuses]
    dsimp only
    rw [refuses.called]
    rfl
  | defer idle _ ih => rw [passCalls, fire_of_call?_eq_none idle, ih]
  | fire fires _ ih =>
    rw [passCalls, fire_of_fires fires]
    dsimp only
    rw [fires.called, ih]
    rfl

/-- **There are never more passes than rules.** -/
theorem length_log_le (engine : String) (snapshot : Universe) (states : States)
    (pending : List Pending) : (log engine snapshot states pending).length ≤ pending.length := by
  induction hn : pending.length using Nat.strong_induction_on generalizing states pending with
  | _ n ih =>
    subst hn
    rw [log]
    cases hempty : pending.isEmpty with
    | true => simp
    | false =>
      have hpos : 0 < pending.length := List.length_pos_iff.2 (List.isEmpty_eq_false_iff.1 hempty)
      rw [if_neg Bool.false_ne_true, List.length_cons]
      split
      · exact hpos
      · next after deferred _ =>
        split
        · next hlt =>
          have hmore := ih deferred.length hlt after deferred rfl
          omega
        · exact hpos

/-- After a pass that calls something, the account goes on with what was deferred. -/
theorem log_of_busy_pass {mid : States}
    (h : Passes engine snapshot states pending calls mid deferred) (busy : calls ≠ []) :
    log engine snapshot states pending = calls :: log engine snapshot mid deferred := by
  have hlen := h.length_eq
  have hpos := List.length_pos_iff.2 busy
  have hne : pending.isEmpty = false := List.isEmpty_eq_false_iff.2 fun hnil => by
    rw [hnil, List.length_nil] at hlen
    omega
  rw [log, hne, if_neg Bool.false_ne_true, passCalls_of_passes h, pass_of_passes h]
  dsimp only
  rw [if_pos (by omega)]

/-- The account of a step that settles lists its calls. -/
theorem flatten_log_of_settles (h : Settles engine snapshot states pending calls after left) :
    (log engine snapshot states pending).flatten = calls := by
  induction h with
  | @idle states pending pass =>
    rw [log]
    split
    · rfl
    · rw [passCalls_of_passes pass, pass_of_passes pass]
      simp
  | again pass busy _ ih => rw [log_of_busy_pass pass busy, List.flatten_cons, ih]

/-- The account of a step that breaks off lists its calls and the one that fails. -/
theorem flatten_log_of_breaks {c : Call} {e : StepError}
    (h : Breaks engine snapshot states pending calls c e) :
    (log engine snapshot states pending).flatten = calls ++ [c] := by
  induction h with
  | @now states pending calls c e pass =>
    have hne : pending.isEmpty = false := by cases pass <;> rfl
    rw [log, hne, if_neg Bool.false_ne_true, passCalls_of_passBreaks pass, pass_of_passBreaks pass]
    simp
  | again pass busy _ ih =>
    rw [log_of_busy_pass pass busy, List.flatten_cons, ih, List.append_assoc]

theorem resolve_of_settles_nil_log (h : Settles engine snapshot states pending calls after []) :
    resolve engine snapshot states pending =
      .ok (after, (log engine snapshot states pending).length) := by
  generalize hleft : ([] : List Pending) = left at h
  induction h with
  | idle =>
    subst hleft
    rw [resolve_nil, log]
    rfl
  | again pass busy _ ih =>
    rw [resolve_of_busy_pass pass busy, ih hleft, log_of_busy_pass pass busy]
    rfl

/-- **The passes that the loop counts are those of the account.** -/
theorem passes_eq_length_log {passes : Nat}
    (h : resolve engine snapshot states pending = .ok (after, passes)) :
    passes = (log engine snapshot states pending).length := by
  rcases resolve_cases engine snapshot states pending with
    ⟨calls, last, count, hsettles, -⟩ | ⟨calls, last, left, -, -, hdead⟩ | ⟨calls, c, e, -, herror⟩
  · rw [resolve_of_settles_nil_log hsettles, Except.ok.injEq, Prod.mk.injEq] at h
    exact h.2.symm
  · rw [hdead] at h
    cases h
  · rw [herror] at h
    cases h

/-- However a step ends, its account is of different rules. -/
theorem exists_perm_log (engine : String) (snapshot : Universe) (states : States)
    (pending : List Pending) :
    ∃ rest, pending.Perm ((log engine snapshot states pending).flatten.map (·.pending) ++ rest) := by
  rcases settles_or_breaks states pending with ⟨calls, after, left, h⟩ | ⟨calls, c, e, h⟩
  · rw [flatten_log_of_settles h]
    exact ⟨left, h.perm⟩
  · rw [flatten_log_of_breaks h]
    exact h.perm

/-! ## The account -/

/-- A report of a stuck rule names a rule of the engine: where it stands, which producer it has and what
it waits for. -/
structure Names (rules : AgentRules) (s : StuckRule) (r : Rule) : Prop where
  /-- The rule stands where the report says. -/
  rule : rules.ruleAt? s.place = some r
  /-- The name is that of its producer. -/
  function : s.function = r.function
  /-- The query is the one that it consumes. -/
  consumed : s.consumed = r.consumed
  /-- All of this is in the text of the report. -/
  text : s.text = s.agent ++ "[" ++ toString s.index ++ "] " ++ r.function ++ " <- " ++ r.consumed.render

/-- A step is stuck: the rules it has called and the rules it reports are all rules of the engine, and
what the latter consume is not found in the states that the former have made. -/
structure Deadlocked (engine : String) (snapshot : Universe) (rules : AgentRules) (calls : List Call)
    (stuck : List StuckRule) : Prop where
  /-- Every rule is called or reported, and none is both. -/
  partition : (calls.map (·.pending.place) ++ stuck.map StuckRule.place).Perm rules.places
  /-- Some rule is reported. -/
  nonempty : stuck ≠ []
  /-- Reports come agent by agent, and in the order of declaration. -/
  ordered : (stuck.map StuckRule.place).Pairwise Before
  /-- A report is about a rule whose consumed query is not found in the states reached. -/
  absent : ∃ states, Execution engine snapshot Table.empty calls states ∧
    ∀ s ∈ stuck, ∃ r, Names rules s r ∧
      (Scope.mk engine s.agent snapshot).resolve? states r.consumed = none

/-- What a step of an engine does with its rules, and what that has to do with how it ends. -/
structure Accounted (engine : String) (snapshot : Universe) (rules : AgentRules)
    (log : List (List Call)) (outcome : Except StepError States) : Prop where
  /-- There are at most as many passes as rules. -/
  passes : log.length ≤ rules.places.length
  /-- They are the passes that the loop counts. -/
  counted : ∀ states n, resolve engine snapshot Table.empty (pendingOf rules) = .ok (states, n) →
    n = log.length
  /-- Whoever is called is a rule of the engine. -/
  known : ∀ c ∈ log.flatten, rules.ruleAt? c.pending.place = some c.pending.rule
  /-- No rule is called twice. -/
  once : (log.flatten.map (·.pending.place)).Nodup
  /-- A step that comes to an end has called every rule, and its states are what the calls make. -/
  finished : ∀ states, outcome = .ok states →
    (log.flatten.map (·.pending.place)).Perm rules.places ∧
      Execution engine snapshot Table.empty log.flatten states
  /-- A step that is stuck has called the rules that it does not report. -/
  stuck : ∀ name reports, outcome = .error (.deadlock name reports) →
    name = engine ∧ Deadlocked engine snapshot rules log.flatten reports

variable {rules : AgentRules}

theorem Settles.finished (h : Settles engine snapshot Table.empty (pendingOf rules) calls after []) :
    (calls.map (·.pending.place)).Perm rules.places ∧
      Execution engine snapshot Table.empty calls after := by
  have hperm := h.perm_of_nil.map Pending.place
  rw [map_place_pendingOf, List.map_map] at hperm
  exact ⟨hperm.symm, h.execution_nil⟩

theorem Settles.deadlocked
    (h : Settles engine snapshot Table.empty (pendingOf rules) calls after left) (hleft : left ≠ []) :
    Deadlocked engine snapshot rules calls (left.map (·.stuck)) := by
  have hplaces : (left.map (·.stuck)).map StuckRule.place = left.map Pending.place :=
    List.map_map ..
  refine ⟨?_, by simpa using hleft, ?_, after, h.execution_nil, ?_⟩
  · have hperm := h.perm.map Pending.place
    rw [map_place_pendingOf, List.map_append, List.map_map] at hperm
    rw [hplaces]
    exact hperm.symm
  · rw [hplaces]
    refine rules.pairwise_before_places.sublist ?_
    rw [← map_place_pendingOf]
    exact h.sublist.map _
  · intro s hs
    obtain ⟨p, hp, rfl⟩ := List.mem_map.1 hs
    exact ⟨p.rule, ⟨ruleAt?_place (h.sublist.subset hp), rfl, rfl, rfl⟩,
      Option.map_eq_none_iff.1 (h.stuck p hp)⟩

end Step

/-- A step that is stuck has settled with rules left. -/
theorem RuleGraph.exists_settles_of_deadlock {g : RuleGraph} {engine name : String}
    {rules : AgentRules} {snapshot : Universe} {reports : List StuckRule}
    (hr : g.agents engine = .ok rules)
    (h : g.step engine snapshot = .error (.deadlock name reports)) :
    ∃ calls after left, Step.Settles engine snapshot Table.empty (Step.pendingOf rules) calls after left ∧
      left ≠ [] ∧ name = engine ∧ reports = left.map (·.stuck) := by
  rw [step_eq hr] at h
  rcases Step.resolve_cases engine snapshot Table.empty (Step.pendingOf rules) with
    ⟨calls, after, passes, -, hok⟩ | ⟨calls, after, left, hsettles, hleft, hdead⟩ |
    ⟨calls, c, e, hbreaks, herror⟩
  · rw [hok] at h
    cases h
  · rw [hdead] at h
    obtain ⟨rfl, rfl⟩ := StepError.deadlock.inj (Except.error.inj h)
    exact ⟨calls, after, left, hsettles, hleft, rfl, rfl⟩
  · -- a call that fails is refused by its producer, or its output finds no place
    obtain ⟨last, -, hrefuses⟩ := hbreaks.execution_nil
    rw [herror] at h
    obtain rfl := Except.error.inj h
    rcases hrefuses.failed with ⟨cause, -, heq⟩ | ⟨output, cause, -, -, heq⟩
    · cases heq
    · cases heq

open Step in
/-- **The account of a step.**  Whatever the producers answer, a step makes no more passes than the
engine has rules and calls no rule twice.  If it comes to an end, it has called each rule once.  If it is
stuck, it reports those rules that it has not called, in the order in which they are declared, and none
of them finds what it consumes in the states reached. -/
theorem RuleGraph.step_accounts {g : RuleGraph} {engine : String} {rules : AgentRules}
    (hr : g.agents engine = .ok rules) (snapshot : Universe) :
    Accounted engine snapshot rules (log engine snapshot Table.empty (pendingOf rules))
      (g.step engine snapshot) := by
  obtain ⟨rest, hperm⟩ := exists_perm_log engine snapshot Table.empty (pendingOf rules)
  have hplaces := hperm.map Pending.place
  rw [map_place_pendingOf, List.map_append, List.map_map] at hplaces
  have hpasses := length_log_le engine snapshot Table.empty (pendingOf rules)
  rw [← List.length_map Pending.place, map_place_pendingOf] at hpasses
  have hknown : ∀ c ∈ (log engine snapshot Table.empty (pendingOf rules)).flatten,
      rules.ruleAt? c.pending.place = some c.pending.rule := fun c hc =>
    ruleAt?_place (hperm.mem_iff.2 (List.mem_append_left _ (List.mem_map_of_mem hc)))
  have honce := (List.nodup_append.1 (hplaces.nodup_iff.1 rules.nodup_places)).1
  refine ⟨hpasses, fun _ _ => passes_eq_length_log, hknown, honce, ?_, ?_⟩
  · intro states h
    obtain ⟨calls, hsettles⟩ := exists_settles hr h
    rw [flatten_log_of_settles hsettles]
    exact hsettles.finished
  · intro name reports h
    obtain ⟨calls, after, left, hsettles, hleft, rfl, rfl⟩ := exists_settles_of_deadlock hr h
    rw [flatten_log_of_settles hsettles]
    exact ⟨rfl, hsettles.deadlocked hleft⟩

namespace Sky

/-- What was committed when nothing is known about the moon, not even where it is. -/
def bare : Universe :=
  Table.single "sky" (Table.ofList [("moon", .mapping []), ("sun", .null)])

/-- The two rules of the moon that wait for its place. -/
def waiting : List StuckRule :=
  [⟨"moon", 0, "identity", .access (.base "place") "x"⟩, ⟨"moon", 1, "identity", .prev (.base "x")⟩]

theorem step_bare : (⟨engines⟩ : RuleGraph).step "sky" bare = .error (.deadlock "sky" waiting) := by
  decide +kernel

end Sky

/-- In the small sky, when the moon is nowhere, the first pass calls the two rules that discard their
results, and the second finds the step stuck with the other two. -/
theorem RuleGraph.sky_accounts :
    (⟨Sky.engines⟩ : RuleGraph).agents "sky" = .ok Sky.rules ∧
    (Step.log "sky" Sky.bare Table.empty (Step.pendingOf Sky.rules)).length = 2 ∧
    Step.Deadlocked "sky" Sky.bare Sky.rules
      (Step.log "sky" Sky.bare Table.empty (Step.pendingOf Sky.rules)).flatten Sky.waiting := by
  have hr : (⟨Sky.engines⟩ : RuleGraph).agents "sky" = .ok Sky.rules := rfl
  have haccount := step_accounts hr Sky.bare
  exact ⟨hr, by decide +kernel, (haccount.stuck "sky" Sky.waiting Sky.step_bare).2⟩

end Orrery
