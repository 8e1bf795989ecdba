import Orrery.Proofs.Accounting
import Orrery.Proofs.Finality
import Mathlib.Data.List.Nodup

/-!
# A rule that is ready stays ready

A rule is *ready* when what it consumes is found.  Between the moment at which it becomes ready and the
moment at which its turn comes, other rules write, and one of them might put its output over a mapping that
holds what the rule was about to read.  This file shows that none does: whatever the rules still to come
answer, a rule that is ready stays so.

`Finality` compares a call with the finished states of the same step.  Here the outputs are not those of
the producers but any values at all, and the rules that write them need not be ready themselves.  The two
come together through a rule that is *told* what to answer: it waits for nothing, and writes where the
rule writes whose place it takes.  Writing a list of outputs is then an `Execution` like any other
(`Execution.writeAll`), and what is known of those applies to it.

* `Moment`: the calls that a step has made so far, and the states that they have left.
* `Further`: outputs for rules of the engine that have not been called, at most one for each.
* `Execution.ready_later`: more calls never take away what a rule was ready to read.
* `RuleGraph.step_keeps_ready`: hence a rule that is ready is ready after any further outputs and at every
  later moment of the step, and is never reported as stuck.
-/

namespace Orrery

/-- The rule with another producer, which waits for nothing and answers what it is told. -/
def Pending.told (p : Pending) (output : Value) : Pending :=
  { p with rule := { p.rule with consumed := .tuple [], produce := Producer.constant output } }

namespace Step

/-- What a rule consumes is found. -/
def Ready (engine : String) (snapshot : Universe) (states : States) (p : Pending) : Prop :=
  ∃ input, (scopeOf engine snapshot p).resolve? states p.rule.consumed = some input

/-- A moment of a step: the calls that the step has made so far, and the states that they have left. -/
structure Moment (engine : String) (snapshot : Universe) (rules : AgentRules) (fired : List Call)
    (states : States) : Prop where
  /-- The step begins with these calls. -/
  made : fired <+: (log engine snapshot Table.empty (pendingOf rules)).flatten
  /-- The states are what they have written. -/
  wrote : Execution engine snapshot Table.empty fired states

/-- Outputs for rules of the engine that have not been called, at most one for each. -/
structure Further (rules : AgentRules) (fired : List Call) (outputs : List (Pending × Value)) :
    Prop where
  /-- They are for rules of the engine. -/
  known : ∀ w ∈ outputs, w.1 ∈ pendingOf rules
  /-- None of these has been called. -/
  fresh : ∀ w ∈ outputs, ∀ c ∈ fired, c.pending ≠ w.1
  /-- No rule has two. -/
  once : (outputs.map (·.1)).Nodup

/-- Write outputs where their rules say, one after the other. -/
def writeAll (engine : String) (snapshot : Universe) (states : States)
    (outputs : List (Pending × Value)) : Except Query.WriteError States :=
  outputs.foldlM (fun states w => (scopeOf engine snapshot w.1).write states w.1.rule.produced w.2)
    states

/-- The call of a rule that is told what to answer. -/
def Call.told (w : Pending × Value) : Call := ⟨w.1.told w.2, .list [], .ok w.2⟩

variable {engine : String} {snapshot : Universe} {states mid after : States}
variable {fired front later : List Call} {outputs : List (Pending × Value)} {rules : AgentRules}

/-! ## Outputs as calls -/

/-- A rule that is told what to answer can be called at any time. -/
theorem call?_told (engine : String) (snapshot : Universe) (states : States) (w : Pending × Value) :
    call? engine snapshot states (Call.told w).pending = some (Call.told w) := by
  simp [call?, Pending.told, Call.told, Scope.resolve?, Scope.lookup?, Scope.lookupItems?,
    Producer.constant]

/-- It writes beside the same rules as the one whose place it takes. -/
theorem pairwise_beside_told
    (h : (fired.map (·.pending) ++ outputs.map (·.1)).Pairwise Pending.Beside) :
    ((fired ++ outputs.map Call.told).map (·.pending)).Pairwise Pending.Beside := by
  rw [List.map_append, List.map_map]
  simp only [List.pairwise_append, List.pairwise_map, List.forall_mem_map] at h ⊢
  -- to write beside each other is a matter of agents and targets, and these are the same
  exact h

theorem writeAll_concat (states : States) (outputs : List (Pending × Value)) (w : Pending × Value) :
    writeAll engine snapshot states (outputs ++ [w]) =
      writeAll engine snapshot states outputs >>= fun mid =>
        (scopeOf engine snapshot w.1).write mid w.1.rule.produced w.2 := by
  simp [writeAll, List.foldlM_append]

/-- **Outputs of rules that write beside each other always find room**, and writing them goes on with the
calls made so far. -/
theorem Execution.writeAll (h : Execution engine snapshot Table.empty fired states)
    (hbeside : ((fired ++ outputs.map Call.told).map (·.pending)).Pairwise Pending.Beside) :
    ∃ after, writeAll engine snapshot states outputs = .ok after ∧
      Execution engine snapshot Table.empty (fired ++ outputs.map Call.told) after := by
  induction outputs using List.reverseRecOn with
  | nil => exact ⟨states, rfl, by rwa [List.map_nil, List.append_nil]⟩
  | append_singleton outputs w ih =>
    have hsnoc : fired ++ (outputs ++ [w]).map Call.told =
        (fired ++ outputs.map Call.told) ++ [Call.told w] := by simp
    rw [hsnoc] at hbeside ⊢
    obtain ⟨mid, hmid, hexec⟩ := ih (hbeside.sublist ((List.sublist_append_left _ _).map _))
    rcases fires_or_refuses (call?_told engine snapshot mid w) with ⟨after, hfires⟩ | ⟨e, hrefuses⟩
    · obtain ⟨output, hresult, hwrite⟩ := hfires.wrote
      obtain rfl : w.2 = output := Except.ok.inj hresult
      refine ⟨after, ?_, hexec.concat hfires⟩
      rw [writeAll_concat, hmid]
      exact hwrite
    · -- only a producer could refuse, and this one answers
      obtain ⟨cause, hcause, -⟩ := hexec.refuses_producer hbeside hrefuses
      cases hcause

/-! ## Readiness -/

/-- **More calls never take away what a rule was ready to read.** -/
theorem Execution.ready_later (h : Execution engine snapshot Table.empty front mid)
    (h' : Execution engine snapshot Table.empty (front ++ later) states)
    (hbeside : ((front ++ later).map (·.pending)).Pairwise Pending.Beside) {p : Pending}
    (hready : Ready engine snapshot mid p) : Ready engine snapshot states p := by
  obtain ⟨input, hinput⟩ := hready
  have hfound := h.exists_under?_later h' hbeside hinput
  obtain ⟨again, hagain, -⟩ := Scope.lookup?_again _ hinput hfound
  exact ⟨again, hagain⟩

/-! ## Moments of a step -/

theorem nodup_pendingOf (rules : AgentRules) : (pendingOf rules).Nodup := by
  refine List.Nodup.of_map Pending.place ?_
  rw [map_place_pendingOf]
  exact rules.nodup_places

/-- What holds of any two of some rules holds of any two of a part of them, in whatever order. -/
theorem pairwise_of_subperm {R : Pending → Pending → Prop} (hsymm : ∀ {p q}, R p q → R q p)
    {part all : List Pending} (h : part.Subperm all) (hall : all.Pairwise R) : part.Pairwise R := by
  obtain ⟨listed, hperm, hsub⟩ := h
  exact (hperm.pairwise_iff hsymm).1 (hall.sublist hsub)

/-- The calls made so far are of different rules of the engine. -/
theorem Moment.subperm (h : Moment engine snapshot rules fired states) :
    (fired.map (·.pending)).Subperm (pendingOf rules) := by
  obtain ⟨rest, hperm⟩ := exists_perm_log engine snapshot Table.empty (pendingOf rules)
  have hsub := (h.made.sublist.map (·.pending)).trans (List.sublist_append_left _ rest)
  exact hsub.subperm.trans hperm.symm.subperm

/-- Together with the rules that further outputs are for, they are still different rules. -/
theorem Moment.subperm_further (h : Moment engine snapshot rules fired states)
    (hfurther : Further rules fired outputs) :
    (fired.map (·.pending) ++ outputs.map (·.1)).Subperm (pendingOf rules) := by
  refine List.subperm_of_subset (List.nodup_append.2 ⟨?_, hfurther.once, ?_⟩) ?_
  · exact pairwise_of_subperm Ne.symm h.subperm (nodup_pendingOf rules)
  · simp only [List.forall_mem_map]
    exact fun c hc w hw => hfurther.fresh w hw c hc
  · refine List.append_subset.2 ⟨h.subperm.subset, ?_⟩
    simp only [List.subset_def, List.forall_mem_map]
    exact hfurther.known

/-- A rule that is ready at a moment is ready at every later one, if rules write beside each other. -/
theorem Moment.ready_later (h : Moment engine snapshot rules fired states)
    (h' : Moment engine snapshot rules (fired ++ later) after)
    (hbeside : (pendingOf rules).Pairwise Pending.Beside) {p : Pending}
    (hready : Ready engine snapshot states p) : Ready engine snapshot after p :=
  h.wrote.ready_later h'.wrote (pairwise_of_subperm Pending.Beside.symm h'.subperm hbeside) hready

/-- **A rule that was ready is not left**, if rules write beside each other. -/
theorem Moment.not_ready_of_left {calls : List Call} {left : List Pending}
    (h : Moment engine snapshot rules fired states)
    (hsettles : Settles engine snapshot Table.empty (pendingOf rules) calls after left)
    (hbeside : (pendingOf rules).Pairwise Pending.Beside) {p : Pending} (hp : p ∈ left) :
    ¬ Ready engine snapshot states p := by
  have hlog := flatten_log_of_settles hsettles
  obtain ⟨later, hlater⟩ := h.made
  rw [hlog] at hlater
  -- the end of the step is a moment of it as well
  have hend : Moment engine snapshot rules (fired ++ later) after := by
    rw [hlater]
    exact ⟨hlog ▸ List.prefix_rfl, hsettles.execution_nil⟩
  intro hready
  obtain ⟨input, hinput⟩ := h.ready_later hend hbeside hready
  have hstuck := Option.map_eq_none_iff.1 (hsettles.stuck p hp)
  rw [hinput] at hstuck
  cases hstuck

end Step

namespace RuleGraph

/-- **A rule that is ready stays ready.**  Take any moment of a step of an accepted graph, and outputs of
any kind for rules that have not been called.  They can all be written, and every rule that was ready is
ready afterwards.  In particular a rule that is ready is ready at every later moment of the step, and if
the step is stuck in the end, it is not because of this rule: waiting never makes it miss its inputs. -/
theorem step_keeps_ready {engines : Table AgentRules} {g : RuleGraph} {engine : String}
    {rules : AgentRules} (hg : ofRules engines = .ok g) (hr : g.agents engine = .ok rules)
    {snapshot : Universe} {fired : List Step.Call} {states : States}
    (hmoment : Step.Moment engine snapshot rules fired states) :
    (∀ outputs, Step.Further rules fired outputs →
      ∃ after, Step.writeAll engine snapshot states outputs = .ok after ∧
        ∀ p ∈ Step.pendingOf rules, Step.Ready engine snapshot states p →
          Step.Ready engine snapshot after p) ∧
    ∀ p ∈ Step.pendingOf rules, Step.Ready engine snapshot states p →
      (∀ later after, Step.Moment engine snapshot rules (fired ++ later) after →
        Step.Ready engine snapshot after p) ∧
      ∀ name reports, g.step engine snapshot = .error (.deadlock name reports) → p.stuck ∉ reports := by
  have hbeside := Step.pairwise_beside_pendingOf (sound_of_ofRules hg hr)
  refine ⟨fun outputs hfurther => ?_, fun p _ hready => ⟨fun later after hlater => ?_, ?_⟩⟩
  · have htold := Step.pairwise_beside_told
      (Step.pairwise_of_subperm Pending.Beside.symm (hmoment.subperm_further hfurther) hbeside)
    obtain ⟨after, hafter, hexec⟩ := hmoment.wrote.writeAll htold
    exact ⟨after, hafter, fun p _ hready => hmoment.wrote.ready_later hexec htold hready⟩
  · exact hmoment.ready_later hlater hbeside hready
  · intro name reports hdead hmem
    obtain ⟨calls, after, left, hsettles, -, -, rfl⟩ := exists_settles_of_deadlock hr hdead
    obtain ⟨q, hq, hstuck⟩ := List.mem_map.1 hmem
    -- a report names the agent and the query, and readiness depends on nothing else of the rule
    obtain ⟨hagent, -, -, hconsumed⟩ := StuckRule.mk.inj hstuck
    refine hmoment.not_ready_of_left hsettles hbeside hq ?_
    rw [Step.Ready, Step.scopeOf, hagent, hconsumed]
    exact hready

end RuleGraph

/-! ## A mosaic

A floor is laid tile by tile.  When its first tile is there, the survey of the pattern is ready.  The rule
for the edge will never be, because nothing is known about the gap; but if it were to write something, the
survey would still be ready. -/

namespace Mosaic

/-- The first tile of the pattern. -/
def corner : Pending :=
  ⟨"floor", 0, ⟨.prev (.base "stone"), .access (.base "pattern") "corner", "identity",
    Producer.identity, rfl⟩⟩

/-- The whole pattern, and the first tile once more. -/
def survey : Pending :=
  ⟨"floor", 1, ⟨.tuple [.base "pattern", .access (.base "pattern") "corner"], .base "survey",
    "arguments", Producer.arguments, rfl⟩⟩

/-- Another tile of the pattern. -/
def edge : Pending :=
  ⟨"floor", 2, ⟨.prev (.base "gap"), .access (.base "pattern") "edge", "identity",
    Producer.identity, rfl⟩⟩

/-- The rules of the floor. -/
def rules : AgentRules := Table.single "floor" [corner.rule, survey.rule, edge.rule]

/-- One engine. -/
def engines : Table AgentRules := Table.single "workshop" rules

/-- What was committed: a stone, and no gap. -/
def snapshot : Universe :=
  Table.single "workshop" (Table.single "floor" (.mapping [("stone", .text "marble")]))

/-- The first tile is laid. -/
def laid : Step.Call := ⟨corner, .text "marble", .ok (.text "marble")⟩

/-- What it leaves. -/
def begun : States :=
  Table.single "floor" (.mapping [("pattern", .mapping [("corner", .text "marble")])])

theorem fires_laid : Step.Fires "workshop" snapshot Table.empty laid begun :=
  ⟨rfl, .text "marble", rfl, rfl⟩

/-- The step begins with the first tile. -/
theorem moment_begun : Step.Moment "workshop" snapshot rules [laid] begun := by
  refine ⟨?_, .concat .nil fires_laid⟩
  have hpass : [laid] <+: Step.passCalls "workshop" snapshot Table.empty [laid.pending, survey, edge] := by
    rw [Step.passCalls, Step.fire_of_fires fires_laid]
    dsimp only
    rw [fires_laid.called]
    exact List.prefix_append _ _
  rw [Step.log]
  exact hpass.trans (List.prefix_append _ _)

/-- The edge has not been laid, and something is written in its place. -/
theorem further_edge : Step.Further rules [laid] [(edge, .list [.null])] := by
  refine ⟨?_, ?_, List.nodup_singleton _⟩
  · rw [List.forall_mem_singleton]
    exact List.mem_cons_of_mem _ (List.mem_cons_of_mem _ (List.mem_cons_self ..))
  · rw [List.forall_mem_singleton, List.forall_mem_singleton]
    exact fun heq => absurd (congrArg Pending.index heq) (by decide)

/-- In the end the edge is missing. -/
theorem step_stuck : (⟨engines⟩ : RuleGraph).step "workshop" snapshot =
    .error (.deadlock "workshop" [edge.stuck]) := by decide +kernel

end Mosaic

/-- The survey is ready after the first tile, stays so when the edge is written, and is not what the step is
stuck with. -/
theorem RuleGraph.mosaic_keeps_ready :
    ofRules Mosaic.engines = .ok ⟨Mosaic.engines⟩ ∧
    (⟨Mosaic.engines⟩ : RuleGraph).agents "workshop" = .ok Mosaic.rules ∧
    Step.Moment "workshop" Mosaic.snapshot Mosaic.rules [Mosaic.laid] Mosaic.begun ∧
    Step.Further Mosaic.rules [Mosaic.laid] [(Mosaic.edge, .list [.null])] ∧
    Mosaic.survey ∈ Step.pendingOf Mosaic.rules ∧
    Step.Ready "workshop" Mosaic.snapshot Mosaic.begun Mosaic.survey ∧
    (∃ after, Step.writeAll "workshop" Mosaic.snapshot Mosaic.begun [(Mosaic.edge, .list [.null])] =
        .ok after ∧ Step.Ready "workshop" Mosaic.snapshot after Mosaic.survey) ∧
    (⟨Mosaic.engines⟩ : RuleGraph).step "workshop" Mosaic.snapshot =
      .error (.deadlock "workshop" [Mosaic.edge.stuck]) ∧
    Mosaic.survey.stuck ∉ [Mosaic.edge.stuck] := by
  have hg : ofRules Mosaic.engines = .ok ⟨Mosaic.engines⟩ := rfl
  have hr : (⟨Mosaic.engines⟩ : RuleGraph).agents "workshop" = .ok Mosaic.rules := rfl
  have hsurvey : Mosaic.survey ∈ Step.pendingOf Mosaic.rules :=
    List.mem_cons_of_mem _ (List.mem_cons_self ..)
  have hready : Step.Ready "workshop" Mosaic.snapshot Mosaic.begun Mosaic.survey :=
    ⟨.list [.mapping [("corner", .text "marble")], .text "marble"], by decide⟩
  obtain ⟨hwritten, hlater⟩ := step_keeps_ready hg hr Mosaic.moment_begun
  obtain ⟨after, hafter, hkept⟩ := hwritten _ Mosaic.further_edge
  exact ⟨hg, hr, Mosaic.moment_begun, Mosaic.further_edge, hsurvey, hready,
    ⟨after, hafter, hkept _ hsurvey hready⟩, Mosaic.step_stuck,
    (hlater _ hsurvey hready).2 _ _ Mosaic.step_stuck⟩

end Orrery
