import Orrery.Proofs.Store

/-!
# What a history says after any calls

Whoever keeps a history asks it again and again to bind an interval to a value.  Some of the calls are
refused, intervals overlap in every way, bounds and points may be infinite or no numbers at all.  What the
history says afterwards can be told from the list of calls alone, without following the history:

* `Insertion.Covers`: a call has to do with a point if its interval is one, and the point lies in it.
* `hits_attemptAll`: the values at a point are those of the calls that cover it, in the order of the calls.
* `LastSays`: of the calls that cover a point, the last one that has a name says what a snapshot holds
  under this name (`get?_merge_attemptAll`).  The calls before it are forgotten, and so is what they have
  under the same name: nothing of their values shows through.

For both, the induction is on the calls from the first one on, and the history at the start is arbitrary,
since after the first call it is no longer empty.
-/

namespace Orrery

universe u v

/-! ## Calls -/

/-- A call that asks to bind an interval to a value. -/
structure Insertion (α : Type u) where
  /-- Where the interval is to begin. -/
  low : Float
  /-- Where it is to end. -/
  high : Float
  /-- What is to hold there. -/
  value : α

namespace Insertion

variable {α : Type u}

/-- How a call ends. -/
def outcome (i : Insertion α) : Except StoreError Unit :=
  if i.low < i.high then .ok () else .error (.invalidRange i.low i.high)

/-- A call is granted, and a point lies in its interval. -/
def Covers (i : Insertion α) (point : Float) : Prop :=
  i.low < i.high ∧ i.low ≤ point ∧ point < i.high

instance (i : Insertion α) (point : Float) : Decidable (i.Covers point) :=
  inferInstanceAs (Decidable (_ ∧ _))

end Insertion

namespace Store

variable {α : Type u}

/-- Make a call: the history as it is left, and how the call ended. -/
def call (s : Store α) (i : Insertion α) : Store α × Except StoreError Unit :=
  s.attempt i.low i.high i.value

/-- Make calls one after the other: the history as it is left, and how every call ended. -/
def attemptAll (s : Store α) : List (Insertion α) → Store α × List (Except StoreError Unit)
  | [] => (s, [])
  | i :: rest =>
    let (s, outcome) := s.call i
    let (s, outcomes) := s.attemptAll rest
    (s, outcome :: outcomes)

/-- **A call is granted or refused for what it asks**, and one that is refused leaves the history as it
was. -/
theorem call_eq (s : Store α) (i : Insertion α) :
    s.call i = if h : i.low < i.high then (s.append ⟨i.low, i.high, i.value, h⟩, .ok ())
      else (s, .error (.invalidRange i.low i.high)) := by
  by_cases h : i.low < i.high
  · rw [dif_pos h]
    exact s.attempt_of_lt i.value h
  · rw [dif_neg h]
    exact s.attempt_of_not_lt i.value h

theorem snd_call (s : Store α) (i : Insertion α) : (s.call i).2 = i.outcome := by
  rw [call_eq, Insertion.outcome]
  split <;> rfl

theorem fst_attemptAll_cons (s : Store α) (i : Insertion α) (rest : List (Insertion α)) :
    (s.attemptAll (i :: rest)).1 = ((s.call i).1.attemptAll rest).1 := rfl

/-- How calls end does not depend on the history. -/
theorem snd_attemptAll (s : Store α) (calls : List (Insertion α)) :
    (s.attemptAll calls).2 = calls.map (·.outcome) := by
  induction calls generalizing s with
  | nil => rfl
  | cons i rest ih =>
    have hcons : (s.attemptAll (i :: rest)).2 = (s.call i).2 :: ((s.call i).1.attemptAll rest).2 := rfl
    rw [hcons, snd_call, ih, List.map_cons]

/-! ## The values at a point -/

/-- A call adds its value at the points it covers. -/
theorem hits_call (s : Store α) (i : Insertion α) (point : Float) :
    (s.call i).1.hits point = s.hits point ++ if i.Covers point then [i.value] else [] := by
  rw [call_eq]
  by_cases h : i.low < i.high
  · have hcovers : i.Covers point ↔ i.low ≤ point ∧ point < i.high := and_iff_right h
    rw [dif_pos h, hits_append]
    simp only [Record.contains_iff, hcovers]
  · have hcovers : ¬ i.Covers point := fun hc => h hc.1
    rw [dif_neg h, if_neg hcovers, List.append_nil]

/-- **The values at a point are those of the calls that cover it**, in the order of the calls. -/
theorem hits_attemptAll (s : Store α) (calls : List (Insertion α)) (point : Float) :
    (s.attemptAll calls).1.hits point =
      s.hits point ++ (calls.filter (·.Covers point)).map (·.value) := by
  induction calls generalizing s with
  | nil => exact (List.append_nil _).symm
  | cons i rest ih =>
    rw [fst_attemptAll_cons, ih, hits_call, List.append_assoc]
    by_cases h : i.Covers point
    · simp [h]
    · simp [h]

end Store

/-! ## The last word -/

section LastSays

variable {α : Type u} {point : Float} {name : String}

/-- No call that covers a point has a name. -/
def Silent (point : Float) (name : String) (calls : List (Insertion (Table α))) : Prop :=
  ∀ i ∈ calls, i.Covers point → i.value.get? name = none

/-- Of the calls that cover a point and have a name, the last one has this value under it. -/
def LastSays (point : Float) (name : String) (calls : List (Insertion (Table α))) (value : α) : Prop :=
  ∃ before i after, calls = before ++ i :: after ∧ i.Covers point ∧ i.value.get? name = some value ∧
    Silent point name after

theorem silent_cons_iff {i : Insertion (Table α)} {rest : List (Insertion (Table α))} :
    Silent point name (i :: rest) ↔
      (i.Covers point → i.value.get? name = none) ∧ Silent point name rest :=
  List.forall_mem_cons

theorem lastSays_cons_iff {i : Insertion (Table α)} {rest : List (Insertion (Table α))} {value : α} :
    LastSays point name (i :: rest) value ↔
      (i.Covers point ∧ i.value.get? name = some value ∧ Silent point name rest) ∨
        LastSays point name rest value := by
  constructor
  · rintro ⟨before, j, after, heq, hcovers, hsays, hsilent⟩
    cases before with
    | nil =>
      obtain ⟨rfl, rfl⟩ := List.cons.inj heq
      exact .inl ⟨hcovers, hsays, hsilent⟩
    | cons first before =>
      obtain ⟨-, rfl⟩ := List.cons.inj heq
      exact .inr ⟨before, j, after, rfl, hcovers, hsays, hsilent⟩
  · rintro (⟨hcovers, hsays, hsilent⟩ | ⟨before, j, after, rfl, hlast⟩)
    · exact ⟨[], i, rest, rfl, hcovers, hsays, hsilent⟩
    · exact ⟨i :: before, j, after, rfl, hlast⟩

/-- Either nobody has the name, or somebody has the last word. -/
theorem silent_or_exists_lastSays (point : Float) (name : String) (calls : List (Insertion (Table α))) :
    Silent point name calls ∨ ∃ value, LastSays point name calls value := by
  induction calls with
  | nil => exact .inl (by simp [Silent])
  | cons i rest ih =>
    rcases ih with hsilent | ⟨value, hlast⟩
    · by_cases hcovers : i.Covers point
      · cases hsays : i.value.get? name with
        | none => exact .inl (silent_cons_iff.2 ⟨fun _ => hsays, hsilent⟩)
        | some value => exact .inr ⟨value, lastSays_cons_iff.2 (.inl ⟨hcovers, hsays, hsilent⟩)⟩
      · exact .inl (silent_cons_iff.2 ⟨fun h => absurd h hcovers, hsilent⟩)
    · exact .inr ⟨value, lastSays_cons_iff.2 (.inr hlast)⟩

end LastSays

namespace Store

variable {α : Type u}

/-- A call lays its table over the snapshots at the points it covers. -/
theorem get?_merge_call (s : Store (Table α)) (i : Insertion (Table α)) (point : Float) (name : String) :
    ((s.call i).1.merge point).get? name =
      if i.Covers point then (i.value.get? name).or ((s.merge point).get? name)
      else (s.merge point).get? name := by
  rw [merge, hits_call, List.foldl_append]
  by_cases h : i.Covers point
  · rw [if_pos h, if_pos h]
    exact Table.get?_overlay _ _ _
  · rw [if_neg h, if_neg h]
    rfl

/-- **A snapshot holds the last word on a name**, or what was there before all calls if none of them has
anything to say. -/
theorem get?_merge_attemptAll (s : Store (Table α)) (calls : List (Insertion (Table α)))
    (point : Float) (name : String) (value : α) :
    ((s.attemptAll calls).1.merge point).get? name = some value ↔
      LastSays point name calls value ∨
        (Silent point name calls ∧ (s.merge point).get? name = some value) := by
  induction calls generalizing s with
  | nil => simp [attemptAll, LastSays, Silent]
  | cons i rest ih =>
    rw [fst_attemptAll_cons, ih, get?_merge_call, lastSays_cons_iff, silent_cons_iff]
    by_cases hcovers : i.Covers point
    · cases hsays : i.value.get? name with
      | none => simp [hcovers]
      | some own =>
        simp only [hcovers, if_true, true_and, Option.some_or, Option.some.injEq, forall_true_left,
          reduceCtorEq, false_and, or_false]
        rw [or_comm, and_comm]
    · simp [hcovers]

/-- **What a history says is what it was asked to keep.**  Whatever a history holds, a call that asks for
an interval without a point is refused and changes nothing, and any other call is granted.  After any calls
on an empty history, and at any point: a question is answered with the values of the granted calls whose
intervals contain the point, in the order of the calls and each of them once, and it fails exactly when
there are none.  If the values are tables, the snapshot has a name exactly when one of these tables has it,
and what it holds under the name is what the last of these tables holds there, as a whole. -/
theorem tells_what_was_inserted {α : Type u} {β : Type v} :
    (∀ (s : Store α) (i : Insertion α), s.attempt i.low i.high i.value =
      if h : i.low < i.high then (s.append ⟨i.low, i.high, i.value, h⟩, .ok ())
      else (s, .error (.invalidRange i.low i.high))) ∧
    (∀ (calls : List (Insertion α)) (point : Float),
      (empty.attemptAll calls).2 = calls.map (·.outcome) ∧
      (∀ values, (empty.attemptAll calls).1.query point = .ok values ↔
        values ≠ [] ∧ (calls.filter (·.Covers point)).map (·.value) = values) ∧
      ((empty.attemptAll calls).1.query point = .error (.notFound point) ↔
        ∀ i ∈ calls, ¬ i.Covers point)) ∧
    ∀ (calls : List (Insertion (Table β))) (point : Float) (name : String),
      (((empty.attemptAll calls).1.merge point).contains name = true ↔
        ∃ i ∈ calls, i.Covers point ∧ i.value.contains name = true) ∧
      ∀ value, ((empty.attemptAll calls).1.merge point).get? name = some value ↔
        LastSays point name calls value := by
  refine ⟨fun s i => s.call_eq i, fun calls point => ?_, fun calls point name => ?_⟩
  · have hhits : (empty.attemptAll calls).1.hits point =
        (calls.filter (·.Covers point)).map (·.value) := hits_attemptAll empty calls point
    refine ⟨snd_attemptAll empty calls, fun values => ?_, ?_⟩
    · rw [query_eq_ok_iff, hhits]
    · rw [query_eq_notFound_iff, hhits, List.map_eq_nil_iff, List.filter_eq_nil_iff]
      simp only [decide_eq_true_iff]
  · have hlast : ∀ value, ((empty.attemptAll calls).1.merge point).get? name = some value ↔
        LastSays point name calls value := by
      intro value
      have hempty : ((empty : Store (Table β)).merge point).get? name ≠ some value := by
        simp [merge, hits, empty]
      rw [get?_merge_attemptAll]
      exact or_iff_left fun h => hempty h.2
    refine ⟨?_, hlast⟩
    rw [Table.contains, Option.isSome_iff_exists]
    simp only [hlast]
    constructor
    · rintro ⟨value, before, i, after, rfl, hcovers, hsays, -⟩
      exact ⟨i, by simp, hcovers, by simp [Table.contains, hsays]⟩
    · rintro ⟨i, hi, hcovers, hsays⟩
      refine (silent_or_exists_lastSays point name calls).resolve_left fun hsilent => ?_
      rw [Table.contains, hsilent i hi hcovers] at hsays
      exact Bool.false_ne_true hsays

/-- Of two that overlap the later one has the last word; the one in between has no bounds and is refused. -/
example :
    let (s, outcomes) := (empty : Store (Table Nat)).attemptAll
      [⟨0.0, 2.0, .single "mast" 1⟩, ⟨0.0 / 0.0, 9.0, .single "mast" 2⟩, ⟨1.0, 3.0, .single "mast" 3⟩]
    outcomes.map Except.isOk = [true, false, true] ∧ (s.merge 0.5).get? "mast" = some 1 ∧
      (s.merge 1.5).get? "mast" = some 3 ∧ (s.merge 3.0).get? "mast" = none := by
  decide

end Store

end Orrery
