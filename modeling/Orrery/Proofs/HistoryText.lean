import Orrery.Proofs.JsonText
import Orrery.Proofs.Nesting
import Orrery.Proofs.Store

/-!
# Histories that are written down and rebuilt

A history is written as a list of its records, and any history can be written.  Reading is more choosy:
a bound that is infinite was written as `null`, which is no number, and a text must not nest too deeply.
These are the only two reasons why a text that was written is refused, and either of them is one.

An interval passes the same comparison three times: when it is bound for the first time, when a record is
made of what a text lists, and when the record is added to the history that is rebuilt.  Binary64 numbers
have not changed in between, so the third comparison never fails, and rebuilding has nothing to refuse.

Two things are taken for granted where a history is read back: its mappings list their fields in order, as
mappings do (`States.Ordered`), and every number in it reads back when its digits stand alone
(`Number.reread?`).

* `Store.replay_eq`: rebuilding keeps all records, in order.
* `Record.Bounded`, `Record.ofTree?_toValue_eq_ite`: one record.  Whether its bounds are finite is decided
  before anything is read of its value.
* `Record.Listed`, `Record.listOfText?_eq_some_iff`: the records of any text, whoever wrote it.
-/

namespace Orrery

/-! ## Rebuilding -/

namespace Store

variable {α : Type*}

/-- **No record is refused when it is added again**, whatever was added before. -/
theorem replayFrom_eq (position : Nat) (s : Store α) (records : List (Record α)) :
    replayFrom position s records = .ok ⟨s.records ++ records⟩ := by
  induction records generalizing position s with
  | nil => rw [replayFrom, List.append_nil]
  | cons r rest ih =>
    have hadd : s.attempt r.low r.high r.value = (s.append r, .ok ()) :=
      s.attempt_of_lt r.value r.low_lt_high
    rw [replayFrom, hadd]
    show replayFrom (position + 1) (s.append r) rest = _
    rw [ih, records_append, List.append_assoc, List.singleton_append]

/-- **Rebuilding keeps all records**, in order. -/
theorem replay_eq (records : List (Record α)) : replay records = .ok ⟨records⟩ :=
  replayFrom_eq 0 empty records

end Store

/-! ## One record -/

/-- A time that was written is read back exactly when it is finite. -/
theorem Tree.float?_ofValue_ofFloat (x : Float) :
    (Tree.ofValue (.ofFloat x)).float? = if x.isFinite = true then some x else none := by
  rw [Value.ofFloat, Number.ofFloat?]
  by_cases h : x.isFinite = true
  · rw [dif_pos h, if_pos h]
    rfl
  · rw [dif_neg h, if_neg h]
    rfl

namespace Record

open Value

/-- Both bounds are finite. -/
def Bounded (r : Record States) : Prop := r.low.isFinite = true ∧ r.high.isFinite = true

instance (r : Record States) : Decidable r.Bounded := inferInstanceAs (Decidable (_ ∧ _))

/-- A tree lists a record: it consists of two numbers and a mapping, and the numbers are the bounds of an
interval with a point in it. -/
def Listed (depth : Nat) (t : Tree) (r : Record States) : Prop :=
  ∃ low high value, t = .list [low, high, value] ∧ low.float? = some r.low ∧
    high.float? = some r.high ∧ r.low < r.high ∧ value.states? depth = some r.value

/-- **The reader of records reads what is listed and nothing else.** -/
theorem ofTree?_eq_some_iff {depth : Nat} {t : Tree} {r : Record States} :
    ofTree? (depth + 1) t = some r ↔ Listed depth t r := by
  constructor
  · intro h
    unfold ofTree? at h
    split at h
    · next low high value =>
      simp only [Option.bind_eq_bind, Option.bind_eq_some_iff] at h
      obtain ⟨a, ha, b, hb, states, hstates, hbounds⟩ := h
      obtain ⟨hlt, hr⟩ := Option.dite_none_right_eq_some.1 hbounds
      obtain rfl := Option.some.inj hr
      exact ⟨low, high, value, rfl, ha, hb, hlt, hstates⟩
    · cases h
  · rintro ⟨low, high, value, rfl, hlow, hhigh, hlt, hvalue⟩
    have hbounds : ofBounds? r.low r.high r.value = some r := dif_pos hlt
    simp only [ofTree?, hlow, hhigh, hvalue, Option.bind_eq_bind, Option.bind_some, hbounds]

/-- A record with an infinite bound is not read back, at whatever depth. -/
theorem ofTree?_toValue_of_not_bounded (depth : Nat) {r : Record States} (h : ¬ r.Bounded) :
    ofTree? depth (Tree.ofValue r.toValue) = none := by
  cases depth with
  | zero => rfl
  | succ d =>
    refine Option.eq_none_iff_forall_ne_some.2 fun r' hread => h ?_
    obtain ⟨low, high, value, heq, hlow, hhigh, -⟩ := ofTree?_eq_some_iff.1 hread
    simp only [toValue, Tree.ofValue, Tree.ofValues, Tree.list.injEq, List.cons.injEq] at heq
    obtain ⟨rfl, rfl, -⟩ := heq
    rw [Tree.float?_ofValue_ofFloat] at hlow hhigh
    exact ⟨(Option.ite_none_right_eq_some.1 hlow).1, (Option.ite_none_right_eq_some.1 hhigh).1⟩

/-- **A record is read back exactly when its bounds are finite and it does not nest too deeply.** -/
theorem ofTree?_toValue_eq_ite (depth : Nat) {r : Record States} (h : r.value.Ordered) :
    ofTree? depth (Tree.ofValue r.toValue) =
      if r.Bounded ∧ r.toValue.nesting ≤ depth then some r else none := by
  by_cases hbounded : r.Bounded
  · rw [ofTree?_toValue depth ⟨hbounded.1, hbounded.2, h⟩]
    simp only [hbounded, true_and]
  · rw [ofTree?_toValue_of_not_bounded depth hbounded, if_neg fun hc => hbounded hc.1]

/-! ## All records -/

/-- **A history is read back exactly when all bounds are finite and it does not nest too deeply.** -/
theorem listOfTree?_toValue_eq_ite (depth : Nat) (s : Store States)
    (h : ∀ r ∈ s.records, r.value.Ordered) :
    listOfTree? depth (Tree.ofValue s.toValue) =
      if (∀ r ∈ s.records, r.Bounded) ∧ s.toValue.nesting ≤ depth then some s.records else none := by
  rw [Store.toValue, Tree.ofValue, Tree.ofValues_eq_map, List.map_map, nesting]
  cases depth with
  | zero => simp [listOfTree?]
  | succ d =>
    have hread : (s.records.map (Tree.ofValue ∘ toValue)).mapM (ofTree? d) =
        if ∀ r ∈ s.records, r.Bounded ∧ r.toValue.nesting ≤ d then some s.records else none :=
      mapM_map_eq_ite fun r hr => ofTree?_toValue_eq_ite d (h r hr)
    have hitems : itemNesting (s.records.map toValue) ≤ d ↔
        ∀ r ∈ s.records, r.toValue.nesting ≤ d := by
      rw [itemNesting_le_iff, List.forall_mem_map]
    rw [listOfTree?, hread]
    simp only [Nat.add_le_add_iff_right, hitems, forall₂_and]

/-- The items of a list are read one by one. -/
theorem mapM_ofTree?_eq_some_iff {depth : Nat} {items : List Tree} {records : List (Record States)} :
    items.mapM (ofTree? (depth + 1)) = some records ↔ List.Forall₂ (Listed depth) items records := by
  induction items generalizing records with
  | nil => simp [eq_comm]
  | cons t items ih =>
    rw [List.mapM_cons, List.forall₂_cons_left_iff]
    simp only [Option.bind_eq_bind, Option.bind_eq_some_iff, Option.pure_def, Option.some.injEq,
      ofTree?_eq_some_iff, ih]
    constructor
    · rintro ⟨r, hr, rest, hrest, rfl⟩
      exact ⟨r, rest, hr, hrest, rfl⟩
    · rintro ⟨r, rest, hr, hrest, rfl⟩
      exact ⟨r, hr, rest, hrest, rfl⟩

/-- **The records of a text are those that it lists**, and no others. -/
theorem listOfText?_eq_some_iff {text : String} {records : List (Record States)} :
    listOfText? text = some records ↔
      ∃ items, Tree.ofText? text = some (.list items) ∧
        List.Forall₂ (Listed (Tree.depthLimit - 2)) items records := by
  rw [listOfText?, Option.bind_eq_some_iff]
  constructor
  · rintro ⟨t, htext, hread⟩
    unfold listOfTree? at hread
    split at hread
    · next items => exact ⟨items, htext, mapM_ofTree?_eq_some_iff.1 hread⟩
    · cases hread
  · rintro ⟨items, htext, hlisted⟩
    exact ⟨.list items, htext, mapM_ofTree?_eq_some_iff.2 hlisted⟩

end Record

/-- **Histories that are written down and rebuilt.**  Let a history hold states whose fields are in order,
and numbers that survive their digits.  Its text is read exactly when all bounds are finite and it nests at
most 127 levels; what is read then are the records of the history, and rebuilding from them succeeds and
gives the history.  The records of any text whatsoever are those that it lists, each with an interval that
has a point in it, and rebuilding succeeds and keeps them all in order. -/
theorem Store.rebuilt_from_text :
    (∀ s : Store States, (∀ r ∈ s.records, r.value.Ordered) →
      (∀ n ∈ s.toValue.numbers, n.reread? = some n) →
      ((∃ records, Record.listOfText? s.text = some records) ↔
        (∀ r ∈ s.records, r.low.isFinite = true ∧ r.high.isFinite = true) ∧ s.toValue.nesting ≤ 127) ∧
      ∀ records, Record.listOfText? s.text = some records →
        records = s.records ∧ replay records = .ok s) ∧
    ∀ (text : String) (records : List (Record States)),
      (Record.listOfText? text = some records ↔
        ∃ items, Tree.ofText? text = some (.list items) ∧
          List.Forall₂ (Record.Listed 125) items records) ∧
      (Record.listOfText? text = some records →
        (∀ r ∈ records, r.low < r.high) ∧
        ∃ s, replay records = .ok s ∧ s.records = records) := by
  constructor
  · intro s hordered hnumbers
    have hread : Record.listOfText? s.text =
        if (∀ r ∈ s.records, r.Bounded) ∧ s.toValue.nesting ≤ Tree.depthLimit then some s.records
        else none := by
      rw [Record.listOfText?, text, Tree.ofText?_render hnumbers, Option.bind_some]
      exact Record.listOfTree?_toValue_eq_ite Tree.depthLimit s hordered
    rw [hread]
    constructor
    · constructor
      · rintro ⟨records, hsome⟩
        exact (Option.ite_none_right_eq_some.1 hsome).1
      · intro h
        exact ⟨s.records, if_pos h⟩
    · intro records hsome
      obtain rfl := Option.some.inj (Option.ite_none_right_eq_some.1 hsome).2
      exact ⟨rfl, replay_eq s.records⟩
  · intro text records
    refine ⟨Record.listOfText?_eq_some_iff, fun _ => ⟨fun r _ => r.low_lt_high, ?_⟩⟩
    exact ⟨⟨records⟩, replay_eq records, rfl⟩

/-! ## A diary

Two entries that overlap; the second one ends at a time that is chosen, and it holds a list inside so many
others. -/

namespace Diary

/-- An empty list inside so many others. -/
def folded : Nat → Value
  | 0 => .list []
  | n + 1 => .list [folded n]

/-- The diary. -/
def pages (depth : Nat) (last : Float) (h : 0.0 < last) : Store States :=
  ⟨[⟨-10.0, 0.5, Table.single "keeper" (.mapping [("mood", .text "\"fair\"\n"), ("since", .ofFloat 0.1)]),
      by decide⟩,
    ⟨0.0, last, Table.single "keeper" (folded depth), h⟩]⟩

theorem ordered_folded (depth : Nat) : (folded depth).Ordered := by
  induction depth with
  | zero => exact .list (by simp)
  | succ depth ih => exact .list (List.forall_mem_singleton.2 ih)

theorem ordered_pages (depth : Nat) (last : Float) (h : 0.0 < last) :
    ∀ r ∈ (pages depth last h).records, r.value.Ordered := by
  have hmood : (Value.mapping [("mood", .text "\"fair\"\n"), ("since", .ofFloat 0.1)]).Ordered :=
    .mapping (List.pairwise_pair.2 (by decide)) (by
      simp only [List.forall_mem_cons]
      exact ⟨.text _, .number _, by simp⟩)
  simp only [pages, List.forall_mem_cons]
  exact ⟨List.forall_mem_singleton.2 hmood, List.forall_mem_singleton.2 (ordered_folded depth), by simp⟩

end Diary

/-- A diary of 127 levels is read and rebuilt.  One level more, or an end that never comes, and its text is
refused. -/
theorem Store.diary_rebuilt :
    (∃ records, Record.listOfText? (Diary.pages 123 2.5 (by decide)).text = some records ∧
      records = (Diary.pages 123 2.5 (by decide)).records ∧
      replay records = .ok (Diary.pages 123 2.5 (by decide))) ∧
    (¬ ∃ records, Record.listOfText? (Diary.pages 124 2.5 (by decide)).text = some records) ∧
    ¬ ∃ records, Record.listOfText? (Diary.pages 0 (1.0 / 0.0) (by decide)).text = some records := by
  have hnumbers : ∀ n ∈ (Diary.pages 123 2.5 (by decide)).toValue.numbers, n.reread? = some n := by
    decide +kernel
  have hdeep : ∀ n ∈ (Diary.pages 124 2.5 (by decide)).toValue.numbers, n.reread? = some n := by
    decide +kernel
  have hopen : ∀ n ∈ (Diary.pages 0 (1.0 / 0.0) (by decide)).toValue.numbers, n.reread? = some n := by
    decide +kernel
  obtain ⟨hread, hrebuilt⟩ := rebuilt_from_text.1 _ (Diary.ordered_pages 123 2.5 (by decide)) hnumbers
  have hread' := (rebuilt_from_text.1 _ (Diary.ordered_pages 124 2.5 (by decide)) hdeep).1
  have hread'' := (rebuilt_from_text.1 _ (Diary.ordered_pages 0 (1.0 / 0.0) (by decide)) hopen).1
  refine ⟨?_, ?_, ?_⟩
  · obtain ⟨records, hsome⟩ := hread.2 (by decide +kernel)
    exact ⟨records, hsome, hrebuilt records hsome⟩
  · rw [hread']
    decide +kernel
  · rw [hread'']
    decide +kernel

end Orrery
