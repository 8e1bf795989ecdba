import Orrery.Proofs.Table
import Orrery.Store

/-!
# Data that is read back, and data that nests too deeply

Reading text is bounded: a reader follows lists and mappings for a number of levels and refuses what lies
deeper.  Writing is not.  So what was written is read back exactly when it does not nest too deeply, and
each reader of this file has one lemma that says so, always in the form

  `reader depth (what was written) = if it nests at most depth levels then some of it else none`.

* `Value.nesting` counts levels, `Value.Ordered` says that every mapping inside lists its fields in order.
  Reading puts fields in order, so a mapping that was not would not be read back.
* `Tree.value?_ofValue`, `Tree.states?_ofFields`: values, and the states of all agents.
* `Record.ofTree?_toValue`, `Record.listOfTree?_toValue`: records whose bounds are finite.
-/

namespace Orrery

universe u

namespace Value

mutual

/-- How many levels of lists and mappings there are. -/
def nesting : Value → Nat
  | .list items => itemNesting items + 1
  | .mapping fields => fieldNesting fields + 1
  | .null | .bool _ | .number _ | .text _ => 0

/-- How many levels there are inside a list. -/
def itemNesting : List Value → Nat
  | [] => 0
  | v :: rest => max (nesting v) (itemNesting rest)

/-- How many levels there are inside a mapping. -/
def fieldNesting : List (String × Value) → Nat
  | [] => 0
  | (_, v) :: rest => max (nesting v) (fieldNesting rest)

end

theorem itemNesting_le_iff {items : List Value} {depth : Nat} :
    itemNesting items ≤ depth ↔ ∀ v ∈ items, v.nesting ≤ depth := by
  induction items with
  | nil => simp [itemNesting]
  | cons v rest ih => rw [itemNesting, Nat.max_le, ih, List.forall_mem_cons]

theorem fieldNesting_le_iff {fields : List (String × Value)} {depth : Nat} :
    fieldNesting fields ≤ depth ↔ ∀ f ∈ fields, f.2.nesting ≤ depth := by
  induction fields with
  | nil => simp [fieldNesting]
  | cons f rest ih =>
    obtain ⟨k, v⟩ := f
    rw [fieldNesting, Nat.max_le, ih, List.forall_mem_cons]

/-- Every mapping inside lists its fields in order. -/
inductive Ordered : Value → Prop
  | null : Ordered .null
  | bool (b : Bool) : Ordered (.bool b)
  | number (n : Number) : Ordered (.number n)
  | text (s : String) : Ordered (.text s)
  | list {items : List Value} (each : ∀ v ∈ items, Ordered v) : Ordered (.list items)
  | mapping {fields : List (String × Value)} (sorted : Entries.Sorted fields)
      (each : ∀ f ∈ fields, Ordered f.2) : Ordered (.mapping fields)

end Value

/-- Every state lists its fields in order. -/
def States.Ordered (t : States) : Prop := ∀ e ∈ t.entries, e.2.Ordered

namespace Entries

variable {α : Type u}

/-- A name above all others goes to the end. -/
theorem insert_of_forall_lt {name : String} {value : α} {l : Entries α} (h : ∀ e ∈ l, e.1 < name) :
    insert name value l = l ++ [(name, value)] := by
  induction l with
  | nil => rfl
  | cons e l ih =>
    obtain ⟨hfirst, hrest⟩ := List.forall_mem_cons.1 h
    rw [insert, if_pos hfirst, ih hrest, List.cons_append]

/-- Entries in order, put in one after the other, stand in order behind what was there. -/
theorem foldl_insert_eq_append {l gathered : Entries α} (h : Sorted (gathered ++ l)) :
    l.foldl (fun g e => insert e.1 e.2 g) gathered = gathered ++ l := by
  induction l generalizing gathered with
  | nil => rw [List.foldl_nil, List.append_nil]
  | cons e l ih =>
    have hlt : ∀ x ∈ gathered, x.1 < e.1 := fun x hx =>
      (List.pairwise_append.1 h).2.2 x hx e (List.mem_cons_self ..)
    rw [List.foldl_cons, insert_of_forall_lt hlt, ih (by simpa using h), List.append_assoc,
      List.singleton_append]

end Entries

/-! ## Values -/

namespace Tree

open Value

theorem ofValues_eq_map (items : List Value) : ofValues items = items.map ofValue := by
  induction items with
  | nil => rfl
  | cons v rest ih => rw [ofValues, ih, List.map_cons]

mutual

/-- **A value is read back exactly when it does not nest too deeply.** -/
theorem value?_ofValue (depth : Nat) :
    ∀ v : Value, v.Ordered → value? depth (ofValue v) = if v.nesting ≤ depth then some v else none
  | .null, _ | .bool _, _ | .number _, _ | .text _, _ => by
    simp [ofValue, value?, nesting]
  | .list items, h => by
    cases h with
    | list each =>
      cases depth with
      | zero => simp [ofValue, value?, nesting]
      | succ d =>
        rw [ofValue, value?, values?_ofValues d items each, nesting]
        simp only [Nat.add_le_add_iff_right]
        split <;> rfl
  | .mapping fields, h => by
    cases h with
    | mapping sorted each =>
      cases depth with
      | zero => simp [ofValue, value?, nesting]
      | succ d =>
        rw [ofValue, value?, fieldValues?_ofFields d fields [] each,
          Entries.foldl_insert_eq_append (List.nil_append fields ▸ sorted), nesting]
        simp only [Nat.add_le_add_iff_right]
        split <;> rfl

theorem values?_ofValues (depth : Nat) : ∀ items : List Value, (∀ v ∈ items, v.Ordered) →
    values? depth (ofValues items) = if itemNesting items ≤ depth then some items else none
  | [], _ => by simp [ofValues, values?, itemNesting]
  | v :: rest, h => by
    obtain ⟨hfirst, hrest⟩ := List.forall_mem_cons.1 h
    rw [ofValues, values?, value?_ofValue depth v hfirst, values?_ofValues depth rest hrest, itemNesting]
    simp only [Nat.max_le]
    by_cases hv : v.nesting ≤ depth
    · by_cases hr : itemNesting rest ≤ depth <;> simp [hv, hr]
    · simp [hv]

theorem fieldValues?_ofFields (depth : Nat) : ∀ (fields : List (String × Value))
    (gathered : Entries Value), (∀ f ∈ fields, f.2.Ordered) →
    fieldValues? depth (ofFields fields) gathered =
      if fieldNesting fields ≤ depth then
        some (fields.foldl (fun g e => Entries.insert e.1 e.2 g) gathered)
      else none
  | [], gathered, _ => by simp [ofFields, fieldValues?, fieldNesting]
  | (k, v) :: rest, gathered, h => by
    obtain ⟨hfirst, hrest⟩ := List.forall_mem_cons.1 h
    have hvalue := value?_ofValue depth v hfirst
    by_cases hv : v.nesting ≤ depth
    · rw [if_pos hv] at hvalue
      simp only [ofFields, fieldValues?, hvalue, fieldNesting, Nat.max_le, hv, true_and]
      exact fieldValues?_ofFields depth rest _ hrest
    · rw [if_neg hv] at hvalue
      simp [ofFields, fieldValues?, hvalue, fieldNesting, Nat.max_le, hv]

end

/-! ## States -/

theorem go_ofFields (depth : Nat) (fields : List (String × Value)) (gathered : States)
    (h : ∀ f ∈ fields, f.2.Ordered) :
    states?.go depth (ofFields fields) gathered =
      if fieldNesting fields ≤ depth then
        some (fields.foldl (fun t e => t.insert e.1 e.2) gathered)
      else none := by
  induction fields generalizing gathered with
  | nil => simp [ofFields, states?.go, fieldNesting]
  | cons f rest ih =>
    obtain ⟨k, v⟩ := f
    obtain ⟨hfirst, hrest⟩ := List.forall_mem_cons.1 h
    have hvalue := value?_ofValue depth v hfirst
    by_cases hv : v.nesting ≤ depth
    · rw [if_pos hv] at hvalue
      simp only [ofFields, states?.go, hvalue, fieldNesting, Nat.max_le, hv, true_and]
      exact ih _ hrest
    · rw [if_neg hv] at hvalue
      simp [ofFields, states?.go, hvalue, fieldNesting, Nat.max_le, hv]

/-- **States are read back exactly when they do not nest too deeply.** -/
theorem states?_ofFields (depth : Nat) (t : States) (h : t.Ordered) :
    states? depth (.mapping (ofFields t.entries)) =
      if fieldNesting t.entries + 1 ≤ depth then some t else none := by
  cases depth with
  | zero => simp [states?]
  | succ d =>
    have hmade : t.entries.foldl (fun t e => t.insert e.1 e.2) Table.empty = t := t.ofList_entries
    rw [states?, go_ofFields d t.entries Table.empty h, hmade]
    simp only [Nat.add_le_add_iff_right]

end Tree

/-! ## Records -/

/-- Things that are read back one by one under a condition are read back together if all satisfy it. -/
theorem mapM_map_eq_ite {α β : Type} {f : α → Option β} {g : β → α} {p : β → Prop} [DecidablePred p]
    {l : List β} (h : ∀ x ∈ l, f (g x) = if p x then some x else none) :
    (l.map g).mapM f = if ∀ x ∈ l, p x then some l else none := by
  induction l with
  | nil => simp
  | cons x l ih =>
    obtain ⟨hfirst, hrest⟩ := List.forall_mem_cons.1 h
    rw [List.map_cons, List.mapM_cons, hfirst, ih hrest]
    by_cases hx : p x
    · by_cases hl : ∀ y ∈ l, p y
      · have hall : ∀ y ∈ x :: l, p y := List.forall_mem_cons.2 ⟨hx, hl⟩
        rw [if_pos hx, if_pos hl, if_pos hall]
        rfl
      · have hall : ¬ ∀ y ∈ x :: l, p y := fun hall => hl (List.forall_mem_cons.1 hall).2
        rw [if_pos hx, if_neg hl, if_neg hall]
        rfl
    · have hall : ¬ ∀ y ∈ x :: l, p y := fun hall => hx (List.forall_mem_cons.1 hall).1
      rw [if_neg hx, if_neg hall]
      rfl

namespace Record

open Value

/-- What a record needs to be read back, its depth apart: the bounds are finite, and the states are in
order. -/
structure Exportable (r : Record States) : Prop where
  /-- It begins at a finite time. -/
  low : r.low.isFinite = true
  /-- It ends at a finite time. -/
  high : r.high.isFinite = true
  /-- The states are in order. -/
  ordered : r.value.Ordered

theorem ofFloat_of_isFinite {x : Float} (h : x.isFinite = true) :
    Value.ofFloat x = .number (.binary x h) := by
  rw [Value.ofFloat, Number.ofFloat?, dif_pos h]

theorem nesting_toValue {r : Record States} (h : r.Exportable) :
    r.toValue.nesting = fieldNesting r.value.entries + 2 := by
  rw [toValue, ofFloat_of_isFinite h.low, ofFloat_of_isFinite h.high]
  simp [nesting, itemNesting]

/-- **A record is read back exactly when it does not nest too deeply.** -/
theorem ofTree?_toValue (depth : Nat) {r : Record States} (h : r.Exportable) :
    Record.ofTree? depth (Tree.ofValue r.toValue) =
      if r.toValue.nesting ≤ depth then some r else none := by
  have htree : Tree.ofValue r.toValue = .list [.number (.binary r.low h.low),
      .number (.binary r.high h.high), .mapping (Tree.ofFields r.value.entries)] := by
    rw [toValue, ofFloat_of_isFinite h.low, ofFloat_of_isFinite h.high]
    rfl
  rw [nesting_toValue h, htree]
  cases depth with
  | zero => simp [ofTree?]
  | succ d =>
    have hbounds : ofBounds? r.low r.high r.value = some r := dif_pos r.low_lt_high
    have hstates := Tree.states?_ofFields d r.value h.ordered
    by_cases hdepth : fieldNesting r.value.entries + 1 ≤ d
    · rw [if_pos hdepth] at hstates
      rw [if_pos (Nat.add_le_add_right hdepth 1)]
      simp only [ofTree?, Tree.float?, Number.toFloat, hstates, Option.bind_eq_bind, Option.bind_some,
        hbounds]
    · rw [if_neg hdepth] at hstates
      rw [if_neg (fun hle => hdepth (Nat.le_of_succ_le_succ hle))]
      simp only [ofTree?, Tree.float?, hstates, Option.bind_eq_bind, Option.bind_some, Option.bind_none]

/-- **A list of records is read back exactly when it does not nest too deeply.** -/
theorem listOfTree?_toValue (depth : Nat) {records : List (Record States)}
    (h : ∀ r ∈ records, r.Exportable) :
    Record.listOfTree? depth (Tree.ofValue (.list (records.map toValue))) =
      if (Value.list (records.map toValue)).nesting ≤ depth then some records else none := by
  rw [Tree.ofValue, Tree.ofValues_eq_map, List.map_map, nesting]
  cases depth with
  | zero => simp [listOfTree?]
  | succ d =>
    have hitems : itemNesting (records.map toValue) ≤ d ↔ ∀ r ∈ records, r.toValue.nesting ≤ d := by
      rw [itemNesting_le_iff, List.forall_mem_map]
    have hread : (records.map (Tree.ofValue ∘ toValue)).mapM (ofTree? d) =
        if ∀ r ∈ records, r.toValue.nesting ≤ d then some records else none :=
      mapM_map_eq_ite fun r hr => ofTree?_toValue d (h r hr)
    rw [listOfTree?, hread]
    simp only [Nat.add_le_add_iff_right, hitems]

end Record

end Orrery
