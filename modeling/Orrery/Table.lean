/-!
# Tables keyed by name

Every mapping of the simulator — an agent's fields, the agents of an engine, the engines of a run — is
listed in the order of its names and holds each name once.  This file makes that the *type*: a
`Table` is a list of entries whose names increase strictly.

Two layers are kept apart.

* `Entries` is the bare list.  It is what a value of the data model holds inside itself, where no
  proof can be carried along, and every operation on it is meant for lists in order.
* `Table` is the list together with the proof.  Since the order is canonical, a table *is* its
  look-up function: `Table.ext_get?` says that two tables with the same answers are equal.

The order is that of `String`, code point by code point, which is also the order of the UTF-8 bytes.
-/

namespace Orrery

universe u v

/-- A list of named things, meant to be in order. -/
abbrev Entries (α : Type u) := List (String × α)

namespace Entries

variable {α : Type u} {β : Type v}

/-- The entry under a name. -/
def get? (name : String) : Entries α → Option α
  | [] => none
  | (k, v) :: rest => if k = name then some v else get? name rest

/-- Put a value under a name, replacing what stood there; a new name goes before the first larger one. -/
def insert (name : String) (value : α) : Entries α → Entries α
  | [] => [(name, value)]
  | (k, v) :: rest =>
    if k < name then (k, v) :: insert name value rest
    else if k = name then (name, value) :: rest
    else (name, value) :: (k, v) :: rest

/-- Drop the entry under a name. -/
def erase (name : String) : Entries α → Entries α
  | [] => []
  | (k, v) :: rest => if k = name then rest else (k, v) :: erase name rest

/-- Names strictly increase. -/
def Sorted (l : Entries α) : Prop := l.Pairwise fun a b => a.1 < b.1

@[simp] theorem sorted_nil : Sorted ([] : Entries α) := List.Pairwise.nil

theorem sorted_cons {e : String × α} {l : Entries α} :
    Sorted (e :: l) ↔ (∀ x ∈ l, e.1 < x.1) ∧ Sorted l := List.pairwise_cons

@[simp] theorem get?_nil (name : String) : get? name ([] : Entries α) = none := rfl

theorem get?_cons (name k : String) (v : α) (l : Entries α) :
    get? name ((k, v) :: l) = if k = name then some v else get? name l := rfl

/-- A name below every listed one is not listed. -/
theorem get?_eq_none_of_forall_lt {name : String} {l : Entries α} (h : ∀ x ∈ l, name < x.1) :
    get? name l = none := by
  induction l with
  | nil => rfl
  | cons e l ih =>
    obtain ⟨k, v⟩ := e
    have hk : name < k := h (k, v) (by simp)
    have hne : k ≠ name := by
      rintro rfl
      exact String.lt_irrefl _ hk
    rw [get?_cons, if_neg hne]
    exact ih fun x hx => h x (List.mem_cons_of_mem _ hx)

/-- Whatever is listed after an insertion was there before, or is the new entry. -/
theorem mem_insert {name : String} {value : α} {l : Entries α} {x : String × α}
    (h : x ∈ insert name value l) : x = (name, value) ∨ x ∈ l := by
  induction l with
  | nil => simp [insert] at h; exact .inl h
  | cons e l ih =>
    obtain ⟨k, v⟩ := e
    unfold insert at h
    split at h
    · rcases List.mem_cons.1 h with h | h
      · exact .inr (by simp [h])
      · exact (ih h).imp_right (List.mem_cons_of_mem _)
    · split at h
      · rcases List.mem_cons.1 h with h | h
        · exact .inl h
        · exact .inr (List.mem_cons_of_mem _ h)
      · rcases List.mem_cons.1 h with h | h
        · exact .inl h
        · exact .inr h

theorem Sorted.insert {l : Entries α} (h : Sorted l) (name : String) (value : α) :
    Sorted (Entries.insert name value l) := by
  induction l with
  | nil => simp [Entries.insert, Sorted]
  | cons e l ih =>
    obtain ⟨k, v⟩ := e
    obtain ⟨hlt, hl⟩ := sorted_cons.1 h
    unfold Entries.insert
    split
    · next hk =>
      refine sorted_cons.2 ⟨fun x hx => ?_, ih hl⟩
      rcases mem_insert hx with rfl | hx
      · exact hk
      · exact hlt x hx
    · next hk =>
      split
      · next hkn =>
        subst hkn
        exact sorted_cons.2 ⟨fun x hx => hlt x hx, hl⟩
      · next hkn =>
        have hlt' : name < k :=
          Std.lt_of_le_of_ne (String.not_lt.1 hk) (Ne.symm hkn)
        refine sorted_cons.2 ⟨fun x hx => ?_, h⟩
        rcases List.mem_cons.1 hx with rfl | hx
        · exact hlt'
        · exact String.lt_trans hlt' (hlt x hx)

/-- Reading after an insertion: the new value under its name, the old answer elsewhere. -/
theorem get?_insert {l : Entries α} (name : String) (value : α) (other : String) :
    get? other (insert name value l) = if name = other then some value else get? other l := by
  induction l with
  | nil => simp [insert, get?_cons]
  | cons e l ih =>
    obtain ⟨k, v⟩ := e
    unfold insert
    split
    · next hk =>
      rw [get?_cons, ih, get?_cons]
      by_cases h : name = other
      · subst h
        have hne : k ≠ name := by
          rintro rfl
          exact String.lt_irrefl _ hk
        simp [hne]
      · simp [h]
    · split
      · next hkn =>
        subst hkn
        rw [get?_cons, get?_cons]
        by_cases h : k = other <;> simp [h]
      · rw [get?_cons]

theorem mem_erase {name : String} {l : Entries α} {x : String × α}
    (h : x ∈ erase name l) : x ∈ l := by
  induction l with
  | nil => simp [erase] at h
  | cons e l ih =>
    obtain ⟨k, v⟩ := e
    unfold erase at h
    split at h
    · exact List.mem_cons_of_mem _ h
    · rcases List.mem_cons.1 h with h | h
      · simp [h]
      · exact List.mem_cons_of_mem _ (ih h)

theorem Sorted.erase {l : Entries α} (h : Sorted l) (name : String) :
    Sorted (Entries.erase name l) := by
  induction l with
  | nil => simp [Entries.erase]
  | cons e l ih =>
    obtain ⟨k, v⟩ := e
    obtain ⟨hlt, hl⟩ := sorted_cons.1 h
    unfold Entries.erase
    split
    · exact hl
    · exact sorted_cons.2 ⟨fun x hx => hlt x (mem_erase hx), ih hl⟩

/-- Lists in order with the same answers are the same list. -/
theorem Sorted.ext {l m : Entries α} (hl : Sorted l) (hm : Sorted m)
    (h : ∀ name, get? name l = get? name m) : l = m := by
  induction l generalizing m with
  | nil =>
    cases m with
    | nil => rfl
    | cons f m =>
      obtain ⟨k, v⟩ := f
      have := h k
      simp [get?_cons] at this
  | cons e l ih =>
    obtain ⟨k, v⟩ := e
    obtain ⟨hkl, hl'⟩ := sorted_cons.1 hl
    cases m with
    | nil =>
      have := h k
      simp [get?_cons] at this
    | cons f m =>
      obtain ⟨k', v'⟩ := f
      obtain ⟨hkm, hm'⟩ := sorted_cons.1 hm
      -- The two heads carry the same name: the smaller one would be listed on one side only.
      have hkk : k = k' := by
        rcases Std.lt_trichotomy k k' with hlt | heq | hgt
        · have hnone : get? k ((k', v') :: m) = none :=
            get?_eq_none_of_forall_lt fun x hx => by
              rcases List.mem_cons.1 hx with rfl | hx
              · exact hlt
              · exact String.lt_trans hlt (hkm x hx)
          have := h k
          rw [hnone, get?_cons, if_pos rfl] at this
          cases this
        · exact heq
        · have hnone : get? k' ((k, v) :: l) = none :=
            get?_eq_none_of_forall_lt fun x hx => by
              rcases List.mem_cons.1 hx with rfl | hx
              · exact hgt
              · exact String.lt_trans hgt (hkl x hx)
          have := h k'
          rw [hnone, get?_cons, if_pos rfl] at this
          cases this
      subst hkk
      have hv : v = v' := by
        have := h k
        simpa [get?_cons] using this
      subst hv
      have htail : l = m := by
        refine ih hl' hm' fun name => ?_
        by_cases hn : k = name
        · subst hn
          rw [get?_eq_none_of_forall_lt hkl, get?_eq_none_of_forall_lt hkm]
        · have := h name
          simpa [get?_cons, hn] using this
      rw [htail]

/-- Apply a function to every value. -/
def mapValues (f : α → β) (l : Entries α) : Entries β := l.map fun e => (e.1, f e.2)

theorem Sorted.mapValues {l : Entries α} (h : Sorted l) (f : α → β) :
    Sorted (Entries.mapValues f l) := by
  induction l with
  | nil => simp [Entries.mapValues]
  | cons e l ih =>
    obtain ⟨hlt, hl⟩ := sorted_cons.1 h
    refine sorted_cons.2 ⟨fun x hx => ?_, ih hl⟩
    obtain ⟨y, hy, rfl⟩ := List.mem_map.1 hx
    exact hlt y hy

end Entries

/-- A mapping from names, listed in the order of the names. -/
structure Table (α : Type u) where
  /-- The entries in order. -/
  entries : Entries α
  /-- Each name stands once and in its place. -/
  sorted : entries.Sorted

namespace Table

variable {α : Type u} {β : Type v}

instance [DecidableEq α] : DecidableEq (Table α) := fun a b =>
  if h : a.entries = b.entries then isTrue (by cases a; cases b; simp_all)
  else isFalse fun hab => h (congrArg entries hab)

/-- The table without entries. -/
def empty : Table α := ⟨[], Entries.sorted_nil⟩

instance : EmptyCollection (Table α) := ⟨empty⟩
instance : Inhabited (Table α) := ⟨empty⟩

/-- The value under a name. -/
def get? (t : Table α) (name : String) : Option α := t.entries.get? name

/-- Put a value under a name; the later of two writes wins. -/
def insert (t : Table α) (name : String) (value : α) : Table α :=
  ⟨t.entries.insert name value, t.sorted.insert name value⟩

/-- Remove a name. -/
def erase (t : Table α) (name : String) : Table α :=
  ⟨t.entries.erase name, t.sorted.erase name⟩

/-- The names in order. -/
def keys (t : Table α) : List String := t.entries.map (·.1)

/-- The values in the order of their names. -/
def values (t : Table α) : List α := t.entries.map (·.2)

/-- How many names there are. -/
def size (t : Table α) : Nat := t.entries.length

/-- Whether a name is present. -/
def contains (t : Table α) (name : String) : Bool := (t.get? name).isSome

/-- Whether there is no entry. -/
def isEmpty (t : Table α) : Bool := t.entries.isEmpty

/-- The table with one entry. -/
def single (name : String) (value : α) : Table α := empty.insert name value

/-- Entries put in one after the other: of two with one name the later stays. -/
def ofList (l : List (String × α)) : Table α :=
  l.foldl (fun t e => t.insert e.1 e.2) empty

/-- Apply a function to every value. -/
def map (f : α → β) (t : Table α) : Table β :=
  ⟨t.entries.mapValues f, t.sorted.mapValues f⟩

/-- Apply a function that may fail to every entry, in order; the first failure ends it. -/
def mapEntries {ε : Type v} {β : Type v} (f : String → α → Except ε β) (t : Table α) :
    Except ε (Table β) :=
  t.entries.foldlM (fun built e => (f e.1 e.2).map (built.insert e.1)) empty

/-- Lay one table over another: entries of `top` replace those of `base` name by name. -/
def overlay (base top : Table α) : Table α :=
  top.entries.foldl (fun t e => t.insert e.1 e.2) base

theorem ext_entries {t s : Table α} (h : t.entries = s.entries) : t = s := by
  cases t; cases s; simp_all

/-- **A table is its look-up function.** -/
theorem ext_get? {t s : Table α} (h : ∀ name, t.get? name = s.get? name) : t = s :=
  ext_entries (t.sorted.ext s.sorted h)

@[simp] theorem get?_empty (name : String) : (empty : Table α).get? name = none := rfl

theorem get?_insert (t : Table α) (name : String) (value : α) (other : String) :
    (t.insert name value).get? other = if name = other then some value else t.get? other :=
  Entries.get?_insert name value other

@[simp] theorem get?_insert_self (t : Table α) (name : String) (value : α) :
    (t.insert name value).get? name = some value := by simp [get?_insert]

theorem get?_insert_of_ne (t : Table α) {name other : String} (value : α) (h : name ≠ other) :
    (t.insert name value).get? other = t.get? other := by simp [get?_insert, h]

end Table

end Orrery
