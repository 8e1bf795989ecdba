import Orrery.Table
import Mathlib.Data.List.Forall2

/-!
# More about tables

What the theory needs of tables beyond look-up after one insertion.

* On bare entries, two insertions under one name are the later one (`Entries.insert_insert_self`) and
  insertions under different names can be exchanged (`Entries.insert_comm`).  Neither asks for the list
  to be in order.  That matters because a mapping inside a value carries no proof of its order, and the
  writes of an agent's rules go through such mappings.  Only to put back what was found there does
  (`Entries.Sorted.insert_of_get?`).
* On tables, look-up and membership say the same (`Table.mem_entries_iff`), a table made of entries in
  order finds what is listed (`Table.get?_ofList`), and the names of a table are known from their
  membership (`Table.keys_eq_of_mem_iff`).
* Two tables are compared name by name (`Table.Rel`), as when the rules of every agent are listed in
  another order.
-/

namespace Orrery

universe u v

namespace Entries

variable {α : Type u}

/-! ## Insertions one after the other -/

/-- A second insertion under the same name replaces the first. -/
theorem insert_insert_self (name : String) (x y : α) (l : Entries α) :
    insert name y (insert name x l) = insert name y l := by
  induction l with
  | nil => simp [insert, String.lt_irrefl]
  | cons e l ih =>
    obtain ⟨k, v⟩ := e
    by_cases hk : k < name
    · simp only [insert, if_pos hk, ih]
    · by_cases hkn : k = name
      · subst hkn
        simp [insert, String.lt_irrefl]
      · simp [insert, hk, hkn, String.lt_irrefl]

/-- Insertions under two names, of which one is smaller, can be exchanged. -/
theorem insert_comm_of_lt {a b : String} (h : a < b) (x y : α) (l : Entries α) :
    insert a x (insert b y l) = insert b y (insert a x l) := by
  have hba : ¬ b < a := String.lt_asymm h
  have hne : b ≠ a := by
    rintro rfl
    exact String.lt_irrefl _ h
  induction l with
  | nil => simp [insert, h, hba, hne]
  | cons e l ih =>
    obtain ⟨k, v⟩ := e
    -- The first name of the list stands below both, is the smaller one, or is not below it.
    by_cases hka : k < a
    · have hkb : k < b := String.lt_trans hka h
      simp only [insert, if_pos hka, if_pos hkb, ih]
    · by_cases hkna : k = a
      · subst hkna
        simp [insert, h, String.lt_irrefl]
      · by_cases hkb : k < b
        · simp [insert, h, hka, hkna, hkb]
        · by_cases hknb : k = b
          · subst hknb
            simp [insert, h, hka, hkna, String.lt_irrefl]
          · simp [insert, h, hka, hkna, hkb, hknb, hba, hne]

/-- Insertions under different names can be exchanged. -/
theorem insert_comm {a b : String} (h : a ≠ b) (x y : α) (l : Entries α) :
    insert a x (insert b y l) = insert b y (insert a x l) := by
  rcases Std.lt_trichotomy a b with hab | hab | hab
  · exact insert_comm_of_lt hab x y l
  · exact absurd hab h
  · exact (insert_comm_of_lt hab y x l).symm

/-- In a list in order, to put a value where it is found changes nothing. -/
theorem Sorted.insert_of_get? {l : Entries α} (hl : Sorted l) {name : String} {value : α}
    (h : get? name l = some value) : Entries.insert name value l = l := by
  refine (hl.insert name value).ext hl fun other => ?_
  rw [get?_insert]
  split
  · next heq => rw [← heq, h]
  · rfl

/-! ## Look-up and membership -/

/-- What is found is listed. -/
theorem mem_of_get? {name : String} {value : α} {l : Entries α} (h : get? name l = some value) :
    (name, value) ∈ l := by
  induction l with
  | nil => simp at h
  | cons e l ih =>
    obtain ⟨k, v⟩ := e
    rw [get?_cons] at h
    by_cases hk : k = name
    · rw [if_pos hk, Option.some.injEq] at h
      simp [hk, h]
    · rw [if_neg hk] at h
      exact List.mem_cons_of_mem _ (ih h)

/-- In a list in order, what is listed is found. -/
theorem Sorted.get?_of_mem {name : String} {value : α} {l : Entries α} (hl : Sorted l)
    (h : (name, value) ∈ l) : get? name l = some value := by
  induction l with
  | nil => simp at h
  | cons e l ih =>
    obtain ⟨k, v⟩ := e
    obtain ⟨hlt, hl'⟩ := sorted_cons.1 hl
    rcases List.mem_cons.1 h with h | h
    · cases h
      rw [get?_cons, if_pos rfl]
    · have hne : k ≠ name := by
        rintro rfl
        exact String.lt_irrefl _ (hlt (k, value) h)
      rw [get?_cons, if_neg hne]
      exact ih hl' h

theorem get?_mapValues {β : Type v} (f : α → β) (l : Entries α) (name : String) :
    get? name (mapValues f l) = (get? name l).map f := by
  induction l with
  | nil => rfl
  | cons e l ih =>
    have hcons : mapValues f (e :: l) = (e.1, f e.2) :: mapValues f l := rfl
    rw [hcons, get?_cons, get?_cons, ih]
    by_cases hk : e.1 = name <;> simp [hk]

end Entries

namespace Table

variable {α : Type u}

@[simp] theorem get?_map {β : Type v} (f : α → β) (t : Table α) (name : String) :
    (t.map f).get? name = (t.get? name).map f :=
  Entries.get?_mapValues f t.entries name

@[simp] theorem keys_map {β : Type v} (f : α → β) (t : Table α) : (t.map f).keys = t.keys := by
  simp only [keys, map, Entries.mapValues, List.map_map]
  rfl

/-- An entry is listed exactly when it is found under its name. -/
theorem mem_entries_iff {t : Table α} {name : String} {value : α} :
    (name, value) ∈ t.entries ↔ t.get? name = some value :=
  ⟨fun h => t.sorted.get?_of_mem h, fun h => Entries.mem_of_get? h⟩

/-- A name is listed exactly when something is found under it. -/
theorem mem_keys_iff {t : Table α} {name : String} :
    name ∈ t.keys ↔ ∃ value, t.get? name = some value := by
  unfold keys
  constructor
  · intro h
    obtain ⟨⟨k, v⟩, he, rfl⟩ := List.mem_map.1 h
    exact ⟨v, mem_entries_iff.1 he⟩
  · rintro ⟨value, h⟩
    exact List.mem_map.2 ⟨(name, value), mem_entries_iff.2 h, rfl⟩

/-- No name is listed twice. -/
theorem nodup_keys (t : Table α) : t.keys.Nodup := by
  have hsorted : t.keys.Pairwise (· < ·) := List.pairwise_map.2 t.sorted
  refine hsorted.imp ?_
  rintro a b hlt rfl
  exact String.lt_irrefl _ hlt

/-- Tables with the same names list them in the same order. -/
theorem keys_eq_of_mem_iff {β : Type v} {t : Table α} {s : Table β}
    (h : ∀ name, name ∈ t.keys ↔ name ∈ s.keys) : t.keys = s.keys := by
  have hsorted : t.keys.Pairwise (· < ·) := List.pairwise_map.2 t.sorted
  have hsorted' : s.keys.Pairwise (· < ·) := List.pairwise_map.2 s.sorted
  have hperm := (List.perm_ext_iff_of_nodup t.nodup_keys s.nodup_keys).2 h
  exact hperm.eq_of_pairwise (fun a b _ _ hab hba => absurd hba (String.lt_asymm hab)) hsorted hsorted'

theorem insert_insert_self (t : Table α) (name : String) (x y : α) :
    (t.insert name x).insert name y = t.insert name y :=
  ext_entries (Entries.insert_insert_self name x y t.entries)

theorem insert_of_get? {t : Table α} {name : String} {value : α} (h : t.get? name = some value) :
    t.insert name value = t :=
  ext_entries (t.sorted.insert_of_get? h)

theorem get?_single (name : String) (value : α) (other : String) :
    (single name value).get? other = if name = other then some value else none := by
  rw [single, get?_insert, get?_empty]

@[simp] theorem keys_single (name : String) (value : α) : (single name value).keys = [name] := rfl

@[simp] theorem contains_single (name other : String) (value : α) :
    (single name value).contains other = decide (name = other) := by
  rw [contains, get?_single]
  by_cases h : name = other <;> simp [h]

/-! ## Tables out of lists -/

/-- Entries in order, put in one after the other: each is found, and the rest is as it was. -/
theorem get?_foldl_insert {l : Entries α} (hl : l.Sorted) (t : Table α) (name : String) :
    (l.foldl (fun t e => t.insert e.1 e.2) t).get? name = (Entries.get? name l).or (t.get? name) := by
  induction l generalizing t with
  | nil => simp
  | cons e l ih =>
    obtain ⟨k, v⟩ := e
    obtain ⟨hlt, hl'⟩ := Entries.sorted_cons.1 hl
    rw [List.foldl_cons, ih hl', Entries.get?_cons, get?_insert]
    by_cases hk : k = name
    · -- the first entry is the only one under its name
      subst hk
      rw [Entries.get?_eq_none_of_forall_lt hlt, if_pos rfl, if_pos rfl]
      rfl
    · rw [if_neg hk, if_neg hk]

/-- What is found after putting in entries one after the other is one of them or was there. -/
theorem mem_or_get?_of_foldl_insert {l : Entries α} {t : Table α} {name : String} {value : α}
    (h : (l.foldl (fun t e => t.insert e.1 e.2) t).get? name = some value) :
    (name, value) ∈ l ∨ t.get? name = some value := by
  induction l generalizing t with
  | nil => exact .inr h
  | cons e l ih =>
    rcases ih h with hmem | hget
    · exact .inl (List.mem_cons_of_mem _ hmem)
    · rw [get?_insert] at hget
      by_cases hk : e.1 = name
      · rw [if_pos hk, Option.some.injEq] at hget
        rw [← hk, ← hget]
        exact .inl (List.mem_cons_self ..)
      · rw [if_neg hk] at hget
        exact .inr hget

/-- What a table made of a list finds is listed, whatever the order. -/
theorem mem_of_get?_ofList {l : Entries α} {name : String} {value : α}
    (h : (ofList l).get? name = some value) : (name, value) ∈ l := by
  rcases mem_or_get?_of_foldl_insert h with hmem | hget
  · exact hmem
  · cases hget

/-- A table made of entries in order finds what is listed. -/
theorem get?_ofList {l : Entries α} (hl : l.Sorted) (name : String) :
    (ofList l).get? name = Entries.get? name l := by
  rw [ofList, get?_foldl_insert hl, get?_empty, Option.or_none]

/-- A table made of entries in order lists them. -/
theorem entries_ofList {l : Entries α} (hl : l.Sorted) : (ofList l).entries = l := by
  have htable : ofList l = ⟨l, hl⟩ := ext_get? fun name => get?_ofList hl name
  rw [htable]

/-- A table is made of its entries. -/
theorem ofList_entries (t : Table α) : ofList t.entries = t := ext_entries (entries_ofList t.sorted)

/-! ## Tables side by side -/

/-- In lists side by side, a member of the second has its partner in the first. -/
theorem exists_mem_of_forall₂ {β : Type v} {S : α → β → Prop} {l : List α} {m : List β}
    (h : List.Forall₂ S l m) {b : β} (hb : b ∈ m) : ∃ a ∈ l, S a b := by
  induction h with
  | nil => simp at hb
  | @cons a b' l m hab _ ih =>
    rcases List.mem_cons.1 hb with rfl | hb
    · exact ⟨a, List.mem_cons_self .., hab⟩
    · obtain ⟨a', ha', hrel⟩ := ih hb
      exact ⟨a', List.mem_cons_of_mem _ ha', hrel⟩

variable {β : Type v} {R : α → β → Prop} {t : Table α} {s : Table β}

/-- Two tables have the same names, and related values under each. -/
def Rel (R : α → β → Prop) (t : Table α) (s : Table β) : Prop :=
  List.Forall₂ (fun a b => a.1 = b.1 ∧ R a.2 b.2) t.entries s.entries

theorem Rel.exists_mem (h : Rel R t s) {b : String × β} (hb : b ∈ s.entries) :
    ∃ a ∈ t.entries, a.1 = b.1 ∧ R a.2 b.2 :=
  exists_mem_of_forall₂ h hb

theorem Rel.symm (h : Rel R t s) : Rel (fun b a => R a b) s t :=
  h.flip.imp fun _ _ hab => ⟨hab.1.symm, hab.2⟩

theorem Rel.exists_get? (h : Rel R t s) {name : String} {x : α} (hx : t.get? name = some x) :
    ∃ y, s.get? name = some y ∧ R x y := by
  obtain ⟨⟨k, y⟩, hmem, rfl, hrel⟩ := h.symm.exists_mem (mem_entries_iff.2 hx)
  exact ⟨y, mem_entries_iff.1 hmem, hrel⟩

theorem Rel.contains (h : Rel R t s) {name : String} (hname : t.contains name = true) :
    s.contains name = true := by
  obtain ⟨x, hx⟩ := Option.isSome_iff_exists.1 hname
  obtain ⟨y, hy, -⟩ := h.exists_get? hx
  exact Option.isSome_iff_exists.2 ⟨y, hy⟩

end Table

end Orrery
