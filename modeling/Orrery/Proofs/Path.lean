import Orrery.Proofs.Table
import Orrery.Query.Scope
import Mathlib.Data.List.Infix

/-!
# Paths into values

A writable query leads through fields of the subject's state, and what matters about it is the list of
those fields.  This file says what reading and writing mean for such a list.

* `Value.at?` follows a path and finds a value or nothing.
* `Value.put` stores a value at the end of a path.  Containers that are missing on the way become empty
  mappings; a container that is there and is no mapping makes it fail.
* `Value.store` does the same in place, and is left with a value also when it is given up.  It goes through
  exactly when `put` succeeds (`put_eq_some_iff`), and is given up at the one container that blocks the path
  (`store_snd_eq_some_iff`).

Reading after writing has three cases, by how the path read lies to the path written.  Below the path
written the new value is read (`at?_put_append`); strictly above it there is a mapping
(`at?_put_of_strict_prefix`); and beside it, where neither path begins the other, nothing has changed
(`at?_put_of_apart`).  Two writes beside each other can be exchanged, failures included (`store_comm`,
`put_comm`).

The last section ties this to queries: a query with a path reads by `at?` (`Scope.lookup?_of_path`),
assigns by `store` (`Scope.located_assign`) and writes by `put` (`Scope.write_eq_ok_iff`), so the spelling
of a query has no influence but through its path.
-/

namespace Orrery

/-- Neither path begins the other. -/
def Apart (p q : List String) : Prop := ¬ p <+: q ∧ ¬ q <+: p

theorem Apart.symm {p q : List String} (h : Apart p q) : Apart q p := ⟨h.2, h.1⟩

/-- What lies below one of two paths that are apart is apart from the other. -/
theorem Apart.append_left {p q : List String} (h : Apart p q) (r : List String) :
    Apart (p ++ r) q := by
  refine ⟨fun hpq => h.1 ((List.prefix_append p r).trans hpq), fun hqp => ?_⟩
  rcases List.prefix_or_prefix_of_prefix (List.prefix_append p r) hqp with hpq | hqp'
  · exact h.1 hpq
  · exact h.2 hqp'

/-- Paths that begin with one field are apart exactly when they are apart after it. -/
theorem apart_cons_self {f : String} {p q : List String} : Apart (f :: p) (f :: q) ↔ Apart p q := by
  simp [Apart, List.cons_prefix_cons]

/-- The path that leads nowhere begins every path. -/
theorem not_apart_nil_left (q : List String) : ¬ Apart [] q := fun h => h.1 List.nil_prefix

theorem not_apart_nil_right (p : List String) : ¬ Apart p [] := fun h => h.2 List.nil_prefix

theorem Apart.left_ne_nil {p q : List String} (h : Apart p q) : p ≠ [] := by
  rintro rfl
  exact not_apart_nil_left q h

theorem Apart.right_ne_nil {p q : List String} (h : Apart p q) : q ≠ [] := h.symm.left_ne_nil

namespace Value

/-! ## Following and changing -/

/-- The value at the end of a path. -/
def at? (v : Value) : List String → Option Value
  | [] => some v
  | f :: path => (v.field? f).bind fun w => w.at? path

/-- Change the value at the end of a path, through containers that are made where they are missing. -/
def changeAlong (change : Value → Option Value) : List String → Value → Option Value
  | [], v => change v
  | f :: path, .mapping fields =>
    (changeAlong change path ((Entries.get? f fields).getD (.mapping []))).map fun new =>
      .mapping (Entries.insert f new fields)
  | _ :: _, _ => none

/-- Store a value at the end of a path. -/
def put (v : Value) (path : List String) (value : Value) : Option Value :=
  changeAlong (fun _ => some value) path v

@[simp] theorem at?_nil (v : Value) : v.at? [] = some v := rfl

theorem at?_cons (v : Value) (f : String) (path : List String) :
    v.at? (f :: path) = (v.field? f).bind fun w => w.at? path := rfl

/-- A path in two parts is followed part by part. -/
theorem at?_append (v : Value) (p q : List String) :
    v.at? (p ++ q) = (v.at? p).bind fun w => w.at? q := by
  induction p generalizing v with
  | nil => rfl
  | cons f p ih =>
    rw [List.cons_append, at?_cons, at?_cons, Option.bind_assoc]
    congr 1
    funext w
    exact ih w

@[simp] theorem put_nil (v value : Value) : v.put [] value = some value := rfl

/-- A longer path goes into a mapping and stores into the field it names first. -/
theorem put_cons_eq_some_iff {v w value : Value} {f : String} {path : List String} :
    v.put (f :: path) value = some w ↔
      ∃ fields new, v = .mapping fields ∧
        put ((Entries.get? f fields).getD (.mapping [])) path value = some new ∧
        w = .mapping (Entries.insert f new fields) := by
  cases v with
  | mapping fields =>
    simp only [put, changeAlong, Option.map_eq_some_iff, Value.mapping.injEq]
    simp only [exists_and_left, exists_eq_left', eq_comm]
  | _ => simp [put, changeAlong]

/-! ## Storing in place

A value that is changed in place is left as something also when the change is given up.  So the answer has
two parts: what is left, and where a container without fields stood in the way, if one did. -/

/-- What a change in place leaves of a value, and the path of the obstacle that it met. -/
abbrev Revision := Value → Value × Option (List String)

/-- Change the value at the end of a path in place, through containers that are made where they are
missing. -/
def reviseAlong (revise : Revision) : List String → Revision
  | [], v => revise v
  | f :: path, .mapping fields =>
    let (new, obstacle) := reviseAlong revise path ((Entries.get? f fields).getD (.mapping []))
    (.mapping (Entries.insert f new fields), obstacle.map (f :: ·))
  | _ :: _, v => (v, some [])

/-- Store a value at the end of a path in place. -/
def store (v : Value) (path : List String) (value : Value) : Value × Option (List String) :=
  reviseAlong (fun _ => (value, none)) path v

@[simp] theorem store_nil (v value : Value) : v.store [] value = (value, none) := rfl

theorem store_mapping_cons (fields : Entries Value) (f : String) (path : List String) (value : Value) :
    (mapping fields).store (f :: path) value =
      (mapping (Entries.insert f (store ((Entries.get? f fields).getD (.mapping [])) path value).1 fields),
        (store ((Entries.get? f fields).getD (.mapping [])) path value).2.map (f :: ·)) := rfl

/-- A path in two parts is changed in place through both. -/
theorem reviseAlong_append (revise : Revision) (p q : List String) (v : Value) :
    reviseAlong revise (p ++ q) v = reviseAlong (reviseAlong revise q) p v := by
  induction p generalizing v with
  | nil => rfl
  | cons f p ih =>
    cases v with
    | mapping fields => rw [List.cons_append, reviseAlong, reviseAlong, ih]
    | _ => rfl

/-- **To store a value is to store it in place without an obstacle.** -/
theorem put_eq_some_iff {v w value : Value} {path : List String} :
    v.put path value = some w ↔ v.store path value = (w, none) := by
  induction path generalizing v w with
  | nil => simp
  | cons f path ih =>
    rw [put_cons_eq_some_iff]
    cases v with
    | mapping fields =>
      rw [store_mapping_cons, Prod.mk.injEq, Option.map_eq_none_iff]
      constructor
      · rintro ⟨fields', new, heq, hnew, rfl⟩
        obtain rfl := Value.mapping.inj heq
        rw [ih.1 hnew]
        exact ⟨rfl, rfl⟩
      · rintro ⟨rfl, hnone⟩
        exact ⟨fields, _, rfl, ih.2 (Prod.ext rfl hnone), rfl⟩
    | _ =>
      constructor
      · rintro ⟨fields, new, heq, -, -⟩
        cases heq
      · intro h
        cases h

/-! ## Reading after writing -/

/-- Below the path written, the new value is read. -/
theorem at?_put_append {v w value : Value} {path : List String} (h : v.put path value = some w)
    (rest : List String) : w.at? (path ++ rest) = value.at? rest := by
  induction path generalizing v w with
  | nil =>
    rw [put_nil, Option.some.injEq] at h
    rw [← h, List.nil_append]
  | cons f path ih =>
    obtain ⟨fields, new, rfl, hnew, rfl⟩ := put_cons_eq_some_iff.1 h
    rw [List.cons_append, at?_cons, field?_mapping, Entries.get?_insert, if_pos rfl,
      Option.bind_some]
    exact ih hnew

/-- Strictly above the path written there is a mapping. -/
theorem at?_put_of_strict_prefix {v w value : Value} {path above : List String}
    (h : v.put path value = some w) (hpre : above <+: path) (hne : above ≠ path) :
    ∃ fields, w.at? above = some (.mapping fields) := by
  induction path generalizing v w above with
  | nil => exact absurd (List.prefix_nil.1 hpre) hne
  | cons f path ih =>
    obtain ⟨fields, new, rfl, hnew, rfl⟩ := put_cons_eq_some_iff.1 h
    cases above with
    | nil => exact ⟨_, rfl⟩
    | cons g above =>
      obtain ⟨rfl, hpre'⟩ := List.cons_prefix_cons.1 hpre
      obtain ⟨inner, hinner⟩ := ih hnew hpre' fun heq => hne (by rw [heq])
      refine ⟨inner, ?_⟩
      rw [at?_cons, field?_mapping, Entries.get?_insert, if_pos rfl, Option.bind_some]
      exact hinner

/-- An empty mapping holds nothing below itself. -/
theorem at?_mapping_nil {path : List String} (h : path ≠ []) : (mapping []).at? path = none := by
  cases path with
  | nil => exact absurd rfl h
  | cons f path => rfl

/-- Beside the path written, nothing has changed. -/
theorem at?_put_of_apart {v w value : Value} {path beside : List String}
    (h : v.put path value = some w) (hap : Apart path beside) : w.at? beside = v.at? beside := by
  induction path generalizing v w beside with
  | nil => exact absurd hap (not_apart_nil_left beside)
  | cons f path ih =>
    obtain ⟨fields, new, rfl, hnew, rfl⟩ := put_cons_eq_some_iff.1 h
    cases beside with
    | nil => exact absurd hap (not_apart_nil_right _)
    | cons g beside =>
      rw [at?_cons, at?_cons, field?_mapping, field?_mapping, Entries.get?_insert]
      by_cases hfg : f = g
      · subst hfg
        have hap' : Apart path beside := apart_cons_self.1 hap
        rw [if_pos rfl, Option.bind_some, ih hnew hap']
        cases hf : Entries.get? f fields with
        | some old => rfl
        | none =>
          -- the container was made on the way, and the other path found nothing in it before
          exact at?_mapping_nil hap'.right_ne_nil
      · rw [if_neg hfg]

/-! ## What stands in the way -/

/-- A container on the way to the end of a path is there and is no mapping. -/
def Blocks (v : Value) (path above : List String) : Prop :=
  above <+: path ∧ above ≠ path ∧ ∃ u, v.at? above = some u ∧ ∀ fields, u ≠ .mapping fields

/-- Nothing stands in the way in an empty mapping. -/
theorem not_blocks_mapping_nil {path above : List String} : ¬ (mapping []).Blocks path above := by
  rintro ⟨-, -, u, hu, hmapping⟩
  cases above with
  | nil => exact hmapping [] (Option.some.inj hu).symm
  | cons f above => cases hu

/-- What stands in the way of a path through a mapping stands in the way of its rest, inside the field
that it names first. -/
theorem blocks_cons_iff {fields : Entries Value} {f : String} {path above : List String} :
    (mapping fields).Blocks (f :: path) above ↔
      ∃ rest, f :: rest = above ∧ ((Entries.get? f fields).getD (.mapping [])).Blocks path rest := by
  constructor
  · rintro ⟨hpre, hne, u, hu, hmapping⟩
    cases above with
    | nil => exact absurd (Option.some.inj hu).symm (hmapping fields)
    | cons g rest =>
      obtain ⟨rfl, hpre'⟩ := List.cons_prefix_cons.1 hpre
      obtain ⟨w, hw, hu'⟩ := Option.bind_eq_some_iff.1 hu
      rw [field?_mapping] at hw
      refine ⟨rest, rfl, hpre', fun heq => hne (by rw [heq]), u, ?_, hmapping⟩
      rwa [hw]
  · rintro ⟨rest, rfl, hblocks⟩
    cases hget : Entries.get? f fields with
    | none =>
      rw [hget] at hblocks
      exact absurd hblocks not_blocks_mapping_nil
    | some w =>
      rw [hget] at hblocks
      obtain ⟨hpre, hne, u, hu, hmapping⟩ := hblocks
      refine ⟨List.cons_prefix_cons.2 ⟨rfl, hpre⟩, fun heq => hne (List.cons.inj heq).2, u, ?_, hmapping⟩
      rwa [at?_cons, field?_mapping, hget]

/-- **A store is given up where its path is blocked.** -/
theorem store_snd_eq_some_iff {v value : Value} {path above : List String} :
    (v.store path value).2 = some above ↔ v.Blocks path above := by
  induction path generalizing v above with
  | nil =>
    constructor
    · intro h
      cases h
    · rintro ⟨hpre, hne, -⟩
      exact absurd (List.prefix_nil.1 hpre) hne
  | cons f path ih =>
    cases v with
    | mapping fields =>
      rw [store_mapping_cons, Option.map_eq_some_iff, blocks_cons_iff]
      simp only [ih, and_comm]
    | _ =>
      -- without fields there is nothing below, so the value itself is what stands in the way
      constructor
      · rintro ⟨⟩
        exact ⟨List.nil_prefix, nofun, _, rfl, nofun⟩
      · rintro ⟨-, -, u, hu, -⟩
        cases above with
        | nil => rfl
        | cons g above => cases hu

/-- Storing succeeds when whatever stands strictly above the end of the path is a mapping. -/
theorem exists_put_eq_some {v : Value} {path : List String} (value : Value)
    (h : ∀ above u, above <+: path → above ≠ path → v.at? above = some u →
      ∃ fields, u = .mapping fields) :
    ∃ w, v.put path value = some w := by
  have hnone : (v.store path value).2 = none := by
    refine Option.eq_none_iff_forall_ne_some.2 fun above habove => ?_
    obtain ⟨hpre, hne, u, hu, hmapping⟩ := store_snd_eq_some_iff.1 habove
    obtain ⟨fields, hfields⟩ := h above u hpre hne hu
    exact hmapping fields hfields
  exact ⟨_, put_eq_some_iff.2 (Prod.ext rfl hnone)⟩

/-! ## Several writes -/

/-- A store does not notice what has been stored beside it. -/
theorem store_snd_of_apart {p q : List String} (h : Apart p q) (x y v : Value) :
    ((v.store p x).1.store q y).2 = (v.store q y).2 := by
  induction p generalizing q v with
  | nil => exact absurd h (not_apart_nil_left q)
  | cons f p ih =>
    cases q with
    | nil => exact absurd h (not_apart_nil_right _)
    | cons g q =>
      cases v with
      | mapping fields =>
        simp only [store_mapping_cons, Entries.get?_insert]
        by_cases hfg : f = g
        · subst hfg
          rw [if_pos rfl, Option.getD_some, ih (apart_cons_self.1 h)]
        · rw [if_neg hfg]
      | _ => rfl

/-- **Stores beside each other can be exchanged**, whether they go through or not. -/
theorem store_comm {p q : List String} (h : Apart p q) (x y v : Value) :
    ((v.store p x).1.store q y).1 = ((v.store q y).1.store p x).1 := by
  induction p generalizing q v with
  | nil => exact absurd h (not_apart_nil_left q)
  | cons f p ih =>
    cases q with
    | nil => exact absurd h (not_apart_nil_right _)
    | cons g q =>
      cases v with
      | mapping fields =>
        simp only [store_mapping_cons, Entries.get?_insert]
        by_cases hfg : f = g
        · subst hfg
          rw [if_pos rfl, if_pos rfl, Option.getD_some, Option.getD_some, ih (apart_cons_self.1 h),
            Entries.insert_insert_self, Entries.insert_insert_self]
        · rw [if_neg hfg, if_neg (Ne.symm hfg), Entries.insert_comm hfg]
      | _ => rfl

/-- Two stores beside each other succeed when each of them would by itself. -/
theorem put_put_eq_some_iff {p q : List String} (h : Apart p q) {x y v w : Value} :
    ((v.put p x).bind fun u => u.put q y) = some w ↔
      (v.store p x).2 = none ∧ (v.store q y).2 = none ∧ ((v.store p x).1.store q y).1 = w := by
  simp only [Option.bind_eq_some_iff, put_eq_some_iff]
  constructor
  · rintro ⟨u, hfirst, hsecond⟩
    rw [← store_snd_of_apart h x y v, hfirst, hsecond]
    exact ⟨rfl, rfl, rfl⟩
  · rintro ⟨hfirst, hsecond, rfl⟩
    rw [← store_snd_of_apart h x y v] at hsecond
    exact ⟨_, Prod.ext rfl hfirst, Prod.ext rfl hsecond⟩

/-- **Writes beside each other can be exchanged**, and one that fails does so in either order. -/
theorem put_comm {p q : List String} (h : Apart p q) (x y v : Value) :
    ((v.put p x).bind fun w => w.put q y) = (v.put q y).bind fun w => w.put p x := by
  refine Option.ext fun w => ?_
  rw [put_put_eq_some_iff h, put_put_eq_some_iff h.symm, store_comm h, and_left_comm]

/-- The state that writes make, one after the other, out of nothing. -/
def assemble (writes : List (List String × Value)) : Option Value :=
  writes.foldlM (fun v w => v.put w.1 w.2) (.mapping [])

/-- Writes of which no path begins another. -/
def Scattered (writes : List (List String × Value)) : Prop :=
  writes.Pairwise fun a b => Apart a.1 b.1

@[simp] theorem assemble_nil : assemble [] = some (.mapping []) := rfl

theorem assemble_concat (writes : List (List String × Value)) (w : List String × Value) :
    assemble (writes ++ [w]) = (assemble writes).bind fun v => v.put w.1 w.2 := by
  simp [assemble, List.foldlM_append]

theorem scattered_concat {writes : List (List String × Value)} {w : List String × Value} :
    Scattered (writes ++ [w]) ↔ Scattered writes ∧ ∀ a ∈ writes, Apart a.1 w.1 := by
  simp [Scattered, List.pairwise_append]

/-- **Scattered writes make the same state in every order.** -/
theorem assemble_perm {writes others : List (List String × Value)} (h : writes.Perm others)
    (hs : Scattered writes) : assemble writes = assemble others := by
  unfold assemble
  generalize mapping [] = v
  induction h generalizing v with
  | nil => rfl
  | cons w _ ih =>
    simp only [List.foldlM_cons]
    refine bind_congr fun u => ?_
    exact ih (List.pairwise_cons.1 hs).2 u
  | swap a b l =>
    simp only [List.foldlM_cons, ← bind_assoc]
    refine congrArg (· >>= _) ?_
    exact put_comm ((List.pairwise_cons.1 hs).1 a (List.mem_cons_self ..)) b.2 a.2 v
  | trans h₁ _ ih₁ ih₂ =>
    have hs' := (h₁.pairwise_iff fun hab => hab.symm).1 hs
    exact (ih₁ hs v).trans (ih₂ hs' v)

/-- Below the path of a scattered write, the value written is read. -/
theorem at?_assemble_append {writes : List (List String × Value)} {v : Value}
    (h : assemble writes = some v) (hs : Scattered writes) {w : List String × Value}
    (hw : w ∈ writes) (rest : List String) : v.at? (w.1 ++ rest) = w.2.at? rest := by
  induction writes using List.reverseRecOn generalizing v with
  | nil => simp at hw
  | append_singleton writes last ih =>
    rw [assemble_concat, Option.bind_eq_some_iff] at h
    obtain ⟨u, hu, hput⟩ := h
    obtain ⟨hs', hap⟩ := scattered_concat.1 hs
    rcases List.mem_append.1 hw with hw | hw
    · rw [at?_put_of_apart hput ((hap w hw).append_left rest).symm]
      exact ih hu hs' hw
    · rw [List.mem_singleton.1 hw]
      exact at?_put_append hput rest

/-- Whatever is found in an assembled state lies above the path of a write, or comes from the value
written. -/
theorem at?_assemble_cases {writes : List (List String × Value)} {v u : Value} {path : List String}
    (h : assemble writes = some v) (hu : v.at? path = some u) :
    path = [] ∨ (∃ w ∈ writes, path <+: w.1) ∨
      ∃ w ∈ writes, ∃ rest, path = w.1 ++ rest ∧ w.2.at? rest = some u := by
  induction writes using List.reverseRecOn generalizing v with
  | nil =>
    rw [assemble_nil, Option.some.injEq] at h
    left
    by_contra hne
    rw [← h, at?_mapping_nil hne] at hu
    exact absurd hu (by simp)
  | append_singleton writes last ih =>
    rw [assemble_concat, Option.bind_eq_some_iff] at h
    obtain ⟨before, hbefore, hput⟩ := h
    have hlast : last ∈ writes ++ [last] := by simp
    by_cases habove : path <+: last.1
    · exact .inr (.inl ⟨last, hlast, habove⟩)
    · by_cases hbelow : last.1 <+: path
      · obtain ⟨rest, rfl⟩ := hbelow
        rw [at?_put_append hput] at hu
        exact .inr (.inr ⟨last, hlast, rest, rfl, hu⟩)
      · -- beside the last write the state is the one before it
        rw [at?_put_of_apart hput ⟨hbelow, habove⟩] at hu
        rcases ih hbefore hu with hnil | ⟨w, hw, hpre⟩ | ⟨w, hw, rest, heq, hrest⟩
        · exact .inl hnil
        · exact .inr (.inl ⟨w, List.mem_append_left _ hw, hpre⟩)
        · exact .inr (.inr ⟨w, List.mem_append_left _ hw, rest, heq, hrest⟩)

/-- Where no write has arrived yet, an assembled state holds mappings only. -/
theorem at?_assemble_mapping {writes : List (List String × Value)} {v u : Value} {path : List String}
    (h : assemble writes = some v) (hu : v.at? path = some u)
    (hnot : ∀ w ∈ writes, ¬ w.1 <+: path) : ∃ fields, u = .mapping fields := by
  induction writes using List.reverseRecOn generalizing v with
  | nil =>
    rw [assemble_nil, Option.some.injEq] at h
    subst h
    cases path with
    | nil => exact ⟨[], (Option.some.inj hu).symm⟩
    | cons f path => exact absurd hu (by simp [at?_mapping_nil])
  | append_singleton writes last ih =>
    rw [assemble_concat, Option.bind_eq_some_iff] at h
    obtain ⟨before, hbefore, hput⟩ := h
    have hbelow : ¬ last.1 <+: path := hnot last (by simp)
    by_cases habove : path <+: last.1
    · have hne : path ≠ last.1 := by
        rintro rfl
        exact hbelow (List.prefix_refl _)
      obtain ⟨fields, hfields⟩ := at?_put_of_strict_prefix hput habove hne
      rw [hfields, Option.some.injEq] at hu
      exact ⟨fields, hu.symm⟩
    · rw [at?_put_of_apart hput ⟨hbelow, habove⟩] at hu
      exact ih hbefore hu fun w hw => hnot w (List.mem_append_left _ hw)

/-- **One more scattered write always finds room.** -/
theorem exists_put_assemble {writes : List (List String × Value)} {v : Value}
    (h : assemble writes = some v) {path : List String} (hap : ∀ w ∈ writes, Apart w.1 path)
    (value : Value) : ∃ w, v.put path value = some w := by
  refine exists_put_eq_some value fun above u hpre _ hu => ?_
  refine at?_assemble_mapping h hu fun w hw hw' => ?_
  exact (hap w hw).1 (hw'.trans hpre)

end Value

/-! ## Queries that have a path -/

/-- The path of the container that stands in the way of a write. -/
def Query.WriteError.place? : Query.WriteError → Option (List String)
  | .notAMapping container => container.targetPath?
  | .illegalTarget _ => none

namespace Scope

/-- Only the root has the path that leads nowhere. -/
theorem targetPath?_eq_nil_iff {q : Query} : q.targetPath? = some [] ↔ q = .root := by
  cases q <;> simp [Query.targetPath?]

/-- **A query that has a path reads what is at its end.** -/
theorem lookup?_of_path (s : Scope) (states : States) (previous : Bool) {q : Query}
    {path : List String} (h : q.targetPath? = some path) :
    s.lookup? states previous q = (s.subject? states previous).bind fun v => v.at? path := by
  induction q using Query.targetPath?.induct generalizing path with
  | case1 =>
    cases h
    simp [lookup?]
  | case2 field =>
    cases h
    simp [lookup?, Value.at?]
  | case3 container field ih =>
    simp only [Query.targetPath?, Option.map_eq_some_iff] at h
    obtain ⟨path', hpath', rfl⟩ := h
    rw [lookup?, ih hpath', Option.bind_assoc]
    refine congrArg _ (funext fun v => ?_)
    rw [Value.at?_append]
    simp [Value.at?]
  | case4 q h1 h2 h3 => cases q <;> simp_all [Query.targetPath?]

/-- What a change in place by queries says about an obstacle, up to the spelling of the query. -/
def located {α : Type} (r : α × WriteOutcome) : α × Except (Option (List String)) Unit :=
  (r.1, r.2.mapError Query.WriteError.place?)

/-- What a change in place by a path says about an obstacle, when the path goes on from another one. -/
def reported {α : Type} (place : List String) (r : α × Option (List String)) :
    α × Except (Option (List String)) Unit :=
  (r.1, match r.2 with
    | none => .ok ()
    | some rest => .error (some (place ++ rest)))

/-- A change in place goes through exactly when there is no obstacle. -/
theorem eq_ok_iff_of_located {α : Type} {place : List String} {r : α × WriteOutcome}
    {x : α × Option (List String)} (h : located r = reported place x) {a : α} :
    r = (a, .ok ()) ↔ x = (a, none) := by
  obtain ⟨left, outcome⟩ := r
  obtain ⟨left', obstacle⟩ := x
  obtain ⟨rfl, hend⟩ := Prod.ext_iff.1 h
  cases outcome with
  | ok u =>
    cases obstacle with
    | none => simp [located]
    | some rest => cases hend
  | error e =>
    cases obstacle with
    | none => cases hend
    | some rest => simp

/-- Two changes in place of what stands at the end of a path. -/
def Agree (place : List String) (change : Change) (revise : Value.Revision) : Prop :=
  ∀ v, located (change v) = reported place (revise v)

/-- To change a field of a container is to change what is one field further. -/
theorem Agree.changeField {container : Query} {field : String} {place : List String} {change : Change}
    {revise : Value.Revision} (hplace : container.targetPath? = some place)
    (h : Agree (place ++ [field]) change revise) :
    Agree place (changeField container field change) (Value.reviseAlong revise [field]) := by
  intro v
  cases v with
  | mapping fields =>
    obtain ⟨hleft, hend⟩ := Prod.ext_iff.1 (h ((Entries.get? field fields).getD (.mapping [])))
    refine Prod.ext (congrArg (fun new => Value.mapping (Entries.insert field new fields)) hleft) ?_
    refine hend.trans ?_
    -- an obstacle further on is the same one, seen from the container
    simp only [reported, Value.reviseAlong]
    cases (revise ((Entries.get? field fields).getD (.mapping []))).2 with
    | none => rfl
    | some rest => simp
  | _ => simp [located, reported, Scope.changeField, Value.reviseAlong, Except.mapError,
      Query.WriteError.place?, hplace]

theorem located_changeState (states : States) (agent : String) {change : Change}
    {revise : Value.Revision} (h : Agree [] change revise) :
    located (changeState states agent change) =
      reported [] (Prod.map (states.insert agent) id
        (revise ((states.get? agent).getD (.mapping [])))) := by
  obtain ⟨hleft, hend⟩ := Prod.ext_iff.1 (h ((states.get? agent).getD (.mapping [])))
  exact Prod.ext (congrArg (states.insert agent) hleft) hend

/-- A query that has a path changes what is at its end, in the agent's state or an empty one. -/
theorem located_changeAt (states : States) (agent : String) {change : Change} {revise : Value.Revision}
    {q : Query} {path : List String} (h : q.targetPath? = some path) (hagree : Agree path change revise) :
    located (changeAt states agent change q) =
      reported [] (Prod.map (states.insert agent) id
        (Value.reviseAlong revise path ((states.get? agent).getD (.mapping [])))) := by
  induction q using Query.targetPath?.induct generalizing path change revise with
  | case1 =>
    cases h
    exact located_changeState states agent hagree
  | case2 field =>
    cases h
    exact located_changeState states agent (hagree.changeField rfl)
  | case3 container field ih =>
    simp only [Query.targetPath?, Option.map_eq_some_iff] at h
    obtain ⟨path', hpath', rfl⟩ := h
    rw [changeAt, ih hpath' (hagree.changeField hpath'), Value.reviseAlong_append]
  | case4 q h1 h2 h3 => cases q <;> simp_all [Query.targetPath?]

/-- **A query that has a path assigns at its end**, into the subject's state or an empty one. -/
theorem located_assign (s : Scope) (states : States) {q : Query} {path : List String}
    (h : q.targetPath? = some path) (hne : path ≠ []) (value : Value) :
    located (s.assign states q value) =
      reported [] (Prod.map (states.insert s.agent) id
        (((states.get? s.agent).getD (.mapping [])).store path value)) := by
  have hassign : s.assign states q value = changeAt states s.agent (fun _ => (value, .ok ())) q := by
    unfold assign
    split
    · rw [targetPath?_eq_nil_iff.2 rfl, Option.some.injEq] at h
      exact absurd h.symm hne
    · rfl
  rw [hassign]
  exact located_changeAt states s.agent h fun _ => rfl

/-- An assignment goes through exactly when nothing stands in the way. -/
theorem assign_eq_ok_iff (s : Scope) (states after : States) {q : Query} {path : List String}
    (h : q.targetPath? = some path) (hne : path ≠ []) (value : Value) :
    s.assign states q value = (after, .ok ()) ↔
      ∃ new, ((states.get? s.agent).getD (.mapping [])).store path value = (new, none) ∧
        after = states.insert s.agent new := by
  rw [eq_ok_iff_of_located (s.located_assign states h hne value)]
  generalize ((states.get? s.agent).getD (.mapping [])).store path value = stored
  obtain ⟨new, obstacle⟩ := stored
  constructor
  · rintro ⟨⟩
    exact ⟨new, rfl, rfl⟩
  · rintro ⟨_, ⟨⟩, rfl⟩
    rfl

/-- To write is to assign, where that goes through. -/
theorem write_eq_ok_iff_assign (s : Scope) (states after : States) (q : Query) (value : Value) :
    s.write states q value = .ok after ↔ s.assign states q value = (after, .ok ()) := by
  unfold write
  split
  · next h => rw [h, Except.ok.injEq, Prod.mk.injEq, and_iff_left rfl]
  · next h =>
    rw [h]
    exact ⟨nofun, nofun⟩

/-- A write fails as the assignment does. -/
theorem write_eq_error_iff (s : Scope) (states : States) (q : Query) (value : Value)
    (e : Query.WriteError) :
    s.write states q value = .error e ↔ (s.assign states q value).2 = .error e := by
  unfold write
  split
  · next h =>
    rw [h]
    exact ⟨nofun, nofun⟩
  · next h => rw [h, Except.error.injEq, Except.error.injEq]

/-- Writing to the root changes nothing. -/
@[simp] theorem write_root (s : Scope) (states : States) (value : Value) :
    s.write states .root value = .ok states := rfl

/-- **A query that has a path writes at its end**, into the subject's state or an empty one. -/
theorem write_eq_ok_iff (s : Scope) (states after : States) {q : Query} {path : List String}
    (h : q.targetPath? = some path) (hne : path ≠ []) (value : Value) :
    s.write states q value = .ok after ↔
      ∃ new, ((states.get? s.agent).getD (.mapping [])).put path value = some new ∧
        after = states.insert s.agent new := by
  rw [write_eq_ok_iff_assign, s.assign_eq_ok_iff states after h hne]
  simp only [Value.put_eq_some_iff]

end Scope

end Orrery
