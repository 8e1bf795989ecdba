import Orrery.Proofs.Table
import Orrery.Store
import Mathlib.Data.List.Induction

/-!
# What a history says at a point of time

`Store.merge` lays tables over each other, oldest first.  For one name that comes to a single record:
the last one that contains the point and holds the name (`Store.get?_merge`).  The value it holds is
taken whole, and all other records might as well not be there.

A record added later matters at the points it contains and nowhere else (`Store.merge_append`).  So
whoever wants to know that a reading in the past is final has to show only that no later record reaches
back to it.
-/

namespace Orrery

universe u

/-- What is found in one table laid over another. -/
theorem Table.get?_overlay {α : Type u} (base top : Table α) (name : String) :
    (base.overlay top).get? name = (top.get? name).or (base.get? name) :=
  get?_foldl_insert top.sorted base name

theorem Record.contains_iff {α : Type u} {r : Record α} {point : Float} :
    r.contains point = true ↔ r.low ≤ point ∧ point < r.high := decide_eq_true_iff

namespace Store

variable {α : Type u}

theorem hits_append (s : Store α) (r : Record α) (point : Float) :
    (s.append r).hits point = s.hits point ++ if r.contains point = true then [r.value] else [] := by
  rw [hits, hits, records_append, List.filter_append, List.map_append]
  by_cases h : r.contains point = true
  · simp [h]
  · simp [h]

/-- A question is answered with the values at the point, if there are any. -/
theorem query_eq_ok_iff (s : Store α) (point : Float) (values : List α) :
    s.query point = .ok values ↔ values ≠ [] ∧ s.hits point = values := by
  unfold query
  split
  · next hnil =>
    refine ⟨nofun, fun ⟨hne, heq⟩ => ?_⟩
    rw [hnil] at heq
    exact absurd heq.symm hne
  · next found hsome =>
    rw [Except.ok.injEq]
    constructor
    · rintro rfl
      exact ⟨hsome, rfl⟩
    · exact fun h => h.2

/-- A point is found nowhere exactly when no record contains it. -/
theorem query_eq_notFound_iff (s : Store α) (point : Float) :
    s.query point = .error (.notFound point) ↔ s.hits point = [] := by
  unfold query
  split
  · next hnil => simp [hnil]
  · next hsome => simpa using hsome

/-- **A record added later matters at the points it contains.** -/
theorem merge_append (s : Store (Table α)) (r : Record (Table α)) (point : Float) :
    (s.append r).merge point =
      if r.contains point = true then (s.merge point).overlay r.value else s.merge point := by
  rw [merge, merge, hits_append, List.foldl_append]
  by_cases h : r.contains point = true
  · rw [if_pos h, if_pos h]
    rfl
  · rw [if_neg h, if_neg h]
    rfl

theorem merge_append_of_not_contains (s : Store (Table α)) {r : Record (Table α)} {point : Float}
    (h : r.contains point = false) : (s.append r).merge point = s.merge point := by
  rw [merge_append, if_neg (by simp [h])]

/-- The records that hold a name at a point, oldest first. -/
def about (s : Store (Table α)) (name : String) (point : Float) : List (Record (Table α)) :=
  s.records.filter fun r => r.contains point && r.value.contains name

theorem about_append (s : Store (Table α)) (r : Record (Table α)) (name : String) (point : Float) :
    (s.append r).about name point =
      s.about name point ++ if (r.contains point && r.value.contains name) = true then [r] else [] := by
  rw [about, about, records_append, List.filter_append]
  by_cases h : (r.contains point && r.value.contains name) = true
  · simp [h]
  · simp [h]

/-- **The last record that contains the point and holds the name decides.** -/
theorem get?_merge (s : Store (Table α)) (point : Float) (name : String) :
    (s.merge point).get? name = (s.about name point).getLast?.bind fun r => r.value.get? name := by
  obtain ⟨records⟩ := s
  induction records using List.reverseRecOn with
  | nil => rfl
  | append_singleton rest r ih =>
    have happend : (⟨rest ++ [r]⟩ : Store (Table α)) = append ⟨rest⟩ r := rfl
    rw [happend, merge_append, about_append]
    by_cases hpoint : r.contains point = true
    · rw [if_pos hpoint, Table.get?_overlay, ih]
      cases hname : r.value.get? name with
      | none => simp [Table.contains, hname]
      | some value => simp [Table.contains, hname, hpoint]
    · simp only [Bool.not_eq_true] at hpoint
      simp [hpoint, ih]

/-- What is found at a point stands in a record. -/
theorem exists_mem_of_get?_merge {s : Store (Table α)} {point : Float} {name : String} {value : α}
    (h : (s.merge point).get? name = some value) :
    ∃ r ∈ s.records, r.value.get? name = some value := by
  rw [get?_merge] at h
  obtain ⟨r, hr, hvalue⟩ := Option.bind_eq_some_iff.1 h
  have hmem : r ∈ s.about name point := List.mem_of_getLast? hr
  exact ⟨r, (List.mem_filter.1 hmem).1, hvalue⟩

end Store

end Orrery
