import Orrery.Proofs.ReadBack
import Mathlib.Data.List.Count

/-!
# Appends of different agents

Later records win, so a history depends on the order of its records.  But a record of one agent can win
only against records of the same agent.  If two histories hold, for every agent, the same records in the
same order, and differ only in how the records of different agents are mixed, nobody who reads them can
tell them apart.

* `Interleaved`: two lists of records are mixtures of the same records.
* `Interleaved.merge_eq`, `Interleaved.perm`: for one name the deciding record is the same, and the lists
  have the same records.
* `reads_of_interleaved`: histories made by adding the one list or the other give the same snapshot at
  every point, and the same values up to their order.
-/

namespace Orrery

universe u

namespace Store

variable {α : Type u}

/-- Add records to a history, one after the other. -/
def insertAll (s : Store α) (records : List (Record α)) : Except StoreError (Store α) :=
  records.foldlM (fun s r => s.insert r.low r.high r.value) s

/-- **A history takes records one by one**, and none is refused. -/
theorem insertAll_eq (s : Store α) (records : List (Record α)) :
    s.insertAll records = .ok ⟨s.records ++ records⟩ := by
  induction records generalizing s with
  | nil =>
    rw [List.append_nil]
    rfl
  | cons r rest ih =>
    have hfirst : s.insert r.low r.high r.value = .ok (s.append r) := s.insert_of_lt _ r.low_lt_high
    have hstep : s.insertAll (r :: rest) = (s.append r).insertAll rest := by
      rw [insertAll, List.foldlM_cons, hfirst]
      rfl
    rw [hstep, ih, records_append, List.append_assoc, List.singleton_append]

end Store

/-- Two lists of records are mixtures of the same records: every record is about one name, and for each
name both lists hold the same records in the same order. -/
structure Interleaved {α : Type u} (left right : List (Record (Table α))) : Prop where
  /-- Every record on the left is about one name. -/
  single_left : ∀ r ∈ left, ∃ name, r.value.keys = [name]
  /-- Every record on the right is about one name. -/
  single_right : ∀ r ∈ right, ∃ name, r.value.keys = [name]
  /-- What is said about a name, and in which order, is the same on both sides. -/
  same : ∀ name, left.filter (fun r => r.value.contains name) =
    right.filter (fun r => r.value.contains name)

namespace Interleaved

variable {α : Type u} {left right : List (Record (Table α))}

/-- A record about a name is listed as often among the records about that name. -/
theorem count_eq [DecidableEq (Record (Table α))] (h : Interleaved left right)
    {r : Record (Table α)} {name : String} (hname : r.value.keys = [name]) :
    left.count r = right.count r := by
  have hholds : r.value.contains name = true := by
    have hmem : name ∈ r.value.keys := by simp [hname]
    obtain ⟨state, hstate⟩ := Table.mem_keys_iff.1 hmem
    rw [Table.contains, hstate]
    rfl
  let about : Record (Table α) → Bool := fun r => r.value.contains name
  calc left.count r
      = (left.filter about).count r := (List.count_filter (p := about) hholds).symm
    _ = (right.filter about).count r := by rw [h.same name]
    _ = right.count r := List.count_filter (p := about) hholds

/-- **Mixtures of the same records have the same records.** -/
theorem perm (h : Interleaved left right) : left.Perm right := by
  classical
  refine List.perm_iff_count.2 fun r => ?_
  by_cases hleft : r ∈ left
  · obtain ⟨name, hname⟩ := h.single_left r hleft
    exact h.count_eq hname
  · by_cases hright : r ∈ right
    · obtain ⟨name, hname⟩ := h.single_right r hright
      exact h.count_eq hname
    · rw [List.count_eq_zero.2 hleft, List.count_eq_zero.2 hright]

/-- At a point, the records about a name are the same, also below a common beginning. -/
theorem about_eq (h : Interleaved left right) (front : List (Record (Table α))) (name : String)
    (point : Float) :
    (⟨front ++ left⟩ : Store (Table α)).about name point =
      (⟨front ++ right⟩ : Store (Table α)).about name point := by
  have hside : ∀ records : List (Record (Table α)),
      (⟨front ++ records⟩ : Store (Table α)).about name point =
        (⟨front⟩ : Store (Table α)).about name point ++
          (records.filter fun r => r.value.contains name).filter (·.contains point) := by
    intro records
    rw [Store.about, Store.about, List.filter_append, List.filter_filter]
  rw [hside, hside, h.same]

/-- **Mixtures of the same records make the same snapshots**: for every name the same record decides. -/
theorem merge_eq (h : Interleaved left right) (front : List (Record (Table α))) (point : Float) :
    (⟨front ++ left⟩ : Store (Table α)).merge point =
      (⟨front ++ right⟩ : Store (Table α)).merge point := by
  refine Table.ext_get? fun name => ?_
  rw [Store.get?_merge, Store.get?_merge, h.about_eq]

/-- The values at a point are the same up to their order. -/
theorem hits_perm (h : Interleaved left right) (front : List (Record (Table α))) (point : Float) :
    ((⟨front ++ left⟩ : Store (Table α)).hits point).Perm
      ((⟨front ++ right⟩ : Store (Table α)).hits point) :=
  ((h.perm.append_left front).filter _).map _

end Interleaved

/-- **Nobody can tell in which order different agents have added their records.**  Take two lists of
records that begin with the same seed and otherwise are mixtures of the same records.  Both can be added
to an empty history.  At every point the two histories give the same snapshot, and the same values up to
their order; in particular a point is found in both or in neither. -/
theorem Store.reads_of_interleaved {α : Type u} (seed : Record (Table α))
    {left right : List (Record (Table α))} (h : Interleaved left right) :
    ∃ a b : Store (Table α), Store.empty.insertAll (seed :: left) = .ok a ∧
      Store.empty.insertAll (seed :: right) = .ok b ∧
      ∀ point, a.merge point = b.merge point ∧ (a.hits point).Perm (b.hits point) ∧
        (a.query point = .error (.notFound point) ↔ b.query point = .error (.notFound point)) := by
  refine ⟨_, _, insertAll_eq _ _, insertAll_eq _ _, fun point => ?_⟩
  have hperm := h.hits_perm [seed] point
  refine ⟨h.merge_eq [seed] point, hperm, ?_⟩
  rw [query_eq_notFound_iff, query_eq_notFound_iff]
  exact ⟨fun hnil => (hnil ▸ hperm).nil_eq.symm, fun hnil => (hnil ▸ hperm).eq_nil⟩

/-! ## Two agents at once

The early agent has moved on twice while the late one moves on once, and its second record covers part
of its first. -/

namespace Belated

/-- A record of one agent. -/
def moved (agent : String) (low high : Float) (h : low < high) : Record States :=
  ⟨low, high, Table.single agent (stateAt high), h⟩

/-- The late agent comes second. -/
def lateSecond : List (Record States) :=
  [moved "early" 0.0 2.0 (by decide), moved "late" 1.0 3.0 (by decide),
    moved "early" 1.0 4.0 (by decide)]

/-- The late agent comes last. -/
def lateLast : List (Record States) :=
  [moved "early" 0.0 2.0 (by decide), moved "early" 1.0 4.0 (by decide),
    moved "late" 1.0 3.0 (by decide)]

theorem interleaved : Interleaved lateSecond lateLast := by
  have hsingle : ∀ r ∈ lateSecond ++ lateLast, ∃ name, r.value.keys = [name] := by
    simp [lateSecond, lateLast, moved]
  refine ⟨fun r hr => hsingle r (List.mem_append_left _ hr),
    fun r hr => hsingle r (List.mem_append_right _ hr), fun name => ?_⟩
  by_cases hearly : "early" = name
  · subst hearly
    simp [lateSecond, lateLast, moved]
  · simp [lateSecond, lateLast, moved, List.filter_cons, hearly]

end Belated

/-- Whether the late agent moves on between the two moves of the early one or after them, the snapshots
are the same. -/
theorem Store.belated_reads :
    Interleaved Belated.lateSecond Belated.lateLast ∧ Belated.lateSecond ≠ Belated.lateLast ∧
    ∃ seed : Record States, ∃ a b : Store States,
      Store.empty.insertAll (seed :: Belated.lateSecond) = .ok a ∧
      Store.empty.insertAll (seed :: Belated.lateLast) = .ok b ∧ a.merge 1.5 = b.merge 1.5 := by
  let seed : Record States := ⟨-10.0, 10.0, Belated.initial, by decide⟩
  obtain ⟨a, b, ha, hb, hreads⟩ := reads_of_interleaved seed Belated.interleaved
  exact ⟨Belated.interleaved, by decide, seed, a, b, ha, hb, (hreads 1.5).1⟩

end Orrery
