import Orrery.Artifact.Export
import Orrery.Proofs.JsonText
import Orrery.Proofs.Nesting
import Mathlib.Algebra.GroupWithZero.Nat

/-!
# A history is read back from its text

The text of a history is that of a value with four fields.  Reading takes it apart again: the number of
the run from its digits, the name as it is, the time of writing, and the records engine by engine.  Each
part has a lemma of its own, and `RunExport.ofText?_text` puts them together.

* `RunId.ofText?_text`: the digits of a number in groups, read back.
* `RunExport.text_eq_pretty`: the fields stand in an order of their own, but they are laid out like those
  of any mapping.
* `RunExport.foldlM_ofFields`, `RunExport.ofText?_text`: the records of all engines, and then everything,
  are read back exactly when no state in them is too deep (`RunExport.Shallow`).  The history around a
  state takes five levels, which leaves 122 of the 127 that a reader follows.
-/

namespace Orrery

/-! ## The number of a run -/

namespace RunId

theorem digit?_digitChar {n : Nat} (h : n < 16) : digit? (Nat.digitChar n) = some n := by
  revert n
  decide

theorem length_digits (n count : Nat) : (digits n count).length = count := by
  induction count generalizing n with
  | zero => rfl
  | succ count ih => rw [digits, List.length_append, ih, List.length_singleton]

/-- Digits spell their number, as far as there are enough of them. -/
theorem foldl_digits (n count : Nat) :
    (digits n count).foldl (fun n d => do return 16 * (← n) + (← digit? d)) (some 0) =
      some (n % 16 ^ count) := by
  induction count generalizing n with
  | zero => simp [digits, Nat.mod_one]
  | succ count ih =>
    have hdigit : digit? (Nat.digitChar (n % 16)) = some (n % 16) :=
      digit?_digitChar (Nat.mod_lt _ (by decide))
    rw [digits, List.foldl_append, ih, List.foldl_cons, List.foldl_nil, hdigit]
    simp only [Option.bind_eq_bind, Option.bind_some, Option.pure_def, Option.some.injEq]
    rw [Nat.pow_succ', Nat.mod_mul, Nat.add_comm]

theorem ofDigits?_digits (id : RunId) : ofDigits? (digits id.value.toNat 32) = some id := by
  have hlt : id.value.toNat < 16 ^ 32 := id.value.isLt
  rw [ofDigits?, if_pos (length_digits _ _), foldl_digits, Nat.mod_eq_of_lt hlt]
  simp

/-- Digits that fill their groups can be put together again. -/
theorem ungrouped?_grouped {sizes : List Nat} {cs : List Char} (hne : sizes ≠ [])
    (h : cs.length = sizes.sum) : ungrouped? sizes (grouped sizes cs) = some cs := by
  induction sizes generalizing cs with
  | nil => exact absurd rfl hne
  | cons n sizes ih =>
    cases sizes with
    | nil =>
      rw [grouped, ungrouped?, if_pos]
      simpa using h
    | cons m sizes =>
      rw [List.sum_cons] at h
      have htake : (cs.take n).length = n := by
        rw [List.length_take]
        omega
      have hrest : (cs.drop n).length = (m :: sizes).sum := by
        rw [List.length_drop]
        omega
      rw [grouped, ungrouped?, List.drop_left' htake]
      · change (ungrouped? (m :: sizes) (grouped (m :: sizes) (cs.drop n))).map _ = _
        rw [ih (by simp) hrest, Option.map_some, List.take_left' htake, List.take_append_drop]
      all_goals simp

theorem length_grouped {sizes : List Nat} {cs : List Char} (hne : sizes ≠ [])
    (h : cs.length = sizes.sum) : (grouped sizes cs).length + 1 = cs.length + sizes.length := by
  induction sizes generalizing cs with
  | nil => exact absurd rfl hne
  | cons n sizes ih =>
    cases sizes with
    | nil => simp [grouped]
    | cons m sizes =>
      rw [List.sum_cons] at h
      have hrest : (cs.drop n).length = (m :: sizes).sum := by
        rw [List.length_drop]
        omega
      have hlength := ih (by simp) hrest
      rw [grouped, List.length_append, List.length_take, List.length_cons, List.length_cons]
      · rw [List.length_drop] at hlength hrest
        omega
      all_goals simp

/-- **The number of a run is read back from its text.** -/
theorem ofText?_text (id : RunId) : ofText? id.text = some id := by
  have hdigits : (digits id.value.toNat 32).length = groups.sum := length_digits _ _
  have hlength : (grouped groups (digits id.value.toNat 32)).length = 36 := by
    have h := length_grouped (by decide) hdigits
    rw [length_digits] at h
    simpa [groups] using h
  simp only [ofText?, text, String.toList_ofList, hlength]
  rw [if_neg (by decide), if_pos trivial, ofGroups?, ungrouped?_grouped (by decide) hdigits,
    Option.bind_some]
  exact ofDigits?_digits id

end RunId

/-! ## The whole history -/

namespace RunExport

variable {e : RunExport}

/-- The four parts of a history as one value. -/
def toValue (e : RunExport) : Value :=
  .mapping [("run_id", .text e.runId.text), ("name", .text e.name),
    ("created_at", .text e.createdAt.text), ("engines", e.enginesValue)]

/-- The text of a history is the text of its parts, over several lines. -/
theorem text_eq_pretty (e : RunExport) : e.text = e.toValue.pretty := by
  simp only [text, Value.pretty, toValue, Value.prettyChars, Value.prettyFields, Value.newline]
  simp

theorem numbers_toValue (e : RunExport) : e.toValue.numbers = e.enginesValue.numbers := by
  simp [toValue, Value.numbers, Value.fieldNumbers]

/-- Every record of a history can be read back as far as its depth allows. -/
def Exportable (e : RunExport) : Prop := ∀ x ∈ e.engines.entries, ∀ r ∈ x.2, Record.Exportable r

/-- How many levels a state may have: the history, its engines, their records, each record and its
states take five of those that a reader follows. -/
def stateDepth : Nat := Tree.depthLimit - 5

/-- No state of a history is too deep to be read back. -/
def Shallow (e : RunExport) : Prop :=
  ∀ x ∈ e.engines.entries, ∀ r ∈ x.2, ∀ state ∈ r.value.entries, state.2.nesting ≤ stateDepth

instance (e : RunExport) : Decidable e.Shallow :=
  inferInstanceAs (Decidable (∀ x ∈ e.engines.entries, ∀ r ∈ x.2, ∀ state ∈ r.value.entries,
    state.2.nesting ≤ stateDepth))

/-- The records of one engine as data. -/
def recordsValue (records : List (Record States)) : Value := .list (records.map Record.toValue)

theorem fieldNesting_mapValues_le_iff (depth : Nat) {l : Entries (List (Record States))}
    (h : ∀ x ∈ l, ∀ r ∈ x.2, Record.Exportable r) :
    Value.fieldNesting (l.mapValues recordsValue) ≤ depth + 3 ↔
      ∀ x ∈ l, ∀ r ∈ x.2, ∀ state ∈ r.value.entries, state.2.nesting ≤ depth := by
  rw [Value.fieldNesting_le_iff, Entries.mapValues, List.forall_mem_map]
  refine forall₂_congr fun x hx => ?_
  change Value.itemNesting (x.2.map Record.toValue) + 1 ≤ depth + 2 + 1 ↔ _
  rw [Nat.add_le_add_iff_right, Value.itemNesting_le_iff, List.forall_mem_map]
  refine forall₂_congr fun r hr => ?_
  rw [Record.nesting_toValue (h x hx r hr), Nat.add_le_add_iff_right, Value.fieldNesting_le_iff]

/-- **The records of all engines are read back exactly when they do not nest too deeply.** -/
theorem foldlM_ofFields (depth : Nat) {l : Entries (List (Record States))}
    (h : ∀ x ∈ l, ∀ r ∈ x.2, Record.Exportable r) (gathered : Table (List (Record States))) :
    (Tree.ofFields (l.mapValues recordsValue)).foldlM (fun t f => do
        let name ← f.1.text?
        let records ← Record.listOfTree? depth f.2
        return t.insert name records) gathered =
      if Value.fieldNesting (l.mapValues recordsValue) ≤ depth then
        some (l.foldl (fun t x => t.insert x.1 x.2) gathered)
      else none := by
  induction l generalizing gathered with
  | nil => simp [Entries.mapValues, Tree.ofFields, Value.fieldNesting]
  | cons x l ih =>
    obtain ⟨hfirst, hrest⟩ := List.forall_mem_cons.1 h
    have hcons : Entries.mapValues recordsValue (x :: l) =
        (x.1, recordsValue x.2) :: Entries.mapValues recordsValue l := rfl
    have hread : Record.listOfTree? depth (Tree.ofValue (recordsValue x.2)) =
        if (recordsValue x.2).nesting ≤ depth then some x.2 else none :=
      Record.listOfTree?_toValue depth hfirst
    rw [hcons, Tree.ofFields, List.foldlM_cons, Value.fieldNesting]
    dsimp only
    rw [hread]
    simp only [Nat.max_le]
    by_cases hx : (recordsValue x.2).nesting ≤ depth
    · simp only [hx, if_true, true_and, List.foldl_cons]
      exact ih hrest (gathered.insert x.1 x.2)
    · simp only [hx, if_false, false_and]
      rfl

theorem engines?_enginesValue (depth : Nat) (h : e.Exportable) :
    engines? (depth + 1) (Tree.ofValue e.enginesValue) =
      if Value.fieldNesting (e.engines.entries.mapValues recordsValue) ≤ depth then some e.engines
      else none := by
  have hmade : e.engines.entries.foldl (fun t x => t.insert x.1 x.2) Table.empty = e.engines :=
    e.engines.ofList_entries
  have hread := foldlM_ofFields depth h Table.empty
  rw [hmade] at hread
  exact hread

/-- **A history is read back from its text exactly when no state in it is too deep.**  What is assumed of
texts is that each number, and the time of writing, is read back from its own. -/
theorem ofText?_text (h : e.Exportable) (hnow : Instant.ofText? e.createdAt.text = some e.createdAt)
    (hnumbers : ∀ n ∈ e.enginesValue.numbers, n.reread? = some n) :
    ofText? e.text = if e.Shallow then some e else none := by
  have hshallow : Value.fieldNesting (e.engines.entries.mapValues recordsValue) ≤ stateDepth + 3 ↔
      e.Shallow := fieldNesting_mapValues_le_iff stateDepth h
  have hengines := engines?_enginesValue (stateDepth + 3) h
  rw [ofText?, text_eq_pretty, Tree.ofText?_pretty (by rwa [numbers_toValue]), Option.bind_some]
  have hparts : ofTree? (Tree.ofValue e.toValue) =
      ofParts? (stateDepth + 4) (.text e.runId.text) (.text e.name) (.text e.createdAt.text)
        (Tree.ofValue e.enginesValue) := by
    simp [toValue, Tree.ofValue, Tree.ofFields, ofTree?, Tree.namesReadable, Tree.named, Tree.text?]
    rfl
  rw [hparts, ofParts?, hengines]
  simp only [hshallow, Tree.text?, Option.bind_some, RunId.ofText?_text, hnow, Option.bind_eq_bind]
  split <;> rfl

end RunExport

end Orrery
