import Orrery.Proofs.JsonText
import Orrery.Proofs.Nesting
import Orrery.Provider

/-!
# Queries and their texts

A query is written as a mapping of its kind and its content, and the text of that mapping is read back.
Writers do not agree on the order of the two fields, nor on the order of the container and the field of an
access, so `Query.Written` relates a query to all of its forms: at every node the order is chosen anew.

The reader takes these forms by different ways.  A content that stands before its kind is set aside first,
which costs a test of its own (`Tree.readable`), and what is inside is then read under another rule.  For
written queries none of this makes a difference but for depth, and depth is counted in the same way
everywhere:

* `Tree.readable_ofValue`: what is set aside is readable exactly when it does not nest too deeply.
* `Query.ofTree?_node`: a node is its content, read in one of the two ways.
* `Query.nesting`, `Query.nesting_of_written`: how many levels a query takes, in whatever order it is
  written.
* `Query.ofTree?_written`: a written query is read back exactly when it does not nest too deeply.
* `Query.written_round_trip`: so it is for texts.  Whatever names stand in a query, its text has only one
  reading, and two queries have no text in common.
-/

namespace Orrery

namespace Tree

open Value

mutual

/-- **A value is readable exactly when it does not nest too deeply.** -/
theorem readable_ofValue (depth : Nat) :
    ∀ v : Value, readable depth (ofValue v) = decide (v.nesting ≤ depth)
  | .null | .bool _ | .number _ | .text _ => by simp [ofValue, readable, nesting]
  | .list items => by
    cases depth with
    | zero => simp [ofValue, readable, nesting]
    | succ d =>
      rw [ofValue, readable, readableItems_ofValues d items, nesting]
      simp only [Nat.add_le_add_iff_right]
  | .mapping fields => by
    cases depth with
    | zero => simp [ofValue, readable, nesting]
    | succ d =>
      rw [ofValue, readable, readableFields_ofFields d fields, nesting]
      simp only [Nat.add_le_add_iff_right]

theorem readableItems_ofValues (depth : Nat) : ∀ items : List Value,
    readableItems depth (ofValues items) = decide (itemNesting items ≤ depth)
  | [] => by simp [ofValues, readableItems, itemNesting]
  | v :: rest => by
    rw [ofValues, readableItems, readable_ofValue depth v, readableItems_ofValues depth rest, itemNesting]
    simp only [Nat.max_le, Bool.decide_and]

theorem readableFields_ofFields (depth : Nat) : ∀ fields : List (String × Value),
    readableFields depth (ofFields fields) = decide (fieldNesting fields ≤ depth)
  | [] => by simp [ofFields, readableFields, fieldNesting]
  | (k, v) :: rest => by
    rw [ofFields, readableFields, readable_ofValue depth v, readableFields_ofFields depth rest,
      fieldNesting]
    simp only [readable, Nat.max_le, Bool.decide_and, Bool.true_and]

end

end Tree

namespace Query

open Orrery.Tree

/-! ## The forms of a query -/

mutual

/-- How many levels of mappings and lists the wire form takes. -/
def nesting : Query → Nat
  | .root | .agent _ | .base _ => 1
  | .prev inner => nesting inner + 1
  | .access container _ => nesting container + 2
  | .tuple items => itemNesting items + 2

/-- How many levels the items of a tuple take. -/
def itemNesting : List Query → Nat
  | [] => 0
  | q :: rest => max (nesting q) (itemNesting rest)

end

/-- A node of the wire form; its two fields come in either order. -/
def node (kind : Kind) (content : Value) : Bool → Value
  | false => .mapping [("kind", .text kind.name), ("content", content)]
  | true => .mapping [("content", content), ("kind", .text kind.name)]

/-- The content of an access; its two fields come in either order. -/
def accessContent (container : Value) (field : String) : Bool → Value
  | false => .mapping [("base", container), ("field", .text field)]
  | true => .mapping [("field", .text field), ("base", container)]

mutual

/-- A query written out, with the order of the fields chosen at every node; the root needs no content. -/
inductive Written : Query → Value → Prop
  | prev {inner : Query} {v : Value} (swapped : Bool) (h : Written inner v) :
      Written (.prev inner) (node .prev v swapped)
  | bareRoot : Written .root (.mapping [("kind", .text "Root")])
  | root (swapped : Bool) : Written .root (node .root .null swapped)
  | agent (name : String) (swapped : Bool) : Written (.agent name) (node .agent (.text name) swapped)
  | access {container : Query} {v : Value} (field : String) (swapped turned : Bool)
      (h : Written container v) :
      Written (.access container field) (node .access (accessContent v field turned) swapped)
  | base (field : String) (swapped : Bool) : Written (.base field) (node .base (.text field) swapped)
  | tuple {items : List Query} {vs : List Value} (swapped : Bool) (h : WrittenItems items vs) :
      Written (.tuple items) (node .tuple (.list vs) swapped)

/-- Queries written out in a row. -/
inductive WrittenItems : List Query → List Value → Prop
  | nil : WrittenItems [] []
  | cons {q : Query} {v : Value} {rest : List Query} {vs : List Value} (h : Written q v)
      (more : WrittenItems rest vs) : WrittenItems (q :: rest) (v :: vs)

end

mutual

/-- The wire form is one of the forms. -/
theorem written_wire : ∀ q : Query, Written q q.wire
  | .prev inner => .prev true (written_wire inner)
  | .root => .bareRoot
  | .agent name => .agent name true
  | .access container field => .access field true false (written_wire container)
  | .base field => .base field true
  | .tuple items => .tuple true (writtenItems_wireItems items)

theorem writtenItems_wireItems : ∀ items : List Query, WrittenItems items (wireItems items)
  | [] => .nil
  | q :: rest => .cons (written_wire q) (writtenItems_wireItems rest)

end

/-! ## Levels and numbers -/

theorem nesting_node (kind : Kind) (content : Value) (swapped : Bool) :
    (node kind content swapped).nesting = content.nesting + 1 := by
  cases swapped <;> simp [node, Value.nesting, Value.fieldNesting]

theorem nesting_accessContent (container : Value) (field : String) (turned : Bool) :
    (accessContent container field turned).nesting = container.nesting + 1 := by
  cases turned <;> simp [accessContent, Value.nesting, Value.fieldNesting]

theorem numbers_node (kind : Kind) (content : Value) (swapped : Bool) :
    (node kind content swapped).numbers = content.numbers := by
  cases swapped <;> simp [node, Value.numbers, Value.fieldNumbers]

theorem numbers_accessContent (container : Value) (field : String) (turned : Bool) :
    (accessContent container field turned).numbers = container.numbers := by
  cases turned <;> simp [accessContent, Value.numbers, Value.fieldNumbers]

mutual

/-- The order of the fields plays no part in how deeply a query nests. -/
theorem nesting_of_written : ∀ (q : Query) (v : Value), Written q v → v.nesting = q.nesting
  | _, _, .prev swapped h => by
    rw [nesting_node, nesting_of_written _ _ h, nesting]
  | _, _, .bareRoot => rfl
  | _, _, .root swapped => by
    rw [nesting_node]
    rfl
  | _, _, .agent name swapped => by
    rw [nesting_node]
    rfl
  | _, _, .access field swapped turned h => by
    rw [nesting_node, nesting_accessContent, nesting_of_written _ _ h, nesting]
  | _, _, .base field swapped => by
    rw [nesting_node]
    rfl
  | _, _, .tuple swapped h => by
    rw [nesting_node, Value.nesting, itemNesting_of_written _ _ h, nesting]

theorem itemNesting_of_written : ∀ (items : List Query) (vs : List Value), WrittenItems items vs →
    Value.itemNesting vs = itemNesting items
  | _, _, .nil => rfl
  | _, _, .cons h more => by
    rw [Value.itemNesting, itemNesting, nesting_of_written _ _ h, itemNesting_of_written _ _ more]

end

mutual

/-- There are no numbers in a query. -/
theorem numbers_of_written : ∀ (q : Query) (v : Value), Written q v → v.numbers = []
  | _, _, .prev swapped h => by rw [numbers_node, numbers_of_written _ _ h]
  | _, _, .bareRoot => rfl
  | _, _, .root swapped => by
    rw [numbers_node]
    rfl
  | _, _, .agent name swapped => by
    rw [numbers_node]
    rfl
  | _, _, .access field swapped turned h => by
    rw [numbers_node, numbers_accessContent, numbers_of_written _ _ h]
  | _, _, .base field swapped => by
    rw [numbers_node]
    rfl
  | _, _, .tuple swapped h => by rw [numbers_node, Value.numbers, itemNumbers_of_written _ _ h]

theorem itemNumbers_of_written : ∀ (items : List Query) (vs : List Value), WrittenItems items vs →
    Value.itemNumbers vs = []
  | _, _, .nil => rfl
  | _, _, .cons h more => by
    rw [Value.itemNumbers, numbers_of_written _ _ h, itemNumbers_of_written _ _ more, List.append_nil]

end

/-! ## Reading -/

/-- Read what stands below a node of a kind, within a depth. -/
def contentOf? (source : Source) (depth : Nat) (kind : Kind) (c : Tree) : Option Query :=
  match kind, c with
  | .prev, c => (ofTree? source depth c).map .prev
  | .root, .null => some .root
  | .agent, .text s => some (.agent s)
  | .base, .text s => some (.base s)
  | .access, .mapping fields =>
    match depth with
    | 0 => none
    | inner + 1 =>
      match accessParts? fields with
      | some (container, field) => (ofTree? source inner container).map (.access · field)
      | none => none
  | .tuple, .list items =>
    match depth with
    | 0 => none
    | inner + 1 => (readAll? (ofTree? source inner) items).map .tuple
  | _, _ => none

/-- **A node is its content**, read as it comes or set aside first. -/
theorem ofTree?_node (source : Source) (depth : Nat) (kind : Kind) (content : Value) (swapped : Bool) :
    ofTree? source (depth + 1) (ofValue (node kind content swapped)) =
      if swapped then
        if content.nesting ≤ depth then contentOf? .setAside depth kind (ofValue content) else none
      else contentOf? source depth kind (ofValue content) := by
  cases swapped with
  | false =>
    have hparts : parts? (ofFields [("kind", .text kind.name), ("content", content)]) =
        some (.text kind.name, some (ofValue content), false) := rfl
    rw [node, ofValue, ofTree?]
    simp only [hparts, kindOfTree?, Kind.ofName?_name]
    rfl
  | true =>
    have hparts : parts? (ofFields [("content", content), ("kind", .text kind.name)]) =
        some (.text kind.name, some (ofValue content), true) := rfl
    rw [node, ofValue, ofTree?]
    simp only [hparts, kindOfTree?, Kind.ofName?_name, readable_ofValue, decide_eq_true_eq]
    rfl

/-- If the content of a node is read back within its depth, so is the node, in either order. -/
theorem ofTree?_node_of_content {kind : Kind} {content : Value} {q : Query}
    (h : ∀ source depth, contentOf? source depth kind (ofValue content) =
      if content.nesting ≤ depth then some q else none)
    (swapped : Bool) (source : Source) (depth : Nat) :
    ofTree? source depth (ofValue (node kind content swapped)) =
      if (node kind content swapped).nesting ≤ depth then some q else none := by
  rw [nesting_node]
  cases depth with
  | zero => simp [ofTree?]
  | succ d =>
    rw [ofTree?_node, h, h]
    simp only [Nat.add_le_add_iff_right]
    cases swapped with
    | false => rfl
    | true =>
      rw [if_pos rfl]
      split <;> rfl

theorem contentOf?_access {container : Query} {v : Value}
    (h : ∀ source depth, ofTree? source depth (ofValue v) =
      if v.nesting ≤ depth then some container else none)
    (field : String) (turned : Bool) (source : Source) (depth : Nat) :
    contentOf? source depth .access (ofValue (accessContent v field turned)) =
      if (accessContent v field turned).nesting ≤ depth then some (.access container field) else none := by
  have hcontent : contentOf? source depth .access (ofValue (accessContent v field turned)) =
      match depth with
      | 0 => none
      | inner + 1 => (ofTree? source inner (ofValue v)).map (.access · field) := by
    cases turned <;> rfl
  rw [hcontent, nesting_accessContent]
  cases depth with
  | zero => simp
  | succ inner =>
    simp only [h, Nat.add_le_add_iff_right]
    split <;> rfl

theorem contentOf?_tuple {items : List Query} {vs : List Value}
    (h : ∀ source depth, readAll? (ofTree? source depth) (ofValues vs) =
      if Value.itemNesting vs ≤ depth then some items else none)
    (source : Source) (depth : Nat) :
    contentOf? source depth .tuple (ofValue (.list vs)) =
      if (Value.list vs).nesting ≤ depth then some (.tuple items) else none := by
  have hcontent : contentOf? source depth .tuple (ofValue (.list vs)) =
      match depth with
      | 0 => none
      | inner + 1 => (readAll? (ofTree? source inner) (ofValues vs)).map .tuple := rfl
  rw [hcontent, Value.nesting]
  cases depth with
  | zero => simp
  | succ inner =>
    simp only [h, Nat.add_le_add_iff_right]
    split <;> rfl

/-- A root without content is read within any depth but the smallest. -/
theorem ofTree?_bareRoot (source : Source) (depth : Nat) :
    ofTree? source depth (ofValue (.mapping [("kind", .text Kind.root.name)])) =
      if (Value.mapping [("kind", .text Kind.root.name)]).nesting ≤ depth then some .root else none := by
  cases depth with
  | zero => rfl
  | succ d =>
    have hparts : parts? (ofFields [("kind", .text Kind.root.name)]) =
        some (.text Kind.root.name, none, false) := rfl
    have hnesting : (Value.mapping [("kind", .text Kind.root.name)]).nesting ≤ d + 1 :=
      Nat.le_add_left 1 d
    rw [ofValue, ofTree?, if_pos hnesting]
    simp only [hparts, kindOfTree?, Kind.ofName?_name]

mutual

/-- **A written query is read back exactly when it does not nest too deeply.** -/
theorem ofTree?_written : ∀ (q : Query) (v : Value), Written q v → ∀ (source : Source) (depth : Nat),
    ofTree? source depth (ofValue v) = if v.nesting ≤ depth then some q else none
  | _, _, .prev swapped h => by
    refine ofTree?_node_of_content (fun source depth => ?_) swapped
    rw [contentOf?, ofTree?_written _ _ h]
    split <;> rfl
  | _, _, .bareRoot => ofTree?_bareRoot
  | _, _, .root swapped => ofTree?_node_of_content (fun _ _ => rfl) swapped
  | _, _, .agent name swapped => ofTree?_node_of_content (fun _ _ => rfl) swapped
  | _, _, .access field swapped turned h =>
    ofTree?_node_of_content (contentOf?_access (ofTree?_written _ _ h) field turned) swapped
  | _, _, .base field swapped => ofTree?_node_of_content (fun _ _ => rfl) swapped
  | _, _, .tuple swapped h =>
    ofTree?_node_of_content (contentOf?_tuple (readAll?_written _ _ h)) swapped

theorem readAll?_written : ∀ (items : List Query) (vs : List Value), WrittenItems items vs →
    ∀ (source : Source) (depth : Nat), readAll? (ofTree? source depth) (ofValues vs) =
      if Value.itemNesting vs ≤ depth then some items else none
  | _, _, .nil => fun _ _ => rfl
  | _, _, @WrittenItems.cons q v rest vs h more => fun source depth => by
    rw [ofValues, readAll?, ofTree?_written _ _ h, readAll?_written _ _ more, Value.itemNesting]
    simp only [Nat.max_le]
    by_cases hv : v.nesting ≤ depth
    · by_cases hrest : Value.itemNesting vs ≤ depth <;> simp [hv, hrest]
    · simp [hv]

end

/-! ## Texts -/

variable {q q' : Query} {v v' : Value}

/-- The text of a written query becomes the tree of what was written. -/
theorem ofText?_of_written (h : Written q v) : Tree.ofText? v.render = some (ofValue v) := by
  refine Tree.ofText?_render fun n hn => ?_
  rw [numbers_of_written q v h] at hn
  cases hn

theorem ofText?_render (h : Written q v) :
    Query.ofText? v.render = if q.nesting ≤ depthLimit then some q else none := by
  rw [Query.ofText?, ofText?_of_written h, Option.bind_some, ofTree?_written q v h,
    nesting_of_written q v h]

/-- **Two queries have no text in common**, however deeply they nest. -/
theorem eq_of_render_eq (h : Written q v) (h' : Written q' v') (heq : v'.render = v.render) :
    q' = q := by
  have htext := ofText?_of_written h'
  rw [heq, ofText?_of_written h, Option.some.injEq] at htext
  -- a depth that is enough for both
  have hread := ofTree?_written q v h .direct (max v.nesting v'.nesting)
  have hread' := ofTree?_written q' v' h' .direct (max v.nesting v'.nesting)
  rw [if_pos (Nat.le_max_left ..), htext] at hread
  rw [if_pos (Nat.le_max_right ..), hread] at hread'
  exact (Option.some.inj hread').symm

/-- **A query is read back from its text**, in whatever order its nodes are written and whatever texts
stand in it, exactly when it takes at most 127 levels.  The wire form is one way to write it, and no text
belongs to two queries. -/
theorem written_round_trip (q : Query) :
    Written q q.wire ∧
    ∀ v, Written q v → v.nesting = q.nesting ∧
      Provider.wire v.render = (if q.nesting ≤ 127 then .ok q else .error .malformed) ∧
      ∀ q' v', Written q' v' → v'.render = v.render → q' = q := by
  refine ⟨written_wire q, fun v h => ⟨nesting_of_written q v h, ?_, fun q' v' h' heq =>
    eq_of_render_eq h h' heq⟩⟩
  have hread : Query.ofText? v.render = if q.nesting ≤ 127 then some q else none := ofText?_render h
  rw [Provider.wire, hread]
  by_cases hdepth : q.nesting ≤ 127
  · simp only [if_pos hdepth]
  · simp only [if_neg hdepth]

/-- The root below so many `prev`. -/
def before : Nat → Query
  | 0 => .root
  | n + 1 => .prev (before n)

theorem nesting_before (n : Nat) : (before n).nesting = n + 1 := by
  induction n with
  | zero => rfl
  | succ n ih => rw [before, nesting, ih]

/-- A query with an access, a list and characters that have to be escaped. -/
def mixed : Query :=
  .tuple [.prev (.access (.agent "Mond \"1\"") "Höhe\n\\"), .root, .tuple [], .base "\x01"]

/-- The query written with some of its fields in the other order. -/
def mixedForm : Value :=
  node .tuple (.list [
    node .prev (node .access (accessContent (node .agent (.text "Mond \"1\"") true) "Höhe\n\\" true)
      false) true,
    .mapping [("kind", .text "Root")], node .tuple (.list []) false,
    node .base (.text "\x01") true]) false

theorem written_mixedForm : Written mixed mixedForm :=
  .tuple false (.cons (.prev true (.access _ false true (.agent _ true))) (.cons .bareRoot
    (.cons (.tuple false .nil) (.cons (.base _ true) .nil))))

/-- Mixed orders are read back, and the depth of a text decides at 127 levels. -/
theorem mixed_round_trip :
    Provider.wire mixedForm.render = .ok mixed ∧
    Provider.wire (before 126).wire.render = .ok (before 126) ∧
    Provider.wire (before 127).wire.render = .error .malformed := by
  have hmixed := ((written_round_trip mixed).2 mixedForm written_mixedForm).2.1
  have hlast := ((written_round_trip (before 126)).2 _ (written_wire _)).2.1
  have hdeep := ((written_round_trip (before 127)).2 _ (written_wire _)).2.1
  rw [nesting_before] at hlast hdeep
  exact ⟨hmixed, hlast, hdeep⟩

end Query

end Orrery
