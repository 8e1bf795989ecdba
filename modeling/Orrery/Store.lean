import Orrery.Value.Printer
import Orrery.Value.Reader

/-!
# The interval store

History is a list of records, each binding a half-open interval of time to a value.  Records are only
ever added at the end.  A record is an interval for which `low < high` holds, as a fact of its type: the
comparison is that of binary64, so a bound that is not a number makes no record.

A point of time is looked up in all records.  `Store.query` lists the values of the records that
contain it, in the order in which they were added.  When values are tables, `Store.merge` lays them
over each other in that order, so that for every name the record added last decides.

`Store.insert` gives a new history or a refusal.  Whoever keeps a history in one place puts the new one
where the old one was, and nothing where it is refused: `Store.attempt` answers with what is in the place
afterwards, and how it ended.

A history can be written down and read again.  Reading gives records, and each interval has to pass the
comparison once more; `Store.replay` then adds the records to an empty history, which asks for it a third
time and would name the record that does not pass.
-/

namespace Orrery

universe u

/-- A value that holds from `low` until just before `high`. -/
structure Record (α : Type u) where
  /-- The first point of the interval. -/
  low : Float
  /-- The first point after the interval. -/
  high : Float
  /-- What holds there. -/
  value : α
  /-- The interval is not empty. -/
  low_lt_high : low < high

namespace Record

variable {α : Type u}

instance [DecidableEq α] : DecidableEq (Record α) := fun a b =>
  if h : a.low = b.low ∧ a.high = b.high ∧ a.value = b.value then
    isTrue (by cases a; cases b; simp_all)
  else isFalse fun hab => h (by subst hab; exact ⟨rfl, rfl, rfl⟩)

/-- The record of an interval, if there is a point in it. -/
def ofBounds? (low high : Float) (value : α) : Option (Record α) :=
  if h : low < high then some ⟨low, high, value, h⟩ else none

/-- Whether a point lies in the interval. -/
def contains (r : Record α) (point : Float) : Bool := decide (r.low ≤ point ∧ point < r.high)

end Record

/-- Why the store refuses. -/
inductive StoreError where
  /-- The interval is empty or has no bounds. -/
  | invalidRange (low high : Float)
  /-- No record contains the point. -/
  | notFound (point : Float)
  deriving DecidableEq

/-- What is wrong, in a sentence. -/
def StoreError.message : StoreError → String
  | .invalidRange low high =>
    "invalid range [" ++ Layout.message.text low ++ ", " ++ Layout.message.text high
      ++ "): low must be strictly less than high"
  | .notFound point => "no interval contains t = " ++ Layout.message.text point

/-- At which record a history cannot be rebuilt, and why. -/
structure ReplayError where
  /-- The position of the record. -/
  position : Nat
  /-- Why the store refuses it. -/
  cause : StoreError
  deriving DecidableEq

/-- What is wrong, in a sentence. -/
def ReplayError.message (e : ReplayError) : String :=
  "record " ++ toString e.position ++ " could not be replayed: " ++ e.cause.message

/-- The history of one engine, oldest record first. -/
structure Store (α : Type u) where
  /-- The records in the order in which they were added. -/
  records : List (Record α)

namespace Store

variable {α : Type u}

instance [DecidableEq α] : DecidableEq (Store α) := fun a b =>
  if h : a.records = b.records then isTrue (by cases a; cases b; simp_all)
  else isFalse fun hab => h (congrArg records hab)

/-- The history without records. -/
def empty : Store α := ⟨[]⟩

instance : Inhabited (Store α) := ⟨empty⟩

/-- How many records there are. -/
def size (s : Store α) : Nat := s.records.length

/-- Add a record at the end. -/
def append (s : Store α) (r : Record α) : Store α := ⟨s.records ++ [r]⟩

/-- Bind an interval to a value. -/
def insert (s : Store α) (low high : Float) (value : α) : Except StoreError (Store α) :=
  match Record.ofBounds? low high value with
  | some r => .ok (s.append r)
  | none => .error (.invalidRange low high)

/-- Bind an interval to a value in place: the history as it is left, and how it ended. -/
def attempt (s : Store α) (low high : Float) (value : α) : Store α × Except StoreError Unit :=
  match s.insert low high value with
  | .ok after => (after, .ok ())
  | .error e => (s, .error e)

/-- The values of the records that contain a point, oldest first. -/
def hits (s : Store α) (point : Float) : List α :=
  (s.records.filter (·.contains point)).map (·.value)

/-- The values at a point, of which there must be one. -/
def query (s : Store α) (point : Float) : Except StoreError (List α) :=
  match s.hits point with
  | [] => .error (.notFound point)
  | values => .ok values

/-- The tables at a point laid over each other, newest on top. -/
def merge (s : Store (Table α)) (point : Float) : Table α :=
  (s.hits point).foldl Table.overlay Table.empty

/-- The history that has some records. -/
def ofRecords (records : List (Record α)) : Store α := records.foldl append empty

/-- Add records to a history one by one, the first of them at a position of the list that is replayed. -/
def replayFrom (position : Nat) (s : Store α) : List (Record α) → Except ReplayError (Store α)
  | [] => .ok s
  | r :: rest =>
    match s.attempt r.low r.high r.value with
    | (after, .ok ()) => replayFrom (position + 1) after rest
    | (_, .error e) => .error ⟨position, e⟩

/-- Rebuild a history by adding its records one by one. -/
def replay (records : List (Record α)) : Except ReplayError (Store α) := replayFrom 0 empty records

@[simp] theorem records_append (s : Store α) (r : Record α) :
    (s.append r).records = s.records ++ [r] := rfl

/-- **The store takes an interval exactly when there is a point in it.** -/
theorem insert_of_lt (s : Store α) {low high : Float} (value : α) (h : low < high) :
    s.insert low high value = .ok (s.append ⟨low, high, value, h⟩) := by
  rw [insert, Record.ofBounds?, dif_pos h]

theorem insert_of_not_lt (s : Store α) {low high : Float} (value : α) (h : ¬ low < high) :
    s.insert low high value = .error (.invalidRange low high) := by
  rw [insert, Record.ofBounds?, dif_neg h]

theorem attempt_of_lt (s : Store α) {low high : Float} (value : α) (h : low < high) :
    s.attempt low high value = (s.append ⟨low, high, value, h⟩, .ok ()) := by
  rw [attempt, s.insert_of_lt value h]

theorem attempt_of_not_lt (s : Store α) {low high : Float} (value : α) (h : ¬ low < high) :
    s.attempt low high value = (s, .error (.invalidRange low high)) := by
  rw [attempt, s.insert_of_not_lt value h]

theorem records_foldl_append (records : List (Record α)) (s : Store α) :
    (records.foldl append s).records = s.records ++ records := by
  induction records generalizing s with
  | nil => simp
  | cons r rest ih => simp [ih]

/-- **Replaying all records of a history gives the history back.** -/
@[simp] theorem ofRecords_records (s : Store α) : ofRecords s.records = s := by
  cases s with
  | mk records =>
    have h := records_foldl_append records (empty : Store α)
    unfold ofRecords
    generalize List.foldl append empty records = t at h
    cases t
    simpa [empty] using h

end Store

/-! ## Records as data -/

/-- A time as data: data has no infinities, so they are written as `null`. -/
def Record.toValue (r : Record States) : Value :=
  .list [.ofFloat r.low, .ofFloat r.high, .mapping r.value.entries]

/-- The history as data. -/
def Store.toValue (s : Store States) : Value := .list (s.records.map (·.toValue))

/-- Read a list of two numbers and a mapping; the interval is checked again. -/
def Record.ofTree? (depth : Nat) : Tree → Option (Record States)
  | .list [low, high, value] =>
    match depth with
    | 0 => none
    | d + 1 => do
      let low ← low.float?
      let high ← high.float?
      let value ← value.states? d
      Record.ofBounds? low high value
  | _ => none

/-- Read a list of records. -/
def Record.listOfTree? (depth : Nat) : Tree → Option (List (Record States))
  | .list items =>
    match depth with
    | 0 => none
    | d + 1 => items.mapM (Record.ofTree? d)
  | _ => none

/-! ## Histories as text -/

/-- The text of a history: the list of its records, on one line. -/
def Store.text (s : Store States) : String := s.toValue.render

/-- The records that a text lists. -/
def Record.listOfText? (text : String) : Option (List (Record States)) :=
  (Tree.ofText? text).bind (Record.listOfTree? Tree.depthLimit)

end Orrery
