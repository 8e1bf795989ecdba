import Orrery.Table

/-!
# Values

The state of an agent is a `Value`: the data model of JSON, with numbers kept in the two ways they are
written.  A whole number that fits 64 bits stays a whole number and is written as one; every other
number is a finite binary64 number.  Both facts are part of `Number`, so no value can hold an infinity.

Mappings list their fields in the order of the names.  A field that is present with the value `null`
is present; absence is `none` and never a value.
-/

namespace Orrery

/-- A number as data holds it. -/
inductive Number where
  /-- A whole number of 64 bits, signed or unsigned. -/
  | integer (value : Int)
      (inRange : -9223372036854775808 ≤ value ∧ value < 18446744073709551616)
  /-- A finite binary64 number. -/
  | binary (value : Float) (finite : value.isFinite = true)
  deriving DecidableEq

namespace Number

/-- The whole number, if it fits 64 bits. -/
def ofInt? (value : Int) : Option Number :=
  if h : -9223372036854775808 ≤ value ∧ value < 18446744073709551616 then some (.integer value h)
  else none

/-- The binary64 number, if it is finite. -/
def ofFloat? (value : Float) : Option Number :=
  if h : value.isFinite = true then some (.binary value h) else none

/-- The binary64 number nearest to a number. -/
def toFloat : Number → Float
  | .integer value _ => Float.ofInt value
  | .binary value _ => value

/-- A natural number of at most 64 bits. -/
def ofUInt64 (n : UInt64) : Number :=
  .integer n.toNat ⟨by omega, by have := n.toNat_lt; omega⟩

end Number

/-- Data of any shape. -/
inductive Value where
  /-- Nothing, said explicitly. -/
  | null
  /-- A truth value. -/
  | bool (b : Bool)
  /-- A number. -/
  | number (n : Number)
  /-- A text. -/
  | text (s : String)
  /-- A list. -/
  | list (items : List Value)
  /-- A mapping; its fields are in order. -/
  | mapping (fields : List (String × Value))
  deriving Inhabited

namespace Value

/-! ## Equality is decidable -/

mutual

/-- Structural comparison. -/
def same : Value → Value → Bool
  | .null, .null => true
  | .bool a, .bool b => a == b
  | .number a, .number b => decide (a = b)
  | .text a, .text b => a == b
  | .list a, .list b => sameItems a b
  | .mapping a, .mapping b => sameFields a b
  | _, _ => false

/-- Structural comparison of lists. -/
def sameItems : List Value → List Value → Bool
  | [], [] => true
  | a :: as, b :: bs => same a b && sameItems as bs
  | _, _ => false

/-- Structural comparison of fields. -/
def sameFields : List (String × Value) → List (String × Value) → Bool
  | [], [] => true
  | (k, a) :: as, (l, b) :: bs => k == l && (same a b && sameFields as bs)
  | _, _ => false

end

mutual

theorem same_iff : ∀ a b : Value, same a b = true ↔ a = b
  | .null, b => by cases b <;> simp [same]
  | .bool a, b => by cases b <;> simp [same]
  | .number a, b => by cases b <;> simp [same]
  | .text a, b => by cases b <;> simp [same]
  | .list a, b => by
    cases b with
    | list b => simp only [same, Value.list.injEq]; exact sameItems_iff a b
    | _ => simp [same]
  | .mapping a, b => by
    cases b with
    | mapping b => simp only [same, Value.mapping.injEq]; exact sameFields_iff a b
    | _ => simp [same]

theorem sameItems_iff : ∀ a b : List Value, sameItems a b = true ↔ a = b
  | [], b => by cases b <;> simp [sameItems]
  | a :: as, b => by
    cases b with
    | nil => simp [sameItems]
    | cons b bs =>
      simp only [sameItems, Bool.and_eq_true, List.cons.injEq]
      rw [same_iff a b, sameItems_iff as bs]

theorem sameFields_iff : ∀ a b : List (String × Value), sameFields a b = true ↔ a = b
  | [], b => by cases b <;> simp [sameFields]
  | (k, a) :: as, b => by
    cases b with
    | nil => simp [sameFields]
    | cons b bs =>
      obtain ⟨l, b⟩ := b
      simp only [sameFields, Bool.and_eq_true, beq_iff_eq, List.cons.injEq, Prod.mk.injEq]
      rw [same_iff a b, sameFields_iff as bs, and_assoc]

end

instance : DecidableEq Value := fun a b => decidable_of_iff (same a b = true) (same_iff a b)

/-! ## Building and reading values -/

/-- A whole number below 2⁶⁴. -/
def natural (n : UInt64) : Value := .number (.ofUInt64 n)

/-- A binary64 number as data; data has no infinities, so those are written as `null`. -/
def ofFloat (x : Float) : Value :=
  match Number.ofFloat? x with
  | some n => .number n
  | none => .null

/-- The value of a field; only mappings have fields. -/
def field? (v : Value) (name : String) : Option Value :=
  match v with
  | .mapping fields => Entries.get? name fields
  | _ => none

/-- The number nearest to a numeric value; nothing else is numeric. -/
def float? : Value → Option Float
  | .number n => some n.toFloat
  | _ => none

/-- The numeric value of a field. -/
def numericField? (v : Value) (name : String) : Option Float := (v.field? name).bind float?

/-- The field that holds the time a state stands for. -/
def timeField : String := "time"

/-- The field that holds the length of an agent's next step. -/
def timeStepField : String := "timeStep"

/-- The time a state stands for. -/
def time? (v : Value) : Option Float := v.numericField? timeField

@[simp] theorem field?_mapping (fields : Entries Value) (name : String) :
    (Value.mapping fields).field? name = Entries.get? name fields := rfl

end Value

/-- States by agent name. -/
abbrev States := Table Value

/-- The states of every engine. -/
abbrev Universe := Table States

end Orrery
