import Orrery.Producer

/-!
# The built-in producers

Two bodies that attract each other, moved on by one step of Euler's method, and the bookkeeping of time
around it.  All arithmetic is binary64 arithmetic in the order written here; nothing is reassociated,
since the last bit of a position feeds every later step.
-/

namespace Orrery

/-- A vector of three components. -/
structure Vector3 where
  /-- Along the first axis. -/
  x : Float
  /-- Along the second axis. -/
  y : Float
  /-- Along the third axis. -/
  z : Float
  deriving DecidableEq

namespace Vector3

/-- Componentwise sum. -/
def add (a b : Vector3) : Vector3 := ⟨a.x + b.x, a.y + b.y, a.z + b.z⟩

/-- Componentwise difference. -/
def sub (a b : Vector3) : Vector3 := ⟨a.x - b.x, a.y - b.y, a.z - b.z⟩

/-- Every component times a number. -/
def scale (a : Vector3) (k : Float) : Vector3 := ⟨a.x * k, a.y * k, a.z * k⟩

/-- Every component divided by a number. -/
def divide (a : Vector3) (k : Float) : Vector3 := ⟨a.x / k, a.y / k, a.z / k⟩

/-- The length. -/
def norm (a : Vector3) : Float := (a.x * a.x + a.y * a.y + a.z * a.z).sqrt

/-- The vector of a mapping with the numeric fields `x`, `y` and `z`. -/
def ofValue? (v : Value) : Option Vector3 := do
  let x ← v.numericField? "x"
  let y ← v.numericField? "y"
  let z ← v.numericField? "z"
  return ⟨x, y, z⟩

end Vector3

namespace Producer

/-- Read the argument at a position as a vector. -/
def vector (index : Nat) (v : Value) : Except ProducerError Vector3 :=
  match Vector3.ofValue? v with
  | some a => .ok a
  | none => .error (.argumentType index "an \x7bx, y, z\x7d vector" v)

/-- A vector as a value; the components are checked in order. -/
def vectorValue (what : String) (a : Vector3) : Except ProducerError Value := do
  let x ← finite what a.x
  let y ← finite what a.y
  let z ← finite what a.z
  return .mapping [("x", x), ("y", y), ("z", z)]

/-- The velocity after a step: the other body attracts with its mass over the squared distance. -/
def propagateVelocity : Producer
  | [dt, position, velocity, otherPosition, otherMass] => do
    let dt ← scalar 0 dt
    let r ← vector 1 position
    let v ← vector 2 velocity
    let other ← vector 3 otherPosition
    let mass ← scalar 4 otherMass
    let separation := r.sub other
    let distance := separation.norm
    let acceleration := (separation.scale (-mass)).divide (distance * distance * distance)
    vectorValue "velocity" (v.add (acceleration.scale dt))
  | args => .error (.arity 5 args.length)

/-- The position after a step. -/
def propagatePosition : Producer
  | [dt, position, velocity] => do
    let dt ← scalar 0 dt
    let r ← vector 1 position
    let v ← vector 2 velocity
    vectorValue "position" (r.add (v.scale dt))
  | args => .error (.arity 3 args.length)

/-- Mass stays as it is, and is a number. -/
def propagateMass : Producer
  | [mass] => do
    let _ ← scalar 0 mass
    return mass
  | args => .error (.arity 1 args.length)

/-- The argument itself. -/
def identity : Producer
  | [v] => .ok v
  | args => .error (.arity 1 args.length)

/-- The time after a step. -/
def timeManager : Producer
  | [time, step] => do
    let t ← scalar 0 time
    let dt ← scalar 1 step
    finite "time" (t + dt)
  | args => .error (.arity 2 args.length)

/-- The same step for ever. -/
def timestepManager (fixedStep : Float) : Producer := fun _ => finite "time step" fixedStep

end Producer

/-- The built-in producers under their names. -/
def Registry.builtin (fixedStep : Float) : Registry :=
  Table.ofList
    [("propagate_velocity", Producer.propagateVelocity),
     ("propagate_position", Producer.propagatePosition),
     ("propagate_mass", Producer.propagateMass),
     ("identity", Producer.identity),
     ("time_manager", Producer.timeManager),
     ("timestep_manager", Producer.timestepManager fixedStep)]

end Orrery
