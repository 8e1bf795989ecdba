import Orrery.Table
import Orrery.Decimal.Layout

/-!
# Clocks

Every agent has a clock of its own.  A clock only moves forward, and only to a time that is finite; the
three ways in which it can refuse are checked in this order: the agent has no clock, the time is not
finite, the time is not later than the clock.
-/

namespace Orrery

/-- Why a clock does not move. -/
inductive ClockError where
  /-- There is no such clock. -/
  | unknownAgent (agent : String)
  /-- The time is infinite or no number. -/
  | nonFinite (agent : String) (time : Float)
  /-- The time is not later than the clock. -/
  | regression (agent : String) (current proposed : Float)
  deriving DecidableEq

/-- What is wrong, in a sentence. -/
def ClockError.message : ClockError → String
  | .unknownAgent agent => "no clock for agent " ++ agent
  | .nonFinite agent time =>
    "agent " ++ agent ++ " cannot advance to non-finite time " ++ Layout.message.text time
  | .regression agent current proposed =>
    "agent " ++ agent ++ " cannot move from " ++ Layout.message.text current ++ " to "
      ++ Layout.message.text proposed
      ++ " (is its timeStep smaller than simulation.read_offset?)"

/-- The time of every agent. -/
abbrev Clocks := Table Float

namespace Clocks

/-- Move a clock; the answer is the time it showed before, and the clocks afterwards. -/
def advance (c : Clocks) (agent : String) (time : Float) : Except ClockError (Float × Clocks) :=
  match c.get? agent with
  | none => .error (.unknownAgent agent)
  | some current =>
    if time.isFinite then
      if time ≤ current then .error (.regression agent current time)
      else .ok (current, c.insert agent time)
    else .error (.nonFinite agent time)

end Clocks

end Orrery
