import Orrery.Declaration
import Orrery.Decimal.Layout
import Orrery.Simulation

/-!
# Configurations

A configuration says what to run and how.  Everything in it has a default, and the defaults describe a
scenario of two bodies in orbit around each other (`Config.standard`), so an empty configuration is a
useful one.

`Config.validate` checks what the types do not say: numbers that have to be finite, an offset that has
to be positive, and that there is something to run.
-/

namespace Orrery

/-- How the program that reads expressions is called. -/
structure ParserSettings where
  /-- The program. -/
  command : String
  /-- Its arguments. -/
  args : List String
  deriving DecidableEq

/-- What is logged, and how. -/
structure LoggingSettings where
  /-- The filter that applies unless the environment gives one. -/
  level : String
  /-- Lines of JSON instead of lines for people. -/
  json : Bool
  deriving DecidableEq

/-- A configuration. -/
structure Config where
  /-- How long engines run, and how the history is read. -/
  settings : Settings
  /-- The step that the built-in step producer hands out. -/
  fixedStep : Float
  /-- How the program that reads expressions is called. -/
  parser : ParserSettings
  /-- What is logged, and how. -/
  logging : LoggingSettings
  /-- Where the history of a run is written. -/
  exportPath : String
  /-- The engines. -/
  engines : Table EngineSpec
  deriving DecidableEq

/-- Why there is no configuration. -/
inductive ConfigError where
  /-- The file cannot be read. -/
  | unreadable
  /-- The text is no configuration. -/
  | malformed
  /-- A gap in the text is too wide to be read. -/
  | overflow
  /-- The offset before the clock is not a positive number. -/
  | readOffset (offset : Float)
  /-- The seed begins nowhere. -/
  | seedLow
  /-- The fixed step is no finite number. -/
  | fixedStep
  /-- There is nothing to run. -/
  | noEngines
  deriving DecidableEq

/-- What is wrong, in a sentence. -/
def ConfigError.message : ConfigError → String
  | .unreadable => "failed to read config file"
  | .malformed | .overflow => "failed to parse config YAML"
  | .readOffset offset =>
    "invalid configuration: simulation.read_offset must be positive, got " ++ Layout.message.text offset
  | .seedLow => "invalid configuration: simulation.seed_low must be finite"
  | .fixedStep => "invalid configuration: physics.fixed_time_step must be finite"
  | .noEngines => "invalid configuration: at least one engine must be configured"

/-! ## Two bodies in orbit -/

namespace TwoBody

/-- The previous value of a field. -/
def previous (field : String) : Query := .prev (.base field)

/-- A rule between queries. -/
def rule (consumed : List Query) (produced function : String) : RuleSpec :=
  ⟨.query (.tuple consumed), .query (.base produced), function⟩

/-- The rules of a body that is attracted by another. -/
def rules (other : String) : List RuleSpec :=
  [ rule
      [previous Value.timeStepField, previous "position", previous "velocity",
        .access (.agent other) "position", .access (.agent other) "mass"]
      "velocity" "propagate_velocity",
    rule [previous Value.timeStepField, previous "position", .base "velocity"]
      "position" "propagate_position",
    rule [previous "mass"] "mass" "propagate_mass",
    rule [previous Value.timeField, .base Value.timeStepField] Value.timeField "time_manager",
    rule [.base "velocity"] Value.timeStepField "timestep_manager" ]

/-- A vector as data. -/
def vector (x y z : Float) : Value :=
  .mapping [("x", .ofFloat x), ("y", .ofFloat y), ("z", .ofFloat z)]

/-- A body at time zero: where it is on the first axis, how fast along the second, and its mass. -/
def body (x speed mass : Float) : Value :=
  .mapping [("mass", .ofFloat mass), ("position", vector x 0.0 0.0), (Value.timeField, .ofFloat 0.0),
    (Value.timeStepField, .ofFloat 0.01), ("velocity", vector 0.0 speed 0.0)]

/-- The engine of the two bodies. -/
def engine : EngineSpec where
  initial := Table.ofList [("Body1", body (-0.73) (-0.0015) 1.0), ("Body2", body 60.34 0.13 0.123)]
  agents := Table.ofList [("Body1", rules "Body2"), ("Body2", rules "Body1")]

end TwoBody

namespace Config

/-- The settings that apply unless others are given. -/
def standardSettings : Settings := ⟨"Two Body", 500, 0.001, -999999999.0⟩

/-- The fixed step that applies unless another is given. -/
def standardStep : Float := 0.01

/-- The program that reads expressions unless another is given. -/
def standardParser : ParserSettings := ⟨"query-parser", []⟩

/-- The logging that applies unless another is given. -/
def standardLogging : LoggingSettings := ⟨"info", false⟩

/-- Where the history is written unless another place is given. -/
def standardExport : String := "data.json"

/-- The engines that run unless others are given. -/
def standardEngines : Table EngineSpec := Table.single "orbits" TwoBody.engine

/-- The configuration in which nothing is said. -/
def standard : Config :=
  ⟨standardSettings, standardStep, standardParser, standardLogging, standardExport, standardEngines⟩

/-- Check what the types do not say; the first fault is reported. -/
def validate (c : Config) : Except ConfigError Unit :=
  if !(c.settings.readOffset.isFinite && 0.0 < c.settings.readOffset) then
    .error (.readOffset c.settings.readOffset)
  else if !c.settings.seedLow.isFinite then .error .seedLow
  else if !c.fixedStep.isFinite then .error .fixedStep
  else if c.engines.isEmpty then .error .noEngines
  else .ok ()

end Config

end Orrery
