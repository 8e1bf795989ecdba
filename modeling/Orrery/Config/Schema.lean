import Orrery.Config.Basic
import Orrery.Query.Wire

/-!
# The schema of configurations

A configuration can be given as data or as YAML.  What the fields are called, which may be left out and
what they hold is the same for both and is said here once.  How a text, a number or a mapping looks is
different, and a `View` says that; the schema is written over any of them.

Reading can run out of two things, the nesting that is followed and the number of references that are
followed; the first is the view's own business, the second is the state of a `Reading`.
-/

namespace Orrery

/-- Reading that may fail; the state is how many references may still be followed. -/
abbrev Reading := StateT Nat Option

/-- How data is looked at in one way of writing it; `ν` is what stands at a place. -/
structure View (ν : Type) where
  /-- A text. -/
  text : ν → Reading String
  /-- A natural number of 64 bits. -/
  word : ν → Reading UInt64
  /-- A binary64 number. -/
  float : ν → Reading Float
  /-- A truth value. -/
  flag : ν → Reading Bool
  /-- Any data. -/
  value : ν → Reading Value
  /-- Any data, as it stands. -/
  tree : ν → Reading Tree
  /-- The items of a list. -/
  items : ν → Reading (List ν)
  /-- The entries of a mapping, in the order written. -/
  entries : ν → Reading (List (String × ν))
  /-- The items of a record that is written as a list, where that is possible. -/
  positions : ν → Option (List ν)

namespace View

variable {ν : Type} {α : Type} (s : View ν)

/-- The fields of a record by name: no known name may stand twice, and unknown ones are dropped.  As a
list, a record gives its fields in order and may stop early. -/
def record (known : List String) (n : ν) : Reading (List (String × ν)) := do
  match s.positions n with
  | some items => if items.length ≤ known.length then return known.zip items else failure
  | none =>
    let entries := (← s.entries n).filter fun e => known.contains e.1
    if (entries.map (·.1)).Nodup then return entries else failure

/-- A field that may be left out. -/
def field (fields : List (String × ν)) (name : String) (read : ν → Reading α) (default : α) :
    Reading α :=
  match Entries.get? name fields with
  | some n => read n
  | none => pure default

/-- A field that must be there. -/
def needed (fields : List (String × ν)) (name : String) (read : ν → Reading α) : Reading α :=
  match Entries.get? name fields with
  | some n => read n
  | none => failure

/-- A list of things of one kind. -/
def listOf (read : ν → Reading α) (n : ν) : Reading (List α) := do (← s.items n).mapM read

/-- A mapping to things of one kind; of two entries with one name the later stays. -/
def tableOf (read : ν → Reading α) (n : ν) : Reading (Table α) := do
  let entries ← (← s.entries n).mapM fun (name, n) => do return (name, ← read n)
  return Table.ofList entries

/-! ## The parts of a configuration -/

/-- A query: a text is an expression, anything else is in the wire form. -/
def querySpec (n : ν) : Reading QuerySpec := do
  match ← s.tree n with
  | .text expression => return .text expression
  | t =>
    match Query.ofTree? .gathered (2 * Tree.depthLimit) t with
    | some q => return .query q
    | none => failure

/-- A rule. -/
def ruleSpec (n : ν) : Reading RuleSpec := do
  let fs ← s.record ["consumed", "produced", "function"] n
  let consumed ← needed fs "consumed" s.querySpec
  let produced ← needed fs "produced" s.querySpec
  let function ← needed fs "function" s.text
  return ⟨consumed, produced, function⟩

/-- An engine. -/
def engineSpec (n : ν) : Reading EngineSpec := do
  let fs ← s.record ["initial_state", "agents"] n
  let initial ← needed fs "initial_state" (s.tableOf s.value)
  let agents ← needed fs "agents" (s.tableOf (s.listOf s.ruleSpec))
  return ⟨initial, agents⟩

/-- All engines. -/
def engines : ν → Reading (Table EngineSpec) := s.tableOf s.engineSpec

/-- The settings of a run. -/
def settings (n : ν) : Reading Settings := do
  let d := Config.standardSettings
  let fs ← s.record ["name", "iterations", "read_offset", "seed_low"] n
  let name ← field fs "name" s.text d.name
  let iterations ← field fs "iterations" s.word d.iterations
  let readOffset ← field fs "read_offset" s.float d.readOffset
  let seedLow ← field fs "seed_low" s.float d.seedLow
  return ⟨name, iterations, readOffset, seedLow⟩

/-- The fixed step. -/
def fixedStep (n : ν) : Reading Float := do
  let fs ← s.record ["fixed_time_step"] n
  field fs "fixed_time_step" s.float Config.standardStep

/-- The program that reads expressions. -/
def parserSettings (n : ν) : Reading ParserSettings := do
  let d := Config.standardParser
  let fs ← s.record ["command", "args"] n
  let command ← field fs "command" s.text d.command
  let args ← field fs "args" (s.listOf s.text) d.args
  return ⟨command, args⟩

/-- The logging. -/
def loggingSettings (n : ν) : Reading LoggingSettings := do
  let d := Config.standardLogging
  let fs ← s.record ["level", "json"] n
  let level ← field fs "level" s.text d.level
  let json ← field fs "json" s.flag d.json
  return ⟨level, json⟩

/-- The place of the history. -/
def exportPath (n : ν) : Reading String := do
  let fs ← s.record ["path"] n
  field fs "path" s.text Config.standardExport

/-- A whole configuration. -/
def config (n : ν) : Reading Config := do
  let d := Config.standard
  let fs ← s.record ["simulation", "physics", "parser", "logging", "export", "engines"] n
  let settings ← field fs "simulation" s.settings d.settings
  let fixedStep ← field fs "physics" s.fixedStep d.fixedStep
  let parser ← field fs "parser" s.parserSettings d.parser
  let logging ← field fs "logging" s.loggingSettings d.logging
  let exportPath ← field fs "export" s.exportPath d.exportPath
  let engines ← field fs "engines" s.engines d.engines
  return ⟨settings, fixedStep, parser, logging, exportPath, engines⟩

end View

/-! ## Configurations as data -/

/-- Data looked at as it is. -/
def Value.view : View Value where
  text
    | .text s => pure s
    | _ => failure
  word
    | .number (.integer i _) => if 0 ≤ i then pure i.toNat.toUInt64 else failure
    | _ => failure
  float v := v.float?.elim failure pure
  flag
    | .bool b => pure b
    | _ => failure
  value := pure
  tree v := pure (Tree.ofValue v)
  items
    | .list items => pure items
    | _ => failure
  entries
    | .mapping fields => pure fields
    | _ => failure
  positions
    | .list items => some items
    | _ => none

/-- Engines given as data. -/
def EngineSpec.tableOfValue? (v : Value) : Option (Table EngineSpec) :=
  (Value.view.engines v 0).map (·.1)

/-- A configuration given as data. -/
def Config.ofValue? (v : Value) : Option Config := (Value.view.config v 0).map (·.1)

end Orrery
