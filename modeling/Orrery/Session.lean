import Orrery.Artifact.Export
import Orrery.Filter.Basic
import Orrery.LogFilter
import Orrery.Physics
import Orrery.Yaml.View

/-!
# Sessions

A session is the program from start to end: read the configuration, choose the log filter, build the
simulations of all engines, run them one after the other, and write the history.  All that it learns
from outside is in a `Session`, and all that it does to the outside is one file, so the whole is a
function to a `RunExport` and the place where it goes.

The directory in which a session runs holds nothing but the configuration, and the place of the history
is given relative to it or to the root.  `Path.isWritable` says whether a file can be made there.  A
device that takes nothing can be opened like a file; how writing to it fails depends on whether the
history fits into the buffer in front of it.
-/

namespace Orrery

/-- Why a session fails. -/
inductive SessionError where
  /-- There is no configuration. -/
  | config (cause : ConfigError)
  /-- The engines do not run. -/
  | runner (cause : RunnerError)
  /-- The history cannot be written to its place. -/
  | unwritable
  /-- The history cannot be encoded for its place. -/
  | unencodable
  /-- The log filter is not well formed. -/
  | logging (filter : String)
  /-- A text cannot be taken apart; there is no report. -/
  | abort
  deriving DecidableEq

namespace SessionError

/-- What is wrong, in a sentence. -/
def message : SessionError → String
  | .config cause => "config error: " ++ cause.message
  | .runner cause => "runner error: " ++ cause.message
  | .unwritable => "export I/O error"
  | .unencodable => "export encoding error"
  | .logging filter => "invalid log filter `" ++ filter ++ "`: invalid filter directive"
  | .abort => "aborted"

/-- The status with which the program ends. -/
def status : SessionError → Nat
  | .abort => 101
  | _ => 1

/-- Without a configuration there is no session; a gap that is too wide ends it without a report. -/
def ofConfig : ConfigError → SessionError
  | .overflow => .abort
  | e => .config e

end SessionError

/-- What is found at a place. -/
inductive Found where
  /-- Nothing. -/
  | nothing
  /-- A file that can be read. -/
  | file (text : String)
  /-- Something that cannot be read as a file. -/
  | unreadable
  deriving DecidableEq

namespace Path

/-- The parts of a path between slashes. -/
def parts (path : String) : List (List Char) := path.toList.splitOn '/'

/-- The parts of a path that lead anywhere. -/
def steps (path : String) : List (List Char) := (parts path).filter fun p => p ≠ [] && p ≠ ['.']

/-- Whether a path starts at the root. -/
def isAbsolute (path : String) : Bool := path.toList.head? = some '/'

/-- The directories below the root that are there wherever a session runs. -/
def systemDirectories : List (List Char) :=
  ["bin", "boot", "dev", "etc", "home", "lib", "media", "mnt", "opt", "proc", "root", "run", "sbin",
   "srv", "sys", "tmp", "usr", "var"].map String.toList

/-- The directories in which a file can be made wherever a session runs. -/
def openDirectories : List (List (List Char)) := [["tmp".toList], ["dev".toList], ["dev".toList, "shm".toList]]

/-- Whether a directory is there: the working directory, one above it, or a system directory. -/
def isDirectory (absolute : Bool) (steps : List (List Char)) : Bool :=
  steps.all (· = ['.', '.'])
    || (absolute && (openDirectories.contains steps || systemDirectories.any fun d => steps = [d]))

/-- Whether files can be made in a directory. -/
def isOpen (absolute : Bool) (steps : List (List Char)) : Bool :=
  steps.all (· = ['.', '.']) || (absolute && openDirectories.contains steps)

/-- The directory part of a path and its last part. -/
def cut (path : String) : List (List Char) × List Char :=
  let ps := parts path
  (ps.dropLast.filter fun p => p ≠ [] && p ≠ ['.'], ps.getLastD [])

/-- Whether a file can be made at a place. -/
def isWritable (path : String) : Bool :=
  let (directory, name) := cut path
  let absolute := isAbsolute path
  name ≠ [] && name ≠ ['.'] && name ≠ ['.', '.'] && (String.ofList name).utf8ByteSize ≤ 255
    && !path.toList.contains '\x00' && isOpen absolute directory
    && !(absolute && isDirectory true (directory ++ [name]))

/-- Whether a place is a given device. -/
def isDevice (name : String) (path : String) : Bool :=
  isAbsolute path && steps path = ["dev".toList, name.toList]

/-- Whether two paths lead to the same place. -/
def same (a b : String) : Bool := isAbsolute a = isAbsolute b && steps a = steps b

/-- What is found at a place before anything was put there. -/
def find (path : String) : Found :=
  if path = "" then .nothing
  else if isDevice "null" path then .file ""
  else if isDirectory (isAbsolute path) (steps path) then .unreadable
  else .nothing

end Path

/-- What a session learns from outside. -/
structure Session where
  /-- What is found at the place of the configuration. -/
  configuration : Found
  /-- A program that reads expressions, from the environment. -/
  parser : Option String
  /-- A log filter, from the environment. -/
  logFilter : Option String
  /-- The number of the run. -/
  runId : RunId
  /-- The time at which the history is written. -/
  now : Instant

namespace Session

/-- The configuration, which need not be there. -/
def configure (s : Session) : Except SessionError Config :=
  let parse (text : String) := (Config.parse text s.parser).mapError SessionError.ofConfig
  match s.configuration with
  | .nothing => parse ""
  | .file text => parse text
  | .unreadable => .error (.config .unreadable)

/-- The configured log filter must be well formed. -/
def checkConfigured (level : String) : Except SessionError Unit :=
  match LogFilter.check level with
  | .ok () => .ok ()
  | .error .refused => .error (.logging level)
  | .error .torn => .error .abort

/-- The filter from the environment applies if it is well formed, else the configured one, which must
be. -/
def checkLogging (s : Session) (c : Config) : Except SessionError Unit :=
  match s.logFilter.map LogFilter.check with
  | some (.ok ()) => .ok ()
  | some (.error .torn) => .error .abort
  | some (.error .refused) | none => checkConfigured c.logging.level

/-- Run simulations one after the other. -/
def runAll (iterations : Nat) : List Simulation → Except SimulationError (List Simulation)
  | [] => .ok []
  | s :: rest =>
    let r := s.run iterations
    match r.failure with
    | some e => .error e
    | none => (runAll iterations rest).map (r.simulation :: ·)

/-- How many bytes are gathered before anything is written. -/
def writeBuffer : Nat := 8192

/-- Whether a history arrives at its place. -/
def checkPlace (path : String) (history : RunExport) : Except SessionError Unit :=
  if !Path.isWritable path then .error .unwritable
  else if Path.isDevice "full" path then
    .error (if history.text.utf8ByteSize ≤ writeBuffer then .unwritable else .unencodable)
  else .ok ()

/-- The history, and where it is written. -/
def run (s : Session) : Except SessionError (String × RunExport) := do
  let c ← s.configure
  s.checkLogging c
  let provider := Provider.filter c.parser.command c.parser.args
  let registry := Registry.builtin c.fixedStep
  let simulations ← (Simulation.buildAll provider registry c.engines c.settings).mapError .runner
  let simulations ← (runAll c.settings.iterations.toNat simulations).mapError
    fun e => .runner (.simulation e)
  let history := RunExport.ofSimulations s.runId c.settings.name s.now simulations
  checkPlace c.exportPath history
  return (c.exportPath, history)

end Session

end Orrery
