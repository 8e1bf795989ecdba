import Orrery.Session
import Std.Time.DateTime.Timestamp

/-!
# The command line

`orrery [CONFIGURATION]` runs one session: the configuration is read from the given file, or from
`orrery.yaml`, and need not exist.  `ORRERY_PARSER` names the filter that reads expressions and
`ORRERY_LOG` the log filter.  The history goes to the place that the configuration names.

All decisions are made by `Session.run`; this module gathers what a session needs to know and writes
what it gives back.
-/

namespace Orrery

namespace CommandLine

/-- The configuration that is read unless another is named. -/
def standardPath : String := "orrery.yaml"

/-- What is found at a place. -/
def find (path : String) : IO Found := do
  try return .file (← IO.FS.readFile path)
  catch
    | .noFileOrDirectory .. => return .nothing
    | _ => return .unreadable

/-- A fresh number, the first 48 bits of which count milliseconds. -/
def freshId (milliseconds : Nat) : IO RunId := do
  let bytes ← IO.getRandomBytes 10
  let random := bytes.toList.foldl (fun n b => 256 * n + b.toNat) 0
  let random := BitVec.ofNat 80 random
  let version : BitVec 4 := 7
  let variant : BitVec 2 := 2
  return ⟨(BitVec.ofNat 48 milliseconds ++ version ++ random.extractLsb' 68 12 ++ variant
    ++ random.extractLsb' 0 62).cast rfl⟩

/-- The present moment. -/
def now : IO Instant := do
  let t ← Std.Time.Timestamp.now
  let n := t.toNanosecondsSinceUnixEpoch.val
  let seconds := n / 1000000000
  return ⟨seconds / 86400, (seconds % 86400).toNat, (n % 1000000000).toNat⟩

/-- What a session learns from outside, with the given configuration. -/
def gather (configuration : Found) : IO Session := do
  let t ← now
  let milliseconds := (t.day * 86400 + t.second) * 1000 + t.nanosecond / 1000000
  return {
    configuration
    parser := ← IO.getEnv "ORRERY_PARSER"
    logFilter := ← IO.getEnv "ORRERY_LOG"
    runId := ← freshId milliseconds.toNat
    now := t }

/-- Say what went wrong; the answer is the exit status. -/
def complain (e : SessionError) : IO UInt32 := do
  IO.eprintln ("Error: " ++ e.message)
  return e.status.toUInt32

/-- Run one session and write its history; the answer is the exit status. -/
def run (args : List String) : IO UInt32 := do
  match (← gather (← find (args.headD standardPath))).run with
  | .error e => complain e
  | .ok (path, history) =>
    try
      IO.FS.writeFile path history.text
      return 0
    catch _ => complain .unwritable

end CommandLine

end Orrery

/-- Run one session. -/
def main (args : List String) : IO UInt32 := Orrery.CommandLine.run args
