import Orrery.Artifact.Instant
import Orrery.Artifact.RunId
import Orrery.Simulation
import Orrery.Value.Printer
import Orrery.Value.Reader

/-!
# The history of a run as a file

When a run is over, the history of every engine is written to one JSON text, together with the number
and the name of the run and the time of writing.  The records keep their order, so that reading the
text and replaying it gives the stores back.

Reading needs all four fields and accepts none of them twice; other fields are skipped.  A list of the
four does as well.
-/

namespace Orrery

/-- The history of a run. -/
structure RunExport where
  /-- The number of the run. -/
  runId : RunId
  /-- The name of the run. -/
  name : String
  /-- When the history was written. -/
  createdAt : Instant
  /-- The records of every engine. -/
  engines : Table (List (Record States))
  deriving DecidableEq

namespace RunExport

/-- The history that some simulations have made. -/
def ofSimulations (runId : RunId) (name : String) (createdAt : Instant) (simulations : List Simulation) :
    RunExport :=
  ⟨runId, name, createdAt, Table.ofList (simulations.map fun s => (s.engine, s.store.records))⟩

/-- How many records there are. -/
def recordCount (e : RunExport) : Nat := e.engines.values.flatten.length

/-- The stores that the records make. -/
def replay (e : RunExport) : Table (Store States) := e.engines.map Store.ofRecords

/-- What every engine knows at a point of time. -/
def merges (e : RunExport) (point : Float) : Table States := e.replay.map (·.merge point)

/-! ## Writing -/

/-- The records of every engine as data. -/
def enginesValue (e : RunExport) : Value :=
  .mapping (e.engines.map fun records => Value.list (records.map Record.toValue)).entries

/-- The text of the history.  The fields stand in an order of their own, so they are written one by
one. -/
def text (e : RunExport) : String :=
  let field (name : String) (value : Value) : List Char :=
    Value.newline 1 ++ Text.quoted name ++ ':' :: ' ' :: value.prettyChars 1
  String.ofList ('\x7b' :: field "run_id" (.text e.runId.text)
    ++ ',' :: field "name" (.text e.name)
    ++ ',' :: field "created_at" (.text e.createdAt.text)
    ++ ',' :: field "engines" e.enginesValue ++ ['\n', '\x7d'])

/-! ## Reading -/

/-- The records of every engine, within a depth. -/
def engines? (depth : Nat) : Tree → Option (Table (List (Record States)))
  | .mapping fields =>
    match depth with
    | 0 => none
    | d + 1 => fields.foldlM (fun t f => do
        let name ← f.1.text?
        let records ← Record.listOfTree? d f.2
        return t.insert name records) Table.empty
  | _ => none

/-- A history from its four parts. -/
def ofParts? (depth : Nat) (runId name createdAt engines : Tree) : Option RunExport := do
  let runId ← runId.text?.bind RunId.ofText?
  let name ← name.text?
  let createdAt ← createdAt.text?.bind Instant.ofText?
  let engines ← engines? depth engines
  return ⟨runId, name, createdAt, engines⟩

/-- The history that a tree holds. -/
def ofTree? : Tree → Option RunExport
  | .list [runId, name, createdAt, engines] =>
    ofParts? (Tree.depthLimit - 1) runId name createdAt engines
  | .mapping fields =>
    if Tree.namesReadable fields then
      match Tree.named fields "run_id", Tree.named fields "name", Tree.named fields "created_at",
        Tree.named fields "engines" with
      | [runId], [name], [createdAt], [engines] =>
        ofParts? (Tree.depthLimit - 1) runId name createdAt engines
      | _, _, _, _ => none
    else none
  | _ => none

/-- The history that a text holds. -/
def ofText? (text : String) : Option RunExport := (Tree.ofText? text).bind ofTree?

end RunExport

end Orrery
