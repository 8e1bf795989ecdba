import Orrery.Simulation

/-!
# Observed runs

A run can be followed while it goes on.  An *observer* is told of every commit as soon as it has been
made, and what it does then is its own affair: it may keep a count, send a line somewhere, or give up,
each in a monad of its own.  It is told what the history says, that is, what the newest record holds for
the agent that has moved on.

What has become of an engine at the end of a run is its `Summary`.
-/

namespace Orrery

universe u

/-- What an observer is told after a cycle: the commit, with the state that the newest record holds for
its agent. -/
def Cycle.told : Cycle → Option Commit
  | .committed after commit =>
    (after.store.records.getLast?.bind fun r => r.value.get? commit.agent).map fun state =>
      { commit with state }
  | .skipped | .failed .. => none

/-- Someone who is told of commits. -/
abbrev Observer (m : Type → Type u) := Commit → m PUnit

/-- The observer that counts what it is told. -/
def Observer.counting : Observer (StateM Nat) := fun _ => modify oneMore

namespace Run

variable {m : Type → Type u} [Monad m] (observer : Observer m)

/-- Cycles of some agents, until one fails. -/
def observedCycles (r : Run) (iteration : Nat) : List String → m Run
  | [] => pure r
  | agent :: rest => do
    let c := r.simulation.cycle iteration agent
    c.told.toList.forM observer
    let r := r.record c
    match r.failure with
    | some _ => pure r
    | none => r.observedCycles iteration rest

/-- One iteration. -/
def observedIterate (r : Run) (iteration : Nat) : m Run := do
  let r ← r.observedCycles observer iteration r.simulation.agents
  match r.failure with
  | some _ => return r
  | none => return { r with report.iterations := oneMore r.report.iterations }

/-- Iterations from a number on, until one fails. -/
def observedFrom (r : Run) (iteration : Nat) : Nat → m Run
  | 0 => pure r
  | n + 1 => do
    let r ← r.observedIterate observer iteration
    match r.failure with
    | some _ => return r
    | none => r.observedFrom (iteration + 1) n

end Run

/-- What has become of one engine. -/
structure Summary where
  /-- The engine. -/
  engine : String
  /-- What the run has counted. -/
  report : Report
  /-- How far each agent has got, in the order of the names. -/
  clocks : Entries Float
  /-- How many records the history has, the seed included. -/
  records : Nat
  deriving DecidableEq

/-- What has become of the engine of a run, unless the run has failed. -/
def Run.summary (r : Run) : Except RunnerError Summary :=
  match r.failure with
  | some e => .error (.simulation e)
  | none =>
    .ok ⟨r.simulation.engine, r.report, r.simulation.clocks.entries, r.simulation.store.size⟩

namespace Simulation

variable {m : Type → Type u} [Monad m]

/-- Drive a simulation for some iterations while an observer is told of its commits. -/
def observedRun (observer : Observer m) (s : Simulation) (iterations : Nat) : m Run :=
  (Run.start s).observedFrom observer 0 iterations

/-- Drive the simulation of an engine; the answer is what has become of it, and the simulation. -/
def drive (observer : Observer m) (s : Simulation) (iterations : Nat) :
    m (Except RunnerError Summary × Simulation) := do
  let r ← s.observedRun observer iterations
  return (r.summary, r.simulation)

end Simulation

end Orrery
