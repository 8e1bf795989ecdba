import Orrery.Clocks
import Orrery.Step
import Orrery.Store
import Orrery.Text.Named

/-!
# Simulations

A simulation drives one engine.  Each agent has its own clock, and what is known of the past is the
store.  A *cycle* of an agent reads the store a little before the agent's clock, steps the engine
against that snapshot, keeps what the step says about the agent, and commits it to the interval from
the clock to the time that the new state carries; the clock moves to that time.  While the snapshot
does not hold every agent, the agent is skipped: a peer has not got that far.  An *iteration* is one
cycle of every agent in the order of the names.

The history begins with a seed, one record that holds the initial state of all agents until the latest
of their initial times.

A run that fails keeps what it has done.  For this reason the outcome of a run is not a result or an
error but a `Run`: the simulation as it stands then, the counts, the commits in their order, and the
failure if there was one.
-/

namespace Orrery

/-- What a run is told besides its engines. -/
structure Settings where
  /-- A name for people. -/
  name : String
  /-- How many iterations every engine is driven. -/
  iterations : UInt64
  /-- How far before an agent's clock the snapshot is read. -/
  readOffset : Float
  /-- Where the seed begins. -/
  seedLow : Float
  deriving DecidableEq

/-- What is wrong with an initial state. -/
inductive SeedFault where
  /-- The engine has no agents. -/
  | noAgents
  /-- The agents with a state are not the agents with rules. -/
  | agentsDiffer (initial declared : List String)
  /-- An agent has no finite time or no finite step. -/
  | notTimed (agent : String)
  deriving DecidableEq

/-- What is wrong, in a sentence. -/
def SeedFault.message : SeedFault → String
  | .noAgents => "no agents declared"
  | .agentsDiffer initial declared =>
    "initial agents " ++ Text.shownNames initial ++ " do not match declared agents "
      ++ Text.shownNames declared
  | .notTimed agent => "agent " ++ agent ++ " needs finite numeric time and timeStep"

/-- Why a simulation does not start, or stops. -/
inductive SimulationError where
  /-- The engine has no rules. -/
  | graph (cause : GraphError)
  /-- The initial state cannot be the seed. -/
  | initialState (engine : String) (fault : SeedFault)
  /-- A step fails. -/
  | step (cause : StepError)
  /-- The store refuses an interval. -/
  | store (cause : StoreError)
  /-- A clock does not move. -/
  | clock (cause : ClockError)
  /-- The new state of an agent does not say what time it stands for. -/
  | missingTime (engine agent : String)
  deriving DecidableEq

/-- What is wrong, in a sentence. -/
def SimulationError.message : SimulationError → String
  | .graph cause => "graph error: " ++ cause.message
  | .initialState engine fault =>
    "invalid initial state for engine " ++ engine ++ ": " ++ fault.message
  | .step cause => "step failed: " ++ cause.message
  | .store cause => "store error: " ++ cause.message
  | .clock cause => "clock error: " ++ cause.message
  | .missingTime engine agent =>
    "engine " ++ engine ++ ", agent " ++ agent ++ ": resolved state has no numeric time"

/-- One engine on its way. -/
structure Simulation where
  /-- The rules. -/
  graph : RuleGraph
  /-- The engine that is driven. -/
  engine : String
  /-- Its agents in the order in which they take their turns. -/
  agents : List String
  /-- What has been committed. -/
  store : Store States
  /-- How far each agent has got. -/
  clocks : Clocks
  /-- How far before an agent's clock the snapshot is read. -/
  readOffset : Float

namespace Simulation

/-! ## The seed -/

/-- The time at which an agent starts, if its state also has a step and both are finite. -/
def startOf? (state : Value) : Option Float :=
  match state.time?, state.numericField? Value.timeStepField with
  | some time, some step => if time.isFinite && step.isFinite then some time else none
  | _, _ => none

/-- The clock of every agent at the start. -/
def initialClocks : Entries Value → Except SeedFault (List (String × Float))
  | [] => .ok []
  | (agent, state) :: rest =>
    match startOf? state with
    | none => .error (.notTimed agent)
    | some time => (initialClocks rest).map ((agent, time) :: ·)

/-- The latest of some times. -/
def latest (times : List Float) : Float :=
  times.foldl (fun a b => if a < b then b else a) (-1.0 / 0.0)

/-- Check the initial state, seed the history with it and set the clocks. -/
def create (graph : RuleGraph) (engine : String) (initial : States) (settings : Settings) :
    Except SimulationError Simulation := do
  let rules ← (graph.agents engine).mapError .graph
  let agents := rules.keys
  if agents.isEmpty then throw (.initialState engine .noAgents)
  if initial.keys ≠ agents then
    throw (.initialState engine (.agentsDiffer initial.keys agents))
  let clocks ← (initialClocks initial.entries).mapError (.initialState engine)
  let store ← (Store.empty.insert settings.seedLow (latest (clocks.map (·.2))) initial).mapError .store
  return ⟨graph, engine, agents, store, Table.ofList clocks, settings.readOffset⟩

end Simulation

/-! ## Cycles -/

/-- An interval that was committed. -/
structure Commit where
  /-- The iteration, counted from zero. -/
  iteration : Nat
  /-- The engine. -/
  engine : String
  /-- The agent that moved on. -/
  agent : String
  /-- Where its clock was. -/
  low : Float
  /-- Where its clock is now. -/
  high : Float
  /-- Its state from there on. -/
  state : Value
  deriving DecidableEq

/-- How a cycle ends. -/
inductive Cycle where
  /-- A peer has not got far enough. -/
  | skipped
  /-- The agent has moved on. -/
  | committed (after : Simulation) (commit : Commit)
  /-- The cycle stops the run, and leaves this behind. -/
  | failed (after : Simulation) (cause : SimulationError)

namespace Simulation

/-- What is known of an agent's surroundings when its clock shows a time. -/
def snapshot (s : Simulation) (clock : Float) : States := s.store.merge (clock - s.readOffset)

/-- The state that a step gives an agent, and the time it carries. -/
def advanced (s : Simulation) (agent : String) (snapshot : States) :
    Except SimulationError (Value × Float) :=
  match s.graph.step s.engine (Table.single s.engine snapshot) with
  | .error e => .error (.step e)
  | .ok states =>
    match states.get? agent with
    | none => .error (.missingTime s.engine agent)
    | some state =>
      match state.time? with
      | none => .error (.missingTime s.engine agent)
      | some time => .ok (state, time)

/-- One cycle of one agent. -/
def cycle (s : Simulation) (iteration : Nat) (agent : String) : Cycle :=
  match s.clocks.get? agent with
  | none => .failed s (.clock (.unknownAgent agent))
  | some clock =>
    let snapshot := s.snapshot clock
    if snapshot.keys ≠ s.agents then .skipped
    else
      match s.advanced agent snapshot with
      | .error e => .failed s e
      | .ok (state, time) =>
        match s.clocks.advance agent time with
        | .error e => .failed s (.clock e)
        | .ok (_, clocks) =>
          let moved := { s with clocks }
          match s.store.insert clock time (Table.single agent state) with
          | .error e => .failed moved (.store e)
          | .ok store =>
            .committed { moved with store } ⟨iteration, s.engine, agent, clock, time, state⟩

end Simulation

/-! ## Runs -/

/-- One more, up to the largest number of 64 bits. -/
def oneMore (n : Nat) : Nat := min (n + 1) 18446744073709551615

/-- What a run counts. -/
structure Report where
  /-- Iterations that were completed. -/
  iterations : Nat
  /-- Cycles that committed an interval. -/
  commits : Nat
  /-- Cycles that were skipped. -/
  skipped : Nat
  deriving DecidableEq

/-- A run up to now. -/
structure Run where
  /-- The simulation as it stands. -/
  simulation : Simulation
  /-- The counts. -/
  report : Report
  /-- The commits, oldest first. -/
  commits : List Commit
  /-- Why the run stopped before its end. -/
  failure : Option SimulationError

namespace Run

/-- A run that has done nothing. -/
def start (s : Simulation) : Run := ⟨s, ⟨0, 0, 0⟩, [], none⟩

/-- Take in the end of a cycle. -/
def record (r : Run) : Cycle → Run
  | .skipped => { r with report.skipped := oneMore r.report.skipped }
  | .committed after commit =>
    { r with
      simulation := after
      report.commits := oneMore r.report.commits
      commits := r.commits ++ [commit] }
  | .failed after cause => { r with simulation := after, failure := some cause }

/-- Cycles of some agents, until one fails. -/
def cycles (r : Run) (iteration : Nat) : List String → Run
  | [] => r
  | agent :: rest =>
    let r := r.record (r.simulation.cycle iteration agent)
    match r.failure with
    | some _ => r
    | none => r.cycles iteration rest

/-- One iteration. -/
def iterate (r : Run) (iteration : Nat) : Run :=
  let r := r.cycles iteration r.simulation.agents
  match r.failure with
  | some _ => r
  | none => { r with report.iterations := oneMore r.report.iterations }

/-- Iterations from a number on, until one fails. -/
def iterateFrom (r : Run) (iteration : Nat) : Nat → Run
  | 0 => r
  | n + 1 =>
    let r := r.iterate iteration
    match r.failure with
    | some _ => r
    | none => r.iterateFrom (iteration + 1) n

/-- The counts, or the failure. -/
def outcome (r : Run) : Except SimulationError Report :=
  match r.failure with
  | some e => .error e
  | none => .ok r.report

end Run

/-- Drive a simulation for some iterations. -/
def Simulation.run (s : Simulation) (iterations : Nat) : Run :=
  (Run.start s).iterateFrom 0 iterations

/-! ## All engines of a configuration -/

/-- Why engines do not run. -/
inductive RunnerError where
  /-- There is no rule graph. -/
  | graph (cause : GraphError)
  /-- A simulation does not start, or stops. -/
  | simulation (cause : SimulationError)
  deriving DecidableEq

/-- What is wrong, in a sentence. -/
def RunnerError.message : RunnerError → String
  | .graph cause => "graph error: " ++ cause.message
  | .simulation cause => "simulation error: " ++ cause.message

/-- One simulation for every engine over a common graph, in the order of the names. -/
def Simulation.createAll (graph : RuleGraph) (settings : Settings) :
    Entries EngineSpec → Except SimulationError (List Simulation)
  | [] => .ok []
  | (engine, spec) :: rest => do
    let s ← create graph engine spec.initial settings
    let others ← createAll graph settings rest
    return s :: others

/-- Build the graph of all engines and a simulation for every one of them. -/
def Simulation.buildAll (provider : Provider) (registry : Registry) (engines : Table EngineSpec)
    (settings : Settings) : Except RunnerError (List Simulation) := do
  let graph ← (RuleGraph.build provider registry engines).mapError .graph
  (createAll graph settings engines.entries).mapError .simulation

end Orrery
