import Tricolor.Collector
import Tricolor.Heap.Check
import Tricolor.Simulation.Attempt
import Tricolor.Simulation.Report

/-!
# Simulation runs

Mutators take turns in a fixed order, one operation each, and the collector
takes a step after every operation.  When an allocation finds no free node, the
world is stopped for a complete collection and the allocation is tried again.
-/

namespace Tricolor

variable {σ : Type} [DrawSource σ]

/-- A mutator: its source of draws and its counters. -/
structure Worker (σ : Type) where
  source : σ
  stats : MutatorStats := {}

/-- The heap and its collector in the course of a run. -/
structure Stage where
  collection : Collection
  /-- How often the world was stopped. -/
  forced : Nat := 0

namespace Stage

/-- Performs an attempt, collecting and trying again if memory has run out. -/
def perform (stage : Stage) (attempt : Attempt) : Option Fault × Stage :=
  let ⟨⟨heap, collector⟩, forced⟩ := stage
  match attempt.perform heap with
  | (some .outOfMemory, heap) =>
      let ⟨heap, collector⟩ := Collection.stopTheWorld ⟨heap, collector⟩
      let (fault, heap) := attempt.perform heap
      (fault, ⟨⟨heap, collector⟩, forced + 1⟩)
  | (fault, heap) => (fault, ⟨⟨heap, collector⟩, forced⟩)

/-- One operation of one mutator and the collector step after it. -/
def turn (budget : Nat) (stage : Stage) (worker : Worker σ) :
    Except Fault (Worker σ) × Stage :=
  let (attempt, source) := Attempt.draw stage.collection.heap worker.source
  let (fault, stage) := stage.perform attempt
  match worker.stats.record attempt.operation fault with
  | (some fault, _) => (.error fault, stage)
  | (none, stats) =>
      (.ok { source, stats },
        { stage with collection := (stage.collection.step budget).2 })

/-- One turn of every mutator. -/
def round (budget : Nat) (stage : Stage) :
    List (Worker σ) → Except Fault (List (Worker σ)) × Stage
  | [] => (.ok [], stage)
  | worker :: workers =>
      match stage.turn budget worker with
      | (.error fault, stage) => (.error fault, stage)
      | (.ok worker, stage) =>
          match round budget stage workers with
          | (.error fault, stage) => (.error fault, stage)
          | (.ok workers, stage) => (.ok (worker :: workers), stage)

def rounds (budget : Nat) : Nat → Stage → List (Worker σ) →
    Except Fault (List (Worker σ)) × Stage
  | 0, stage, workers => (.ok workers, stage)
  | count + 1, stage, workers =>
      match stage.round budget workers with
      | (.error fault, stage) => (.error fault, stage)
      | (.ok workers, stage) => rounds budget count stage workers

/-- Completes the cycle in progress, if any. -/
def settle (stage : Stage) : Stage :=
  if stage.collection.heap.phase.isActive then
    { stage with collection := stage.collection.runCycle.2 }
  else stage

end Stage

namespace Config

/-- The number of mutators that the mode calls for. -/
def workerCount (config : Config) : Nat :=
  match config.mode with
  | .concurrent => config.mutators
  | .incremental => 1

/-- The mutators with their sources; each has a seed of its own. -/
def workers (config : Config) (sourceOf : (seed : Nat) → σ) : List (Worker σ) :=
  (List.range config.workerCount).map fun index =>
    { source := sourceOf ((config.seed + index) % UInt64.size) }

def reportOn (config : Config) (stage : Stage) (workers : List (Worker σ)) :
    SimulationReport where
  mode := config.mode
  capacity := config.capacity
  mutators := config.workerCount
  seed := config.seed
  stats := workers.foldl (fun total worker => total.merge worker.stats) {}
  cycles := stage.collection.collector.stats.cycles
  nodesReclaimed := stage.collection.collector.stats.reclaimed
  stopTheWorld := match config.mode with
    | .concurrent => 0
    | .incremental => stage.forced
  liveNodes := stage.collection.heap.liveCount
  freeNodes := stage.collection.heap.freeCount

/-- Runs the simulation on a heap and checks the heap afterwards. -/
def simulateOn (config : Config) (sourceOf : (seed : Nat) → σ) (heap : Heap) :
    Except Fault SimulationReport × Heap :=
  let stage : Stage := { collection := Collection.attach heap }
  match stage.rounds config.collector.stepBudget config.operations (config.workers sourceOf) with
  | (.error fault, stage) => (.error fault, stage.collection.heap)
  | (.ok workers, stage) =>
      let stage := stage.settle
      let heap := stage.collection.heap
      (heap.checkInvariants.map fun _ => config.reportOn stage workers, heap)

/-- Runs the simulation with draws from the given sources.  The events are all
there are, whether the run succeeds or not. -/
def simulate (config : Config) (sourceOf : (seed : Nat) → σ) :
    Except Fault SimulationReport × List Event :=
  match Heap.ofCapacity config.capacity with
  | .error fault => (.error fault, [])
  | .ok heap =>
      let (result, heap) := config.simulateOn sourceOf heap
      (result, heap.events.toList)

end Config

end Tricolor
