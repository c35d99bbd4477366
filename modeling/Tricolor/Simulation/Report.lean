import Tricolor.Config.Basic
import Tricolor.JsonText.Value
import Tricolor.Simulation.Stats

/-!
# Simulation reports
-/

namespace Tricolor

open JsonText

/-- The outcome of a simulation run. -/
structure SimulationReport where
  mode : Mode
  capacity : Nat
  /-- The mutators that ran. -/
  mutators : Nat
  seed : Nat
  stats : MutatorStats
  /-- Collection cycles completed. -/
  cycles : Nat
  /-- Nodes that the collector put on the free list. -/
  nodesReclaimed : Nat
  /-- Collections forced by an empty free list, in incremental mode. -/
  stopTheWorld : Nat
  liveNodes : Nat
  freeNodes : Nat
  elapsedMs : Nat := 0
  deriving DecidableEq, Repr

def MutatorStats.toValue (stats : MutatorStats) : Value :=
  .object
    [("operations", .number stats.operations),
      ("allocations", .number stats.allocations),
      ("detaches", .number stats.detaches),
      ("relinks", .number stats.relinks),
      ("shades", .number stats.shades),
      ("out_of_memory", .number stats.outOfMemory),
      ("rejected", .number stats.rejected)]

namespace SimulationReport

def toValue (report : SimulationReport) : Value :=
  .object
    [("mode", .string report.mode.name),
      ("capacity", .number report.capacity),
      ("mutators", .number report.mutators),
      ("seed", .number report.seed),
      ("stats", report.stats.toValue),
      ("cycles", .number report.cycles),
      ("nodes_reclaimed", .number report.nodesReclaimed),
      ("stop_the_world", .number report.stopTheWorld),
      ("live_nodes", .number report.liveNodes),
      ("free_nodes", .number report.freeNodes),
      ("elapsed_ms", .number report.elapsedMs)]

def headline (report : SimulationReport) : String :=
  s!"{report.mode.name} run: {report.capacity} nodes, " ++
    s!"{report.mutators} mutator(s), seed {report.seed}"

def operationsLine (stats : MutatorStats) : String :=
  s!"  operations: {stats.operations} (alloc {stats.allocations}, " ++
    s!"detach {stats.detaches}, relink {stats.relinks}, shade {stats.shades})"

def failuresLine (stats : MutatorStats) : String :=
  s!"  failed:     {stats.outOfMemory} out of memory, {stats.rejected} rejected"

def collectorLine (report : SimulationReport) : String :=
  s!"  collector:  {report.cycles} cycles, {report.nodesReclaimed} reclaimed, " ++
    s!"{report.stopTheWorld} stop-the-world"

def heapLine (report : SimulationReport) : String :=
  s!"  heap:       {report.liveNodes} live, {report.freeNodes} free, {report.elapsedMs} ms"

/-- The report for people, line by line. -/
def lines (report : SimulationReport) : List String :=
  [report.headline, operationsLine report.stats, failuresLine report.stats,
    report.collectorLine, report.heapLine]

def text (report : SimulationReport) : String :=
  "\n".intercalate report.lines

end SimulationReport

end Tricolor
