/-!
# Configurations

The settings of one simulation run and the combinations that cannot run.
-/

namespace Tricolor

/-- How the collector takes turns with the mutators. -/
inductive Mode where
  /-- Several mutators share the heap with a collector of their own. -/
  | concurrent
  /-- One mutator, with a collector step after every operation. -/
  | incremental
  deriving DecidableEq, Repr, Inhabited

namespace Mode

def all : List Mode := [.concurrent, .incremental]

def name : Mode → String
  | .concurrent => "concurrent"
  | .incremental => "incremental"

end Mode

/-- The settings of the collector. -/
structure CollectorConfig where
  /-- The pause between two cycles in the background. -/
  cyclePauseMs : Nat := 1
  /-- Units of work per step. -/
  stepBudget : Nat := 5
  threadName : String := "gc-collector"
  /-- How long a mutator that ran out of memory waits for a cycle. -/
  oomWaitMs : Nat := 100
  deriving DecidableEq, Repr

/-- The settings of a simulation run. -/
structure Config where
  capacity : Nat := 1024
  mutators : Nat := 4
  /-- Operations of each mutator. -/
  operations : Nat := 10000
  /-- The seed of the first mutator. -/
  seed : Nat := 0
  mode : Mode := .concurrent
  /-- The directory that receives the telemetry logs. -/
  logDir : Option String := none
  collector : CollectorConfig := {}
  deriving DecidableEq, Repr

/-- Why a configuration cannot run. -/
inductive ConfigFault where
  | capacityTooSmall (capacity : Nat)
  | noMutators
  | noStepBudget
  deriving DecidableEq, Repr

def ConfigFault.message : ConfigFault → String
  | .capacityTooSmall capacity => s!"capacity must be at least 4, got {capacity}"
  | .noMutators => "concurrent mode needs at least one mutator"
  | .noStepBudget => "step_budget must be positive"

/-- Refuses configurations that cannot run. -/
def Config.validate (config : Config) : Except ConfigFault Unit :=
  if config.capacity < 4 then .error (.capacityTooSmall config.capacity)
  else if config.mode = .concurrent ∧ config.mutators = 0 then .error .noMutators
  else if config.collector.stepBudget = 0 then .error .noStepBudget
  else .ok ()

end Tricolor
