import Tricolor.Color
import Tricolor.Config.Basic
import Tricolor.JsonText.Record
import Tricolor.JsonText.Value

/-!
# Configurations as JSON text

The fields of a configuration in their order, the readers built from them, and
the text that a configuration is written as.
-/

namespace Tricolor

open JsonText

/-- Reads a value by its name. -/
def nameReader (all : List α) (name : α → String) : Reader α :=
  choice (all.map fun value => (name value, value))

def Color.reader : Reader Color := nameReader Color.all Color.name

def Phase.reader : Reader Phase := nameReader Phase.all Phase.name

def Side.reader : Reader Side := nameReader Side.both Side.name

def Mode.reader : Reader Mode := nameReader Mode.all Mode.name

namespace CollectorConfig

def fields : List (RecordField CollectorConfig) :=
  [.of "cycle_pause_ms" count fun cyclePauseMs config => { config with cyclePauseMs },
    .of "step_budget" count fun stepBudget config => { config with stepBudget },
    .of "thread_name" string fun threadName config => { config with threadName },
    .of "oom_wait_ms" count fun oomWaitMs config => { config with oomWaitMs }]

def reader : Reader CollectorConfig := record fields {}

def toValue (config : CollectorConfig) : Value :=
  .object
    [("cycle_pause_ms", .number config.cyclePauseMs),
      ("step_budget", .number config.stepBudget),
      ("thread_name", .string config.threadName),
      ("oom_wait_ms", .number config.oomWaitMs)]

end CollectorConfig

namespace Config

def fields : List (RecordField Config) :=
  [.of "capacity" count fun capacity config => { config with capacity },
    .of "mutators" count fun mutators config => { config with mutators },
    .of "operations" count fun operations config => { config with operations },
    .of "seed" count fun seed config => { config with seed },
    .of "mode" Mode.reader fun mode config => { config with mode },
    .of "log_dir" optionalString fun logDir config => { config with logDir },
    .of "collector" CollectorConfig.reader fun collector config => { config with collector }]

def reader : Reader Config := record fields {}

def toValue (config : Config) : Value :=
  .object
    [("capacity", .number config.capacity),
      ("mutators", .number config.mutators),
      ("operations", .number config.operations),
      ("seed", .number config.seed),
      ("mode", .string config.mode.name),
      ("log_dir", Value.ofOption .string config.logDir),
      ("collector", config.collector.toValue)]

end Config

end Tricolor
