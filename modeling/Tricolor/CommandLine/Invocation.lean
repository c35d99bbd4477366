import Tricolor.Config.Basic
import Tricolor.JsonText.Numeral

/-!
# Invocations

What the command line can say: settings that take a value, switches that do
not, and the configuration that results from them.
-/

namespace Tricolor

/-- What a command line asks for.  A setting that is not given leaves the
configuration as it is. -/
structure Invocation where
  /-- The configuration file. -/
  config : Option String := none
  capacity : Option Nat := none
  mutators : Option Nat := none
  operations : Option Nat := none
  seed : Option Nat := none
  mode : Option Mode := none
  logDir : Option String := none
  stepBudget : Option Nat := none
  cyclePauseMs : Option Nat := none
  /-- Print the report as JSON. -/
  json : Bool := false
  verbosity : Nat := 0
  deriving DecidableEq, Repr

/-- What is wrong with a command line. -/
inductive UsageError where
  | unknownArgument (argument : String)
  | missingValue
  | emptyPath
  | unknownMode (name : String)
  | notACount (text : String)
  /-- An argument that may be given once was given again. -/
  | repeated
  /-- A value was attached to a switch. -/
  | unexpectedValue (value : String)
  deriving DecidableEq, Repr

def UsageError.message : UsageError → String
  | .unknownArgument argument => s!"unexpected argument '{argument}'"
  | .missingValue => "an option is missing its value"
  | .emptyPath => "a path must not be empty"
  | .unknownMode name => s!"'{name}' is neither concurrent nor incremental"
  | .notACount text => s!"'{text}' is not a number from 0 to 18446744073709551615"
  | .repeated => "an option was given more than once"
  | .unexpectedValue value => s!"unexpected value '{value}' for a switch"

/-- An option that takes a value. -/
inductive Setting where
  | config
  | capacity
  | mutators
  | operations
  | seed
  | mode
  | logDir
  | stepBudget
  | cyclePauseMs
  deriving DecidableEq, Repr

/-- An option that takes no value. -/
inductive Switch where
  | json
  | verbose
  | help
  | version
  deriving DecidableEq, Repr

inductive Flag where
  | setting (setting : Setting)
  | switch (switch : Switch)
  deriving DecidableEq, Repr

/-- Finds an option by its long name. -/
def Flag.ofName? : String → Option Flag
  | "config" => some (.setting .config)
  | "capacity" => some (.setting .capacity)
  | "mutators" => some (.setting .mutators)
  | "operations" => some (.setting .operations)
  | "seed" => some (.setting .seed)
  | "mode" => some (.setting .mode)
  | "log-dir" => some (.setting .logDir)
  | "step-budget" => some (.setting .stepBudget)
  | "cycle-pause-ms" => some (.setting .cyclePauseMs)
  | "json" => some (.switch .json)
  | "verbose" => some (.switch .verbose)
  | "help" => some (.switch .help)
  | "version" => some (.switch .version)
  | _ => none

/-- Finds an option by its letter. -/
def Flag.ofLetter? : Char → Option Flag
  | 'c' => some (.setting .capacity)
  | 'm' => some (.setting .mutators)
  | 'n' => some (.setting .operations)
  | 's' => some (.setting .seed)
  | 'l' => some (.setting .logDir)
  | 'v' => some (.switch .verbose)
  | 'h' => some (.switch .help)
  | 'V' => some (.switch .version)
  | _ => none

/-- Reads a count: decimal digits behind an optional plus sign. -/
def parseCount (text : String) : Except UsageError Nat :=
  let digits := match text.toList with
    | '+' :: digits => digits
    | digits => digits
  let value := JsonText.ofDigits (JsonText.digitValues digits)
  if digits ≠ [] ∧ digits.all JsonText.isDigit = true ∧ value ≤ JsonText.maxCount then .ok value
  else .error (.notACount text)

def parsePath (text : String) : Except UsageError String :=
  if text.isEmpty then .error .emptyPath else .ok text

def parseMode (text : String) : Except UsageError Mode :=
  match Mode.all.find? fun mode => mode.name == text with
  | some mode => .ok mode
  | none => .error (.unknownMode text)

namespace Invocation

def isGiven (invocation : Invocation) : Setting → Bool
  | .config => invocation.config.isSome
  | .capacity => invocation.capacity.isSome
  | .mutators => invocation.mutators.isSome
  | .operations => invocation.operations.isSome
  | .seed => invocation.seed.isSome
  | .mode => invocation.mode.isSome
  | .logDir => invocation.logDir.isSome
  | .stepBudget => invocation.stepBudget.isSome
  | .cyclePauseMs => invocation.cyclePauseMs.isSome

def assign (invocation : Invocation) (text : String) : Setting → Except UsageError Invocation
  | .config => (parsePath text).map fun path => { invocation with config := some path }
  | .capacity => (parseCount text).map fun count => { invocation with capacity := some count }
  | .mutators => (parseCount text).map fun count => { invocation with mutators := some count }
  | .operations => (parseCount text).map fun count => { invocation with operations := some count }
  | .seed => (parseCount text).map fun count => { invocation with seed := some count }
  | .mode => (parseMode text).map fun mode => { invocation with mode := some mode }
  | .logDir => (parsePath text).map fun path => { invocation with logDir := some path }
  | .stepBudget => (parseCount text).map fun count => { invocation with stepBudget := some count }
  | .cyclePauseMs =>
      (parseCount text).map fun count => { invocation with cyclePauseMs := some count }

/-- Gives a setting its value.  A missing value is worse than a repeated
setting, and a repeated setting is worse than a bad value. -/
def give (invocation : Invocation) (setting : Setting) :
    Option String → Except UsageError Invocation
  | none => .error .missingValue
  | some text =>
      if invocation.isGiven setting then .error .repeated else invocation.assign text setting

/-- The configuration with the given settings replaced. -/
def override (invocation : Invocation) (config : Config) : Config where
  capacity := invocation.capacity.getD config.capacity
  mutators := invocation.mutators.getD config.mutators
  operations := invocation.operations.getD config.operations
  seed := invocation.seed.getD config.seed
  mode := invocation.mode.getD config.mode
  logDir := invocation.logDir.or config.logDir
  collector :=
    { config.collector with
      stepBudget := invocation.stepBudget.getD config.collector.stepBudget
      cyclePauseMs := invocation.cyclePauseMs.getD config.collector.cyclePauseMs }

end Invocation

/-- How much is logged at a verbosity. -/
def logLevel (verbosity : Nat) : String :=
  if verbosity = 0 then "info" else if verbosity = 1 then "debug" else "trace"

end Tricolor
