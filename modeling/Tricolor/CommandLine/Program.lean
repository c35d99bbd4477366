import Tricolor.CommandLine.Parse
import Tricolor.Config.Text
import Tricolor.Files.Host
import Tricolor.Random.ChaCha
import Tricolor.Simulation.Run
import Tricolor.Telemetry.Log

/-!
# The program

Loads a configuration, runs the simulation, writes the telemetry logs and
prints the report, on whatever host there is.
-/

namespace Tricolor

/-- Why a run failed. -/
inductive RunError where
  | fault (fault : Fault)
  | file (path : String) (error : FileError)
  /-- The configuration file is not the text of a configuration. -/
  | unreadableConfig (path : String) (failure : JsonText.Failure)
  | invalidConfig (fault : ConfigFault)
  deriving DecidableEq, Repr

def RunError.message : RunError → String
  | .fault cause => s!"collector error: {cause.message}"
  | .file path error => s!"file error at '{path}': {error.message}"
  | .unreadableConfig path _ => s!"invalid config file '{path}'"
  | .invalidConfig cause => s!"invalid configuration: {cause.message}"

/-- Reads the text of a configuration. -/
def Config.ofText (text : String) : Except JsonText.Failure Config :=
  Config.reader.readAll text.toList

def Config.check (config : Config) : Except RunError Unit :=
  config.validate.mapError .invalidConfig

section Host

variable {m : Type → Type} [Monad m] [Host m]

/-- Attributes the errors of a file operation to a path. -/
def onPath (path : String) (operation : m (Except FileError α)) : ExceptT RunError m α := do
  match ← operation with
  | .error error => throw (.file path error)
  | .ok value => return value

def Config.load (path : String) : ExceptT RunError m Config := do
  let text ← onPath path (readTextFile path)
  match Config.ofText text with
  | .error failure => throw (.unreadableConfig path failure)
  | .ok config => return config

/-- The configuration of a run: defaults, then the file, then the settings of
the command line. -/
def Invocation.resolve (invocation : Invocation) : ExceptT RunError m Config := do
  let base ← match invocation.config with
    | none => pure {}
    | some path => Config.load path
  let config := invocation.override base
  match config.check with
  | .error error => throw error
  | .ok () => return config

/-- Creates the two log files of a directory, unless they exist. -/
def openLogs (directory : String) : m (Except FileError Unit) := do
  match ← Host.appendFile (joinPath directory Log.memoryFile) ByteArray.empty with
  | .error error => return .error error
  | .ok () => Host.appendFile (joinPath directory Log.progressFile) ByteArray.empty

/-- Appends to the two log files of a directory.  Write errors are ignored. -/
def appendLogs (directory : String) (log : Log) : m Unit := do
  let _ ← Host.appendFile (joinPath directory Log.memoryFile) log.memoryUsage.written.toUTF8
  let _ ← Host.appendFile (joinPath directory Log.progressFile) log.progress.written.toUTF8

/-- Feeds the signals to the logs of a directory. -/
def recordLogs (directory : String) (signals : List Signal) : m (Except FileError Unit) := do
  match ← openLogs directory with
  | .error error => return .error error
  | .ok () =>
      appendLogs directory (({} : Log).record signals)
      return .ok ()

/-- Creates the directory for the logs and the logs in it.  Without a directory there is
nothing to open. -/
def openTelemetry : Option String → ExceptT RunError m Unit
  | none => return ()
  | some directory => do
      onPath directory (Host.createDirectories directory)
      onPath directory (openLogs directory)

def writeTelemetry (directory : Option String) (log : Log) : m Unit :=
  match directory with
  | none => return ()
  | some directory => appendLogs directory log

/-- Runs a simulation with draws from the given sources and writes its logs. -/
def Config.runWith {σ : Type} [DrawSource σ] (config : Config) (sourceOf : (seed : Nat) → σ) :
    ExceptT RunError m SimulationReport :=
  match config.check with
  | .error error => throw error
  | .ok () => do
      openTelemetry config.logDir
      let started ← (Host.clock : m Nat)
      let (result, events) := config.simulate sourceOf
      (writeTelemetry config.logDir (Log.ofEvents events) : m Unit)
      let finished ← (Host.clock : m Nat)
      match result with
      | .error fault => throw (.fault fault)
      | .ok report => return { report with elapsedMs := finished - started }

def Config.run (config : Config) : ExceptT RunError m SimulationReport :=
  config.runWith fun seed => ChaCha8.ofSeed seed.toUInt64

end Host

/-- What the program leaves behind when it ends. -/
structure Ending where
  exitCode : UInt8 := 0
  /-- What is printed, if anything. -/
  output : Option String := none
  /-- What is printed on the error stream, if anything. -/
  complaint : Option String := none
  deriving DecidableEq, Repr

def versionText : String := "dijkstra-gc 0.1.0"

def helpText : String :=
  "\n".intercalate
    ["Simulates mutators racing an on-the-fly tri-color collector",
      "",
      "Usage: dijkstra-gc [OPTIONS]",
      "",
      "Options:",
      "      --config <PATH>         JSON configuration file; options override its values",
      "  -c, --capacity <COUNT>      Number of nodes, the sentinel and the roots included",
      "  -m, --mutators <COUNT>      Number of mutators (concurrent mode)",
      "  -n, --operations <COUNT>    Operations of each mutator",
      "  -s, --seed <COUNT>          Seed of the random walks",
      "      --mode <MODE>           concurrent or incremental",
      "  -l, --log-dir <PATH>        Directory for the memory_usage and progress logs",
      "      --step-budget <COUNT>   Units of work per collector step",
      "      --cycle-pause-ms <COUNT>  Pause between background cycles",
      "      --json                  Print the report as JSON",
      "  -v, --verbose               Log more; may be repeated",
      "  -h, --help                  Print help",
      "  -V, --version               Print version"]

/-- The report as the invocation wants it printed. -/
def Invocation.render (invocation : Invocation) (report : SimulationReport) : String :=
  if invocation.json then String.ofList (report.toValue.pretty 0) else report.text

/-- Runs the program. -/
def runProgram {m : Type → Type} [Monad m] [Host m] (arguments : List String) : m Ending := do
  match Invocation.ofArguments arguments with
  | .error .help => return { output := some helpText }
  | .error .version => return { output := some versionText }
  | .error (.usage error) =>
      return { exitCode := 2, complaint := some s!"error: {error.message}" }
  | .ok invocation =>
      let task : ExceptT RunError m SimulationReport := do
        let config ← invocation.resolve
        config.run
      match ← task.run with
      | .error error => return { exitCode := 1, complaint := some s!"Error: {error.message}" }
      | .ok report => return { output := some (invocation.render report) }

end Tricolor
