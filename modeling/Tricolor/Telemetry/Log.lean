import Tricolor.Telemetry.Event

/-!
# Telemetry logs

Two line-oriented logs: one line with the live-node count for every allocation
or release, and one marker line for every completed cycle.  Lines are buffered
and reach the medium when the log is flushed or closed.
-/

namespace Tricolor

/-- What a log is told. -/
inductive Signal where
  | event (event : Event)
  | flush
  deriving DecidableEq, Repr

/-- The events among the signals, in order. -/
def Signal.events (signals : List Signal) : List Event :=
  signals.filterMap fun
    | .event reported => some reported
    | .flush => none

/-- A buffered writer of lines. -/
structure LineWriter where
  /-- What has been handed to the medium. -/
  written : String := ""
  buffered : String := ""
  /-- The medium accepts writes; otherwise they are lost without notice. -/
  accepting : Bool := true
  deriving DecidableEq, Repr

namespace LineWriter

def writeLine (writer : LineWriter) (line : String) : LineWriter :=
  { writer with buffered := writer.buffered ++ line ++ "\n" }

def flush (writer : LineWriter) : LineWriter :=
  if writer.accepting then
    { writer with written := writer.written ++ writer.buffered, buffered := "" }
  else writer

end LineWriter

/-- The pair of logs. -/
structure Log where
  memoryUsage : LineWriter := {}
  progress : LineWriter := {}
  deriving DecidableEq, Repr

namespace Log

def memoryFile : String := "memory_usage"

def progressFile : String := "progress"

/-- The line for a completed cycle. -/
def passMarker : String := "P"

/-- Logs on media that refuse every write. -/
def refusing : Log where
  memoryUsage := { accepting := false }
  progress := { accepting := false }

def flush (log : Log) : Log where
  memoryUsage := log.memoryUsage.flush
  progress := log.progress.flush

def accept (log : Log) : Signal → Log
  | .event (.liveNodes count) =>
      { log with memoryUsage := log.memoryUsage.writeLine (toString count) }
  | .event (.passComplete _) =>
      { log with progress := log.progress.writeLine passMarker }
  | .flush => log.flush

/-- Feeds the signals to the log and closes it. -/
def record (log : Log) (signals : List Signal) : Log :=
  (signals.foldl accept log).flush

/-- The logs of the given events. -/
def ofEvents (events : List Event) : Log :=
  ({} : Log).record (events.map .event)

end Log

end Tricolor
