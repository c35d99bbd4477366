/-!
# Telemetry events

The heap reports the live-node count after every allocation and release, and
the collector reports every completed cycle.
-/

namespace Tricolor

/-- One observation reported while a heap is in use. -/
inductive Event where
  /-- The number of live nodes right after an allocation or a release. -/
  | liveNodes (count : Nat)
  /-- The collection cycle with this number has completed. -/
  | passComplete (cycle : Nat)
  deriving DecidableEq, Repr

namespace Event

def liveCount? : Event → Option Nat
  | .liveNodes count => some count
  | .passComplete _ => none

def isPass : Event → Bool
  | .liveNodes _ => false
  | .passComplete _ => true

/-- The live-node counts among the events, in order. -/
def liveCounts (events : List Event) : List Nat :=
  events.filterMap liveCount?

/-- The number of completed cycles among the events. -/
def passes (events : List Event) : Nat :=
  events.countP isPass

end Event

end Tricolor
