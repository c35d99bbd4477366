import Tricolor.Fault

/-!
# Operation counters
-/

namespace Tricolor

/-- The kinds of operation that a simulated mutator performs. -/
inductive Operation where
  | allocate
  | detach
  | relink
  | shade
  deriving DecidableEq, Repr

namespace Operation

def all : List Operation := [.allocate, .detach, .relink, .shade]

def name : Operation → String
  | .allocate => "allocate"
  | .detach => "detach"
  | .relink => "relink"
  | .shade => "shade"

/-- The operation for a draw below 100. -/
def ofDraw (draw : Nat) : Operation :=
  if draw < 40 then .allocate
  else if draw < 60 then .detach
  else if draw < 90 then .relink
  else .shade

end Operation

/-- What the operations of one or more mutators came to. -/
structure MutatorStats where
  /-- Operations attempted. -/
  operations : Nat := 0
  allocations : Nat := 0
  detaches : Nat := 0
  relinks : Nat := 0
  shades : Nat := 0
  /-- Allocations that found the free list empty. -/
  outOfMemory : Nat := 0
  /-- Operations on nodes that were no longer live. -/
  rejected : Nat := 0
  deriving DecidableEq, Repr

namespace MutatorStats

/-- Counts one finished operation, successful if there is no fault.  A fault
that no mutator should run into is handed back. -/
def record (stats : MutatorStats) (operation : Operation) (fault : Option Fault) :
    Option Fault × MutatorStats :=
  let stats := { stats with operations := stats.operations + 1 }
  match fault with
  | none =>
      (none,
        match operation with
        | .allocate => { stats with allocations := stats.allocations + 1 }
        | .detach => { stats with detaches := stats.detaches + 1 }
        | .relink => { stats with relinks := stats.relinks + 1 }
        | .shade => { stats with shades := stats.shades + 1 })
  | some .outOfMemory => (none, { stats with outOfMemory := stats.outOfMemory + 1 })
  | some (.notReachable _) => (none, { stats with rejected := stats.rejected + 1 })
  | some fault => (some fault, stats)

/-- Adds another mutator's counters. -/
def merge (stats other : MutatorStats) : MutatorStats where
  operations := stats.operations + other.operations
  allocations := stats.allocations + other.allocations
  detaches := stats.detaches + other.detaches
  relinks := stats.relinks + other.relinks
  shades := stats.shades + other.shades
  outOfMemory := stats.outOfMemory + other.outOfMemory
  rejected := stats.rejected + other.rejected

end MutatorStats

end Tricolor
