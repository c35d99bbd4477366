/-!
# Faults

Every way in which an operation on a heap can fail, and the wording of each.
-/

namespace Tricolor

/-- Why a node cannot be released. -/
inductive ReleaseRefusal where
  | isNil
  | isRoot
  | notWhite
  deriving DecidableEq, Repr

namespace ReleaseRefusal

def all : List ReleaseRefusal := [.isNil, .isRoot, .notWhite]

def reason : ReleaseRefusal → String
  | .isNil => "node is NIL"
  | .isRoot => "node is a root"
  | .notWhite => "node is not white"

end ReleaseRefusal

/-- Why an operation on a heap failed. -/
inductive Fault where
  /-- The reference lies beyond the heap. -/
  | outOfRange (ref capacity : Nat)
  /-- The free list is empty. -/
  | outOfMemory
  /-- The node is free, or about to be released. -/
  | notReachable (ref : Nat)
  /-- The capacity has no room for the sentinel and the roots. -/
  | invalidCapacity (capacity : Nat)
  | notReleasable (ref : Nat) (refusal : ReleaseRefusal)
  /-- Mutators may not change the sentinel or the free-list root. -/
  | reserved (ref : Nat)
  | invariantViolated (text : String)
  /-- The heap already has a collector. -/
  | collectorAttached
  /-- The background collector could not be started. -/
  | spawnFailed (text : String)
  deriving DecidableEq, Repr

namespace Fault

/-- A mutator can carry on after these faults: memory may be reclaimed, and a
reference to a dead node can be dropped. -/
def isRecoverable : Fault → Bool
  | .outOfMemory => true
  | .notReachable _ => true
  | _ => false

def message : Fault → String
  | .outOfRange ref capacity =>
      s!"node {ref} is out of range for an arena of {capacity} nodes"
  | .outOfMemory => "out of memory: the free list is empty"
  | .notReachable ref => s!"node {ref} is not part of the live graph"
  | .invalidCapacity capacity =>
      s!"invalid capacity {capacity}: an arena needs at least 4 nodes"
  | .notReleasable ref refusal =>
      s!"node {ref} cannot be released: {refusal.reason}"
  | .reserved ref =>
      s!"node {ref} is reserved and cannot be rewritten by a mutator"
  | .invariantViolated text => s!"invariant violated: {text}"
  | .collectorAttached => "graph already has a collector attached"
  | .spawnFailed text => s!"failed to spawn collector thread: {text}"

end Fault

end Tricolor
