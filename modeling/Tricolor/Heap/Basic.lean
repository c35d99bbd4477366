import Tricolor.Color
import Tricolor.Fault
import Tricolor.Telemetry.Event

/-!
# Heaps

A heap is a fixed array of nodes with two child slots each.  Node 0 is the
sentinel for an empty slot, nodes 1 and 2 are the mutators' roots, and node 3
heads the free list: unused nodes are chained through their right slots.

The free-list root is a marking root as well, so free nodes are traced together
with live ones; the `live` flag tells the two apart.
-/

namespace Tricolor

/-- The index of a node in its heap. -/
abbrev Ref := Nat

namespace Ref

/-- The node that stands for an empty child slot. -/
abbrev nil : Ref := 0

/-- The node whose right slot heads the free list. -/
abbrev freeRoot : Ref := 3

/-- The roots that mutators start from. -/
def mutatorRoots : List Ref := [1, 2]

/-- All marking roots, in the order in which they are shaded. -/
def roots : List Ref := [1, 2, 3]

abbrev IsRoot (ref : Ref) : Prop := 1 ≤ ref ∧ ref ≤ freeRoot

end Ref

/-- A node: two child slots, a mark, and whether it is in use. -/
structure Node where
  left : Ref
  right : Ref
  color : Color
  /-- In use, as opposed to waiting on the free list. -/
  live : Bool
  deriving DecidableEq, Repr

namespace Node

/-- The sentinel: its slots lead back to it and it is black for good. -/
def sentinel : Node where
  left := Ref.nil
  right := Ref.nil
  color := .black
  live := true

def child (node : Node) : Side → Ref
  | .left => node.left
  | .right => node.right

def withChild (node : Node) (side : Side) (child : Ref) : Node :=
  match side with
  | .left => { node with left := child }
  | .right => { node with right := child }

def painted (node : Node) (color : Color) : Node :=
  { node with color := color }

/-- Node `ref` of a fresh heap: the roots are live and empty, and every node
from the free-list root on leads to its successor. -/
def initial (capacity : Nat) (ref : Ref) : Node where
  left := Ref.nil
  right := if Ref.freeRoot ≤ ref ∧ ref + 1 < capacity then ref + 1 else Ref.nil
  color := if ref = Ref.nil then .black else .white
  live := ref ≤ Ref.freeRoot

end Node

/-- A heap together with what its collector publishes to the mutators. -/
structure Heap where
  nodes : Array Node
  phase : Phase := .idle
  /-- The length of the free list. -/
  freeCount : Nat
  /-- The number of grey nodes. -/
  greyCount : Nat := 0
  /-- The first node that the reclaim pass has not visited yet. -/
  frontier : Nat
  /-- The number of cycles started by any collector. -/
  cyclesStarted : Nat := 0
  /-- Everything reported so far, oldest first. -/
  events : Array Event := #[]
  deriving DecidableEq, Repr

namespace Heap

/-- The sentinel and the three roots. -/
def minCapacity : Nat := 4

/-- A fresh heap in which every node from 4 on is free, in ascending order. -/
def fresh (capacity : Nat) : Heap where
  nodes := Array.ofFn fun index : Fin capacity => Node.initial capacity index
  freeCount := capacity - minCapacity
  frontier := capacity

def ofCapacity (capacity : Nat) : Except Fault Heap :=
  if capacity < minCapacity then
    .error (.invalidCapacity capacity)
  else
    .ok (fresh capacity)

def capacity (heap : Heap) : Nat := heap.nodes.size

/-- The node at `ref`; beyond the heap there are only sentinels. -/
def node (heap : Heap) (ref : Ref) : Node :=
  heap.nodes.getD ref Node.sentinel

/-- Live nodes, counting the roots but not the sentinel. -/
def liveCount (heap : Heap) : Nat :=
  heap.capacity - 1 - heap.freeCount

/-- At least `required` nodes can be allocated right now. -/
def hasFree (heap : Heap) (required : Nat) : Bool :=
  required ≤ heap.freeCount

/-- A white node that the reclaim pass has yet to visit: it was unmarked when
marking came to rest and is about to be released. -/
abbrev Condemned (heap : Heap) (ref : Ref) : Prop :=
  heap.phase = .reclaiming ∧ heap.frontier ≤ ref ∧ (heap.node ref).color = .white

/-- A node that mutators may still link to. -/
abbrev Usable (heap : Heap) (ref : Ref) : Prop :=
  (heap.node ref).live = true ∧ ¬ heap.Condemned ref

/-- Changes the node at `ref`; nothing happens beyond the heap. -/
def update (heap : Heap) (ref : Ref) (change : Node → Node) : Heap :=
  { heap with nodes := heap.nodes.modify ref change }

def writeChild (heap : Heap) (ref : Ref) (side : Side) (child : Ref) : Heap :=
  heap.update ref (·.withChild side child)

def report (heap : Heap) (event : Event) : Heap :=
  { heap with events := heap.events.push event }

/-- Reports the current number of live nodes. -/
def reportLive (heap : Heap) : Heap :=
  heap.report (.liveNodes heap.liveCount)

def checkRange (heap : Heap) (ref : Ref) : Except Fault Unit :=
  if ref < heap.capacity then .ok () else .error (.outOfRange ref heap.capacity)

/-- The node at `ref`, if the heap has one. -/
def get (heap : Heap) (ref : Ref) : Except Fault Node :=
  (heap.checkRange ref).map fun _ => heap.node ref

end Heap

end Tricolor
