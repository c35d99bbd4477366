import Tricolor.Heap.Marking

/-!
# The free list

Free nodes form a chain through their right slots, headed by the free-list
root and ended by the sentinel.  Nodes are taken from and returned to the
front.

While marking, a black node must not point at a white one, so every link that
a mutator makes goes through `insertionBarrier`; the links of the free list
itself are no exception.
-/

namespace Tricolor.Heap

/-- The nodes met by following right slots from `ref` up to the sentinel, at
most `limit` of them. -/
def rightChain (heap : Heap) : (limit : Nat) → Ref → List Ref
  | 0, _ => []
  | limit + 1, ref =>
      if ref = Ref.nil then [] else ref :: rightChain heap limit (heap.node ref).right

/-- The next node to be allocated; the sentinel if memory has run out. -/
def firstFree (heap : Heap) : Ref := (heap.node Ref.freeRoot).right

/-- The free nodes in the order in which they will be allocated.  A chain that
does not end is cut off one node past the capacity. -/
def freeList (heap : Heap) : List Ref :=
  heap.rightChain (heap.capacity + 1) heap.firstFree

/-- Prepares a link from `parent` to `child`: while marking, a black parent
shades the child first. -/
def insertionBarrier (heap : Heap) (parent child : Ref) : Heap :=
  if child ≠ Ref.nil ∧ heap.phase = .marking ∧ (heap.node parent).color = .black then
    heap.shade child
  else heap

/-- Keeps a new node out of reach of the cycle in progress. -/
def protectNew (heap : Heap) (ref : Ref) : Heap :=
  if heap.phase = .marking ∨ heap.Condemned ref then heap.shade ref else heap

/-- Takes the first free node, if there is one, into use, white and with empty
slots unless the cycle in progress requires it to be shaded. -/
def popFree (heap : Heap) : Ref × Heap :=
  let first := heap.firstFree
  let next := (heap.node first).right
  let heap := (heap.insertionBarrier Ref.freeRoot next).writeChild Ref.freeRoot .right next
  let heap := { heap with freeCount := heap.freeCount - 1 }
  let heap := heap.update first fun node =>
    { node with left := Ref.nil, right := Ref.nil, live := true }
  (first, (heap.whiten first).protectNew first)

/-- Puts a node at the front of the free list. -/
def pushFree (heap : Heap) (ref : Ref) : Heap :=
  let first := heap.firstFree
  let heap := heap.update ref fun node =>
    { node with left := Ref.nil, right := first, live := false }
  let heap := heap.writeChild Ref.freeRoot .right ref
  { heap with freeCount := heap.freeCount + 1 }

end Tricolor.Heap
