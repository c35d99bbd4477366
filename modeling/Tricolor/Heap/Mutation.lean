import Tricolor.Heap.FreeList

/-!
# Mutator operations

Every operation returns its outcome together with the heap it leaves behind,
so that what a failed operation does to the heap is a question one can ask.
-/

namespace Tricolor

/-- The result of an operation and the heap after it. -/
abbrev Outcome (α : Type) := Except Fault α × Heap

namespace Heap

/-- Mutators may change neither the sentinel nor the free-list root. -/
def checkWritable (heap : Heap) (parent : Ref) : Except Fault Unit :=
  match heap.checkRange parent with
  | .error fault => .error fault
  | .ok () =>
      if parent = Ref.nil ∨ parent = Ref.freeRoot then .error (.reserved parent) else .ok ()

def checkUsable (heap : Heap) (ref : Ref) : Except Fault Unit :=
  if heap.Usable ref then .ok () else .error (.notReachable ref)

/-- Links `child`, which may be the sentinel, below `parent`. -/
def link (heap : Heap) (parent : Ref) (side : Side) (child : Ref) : Outcome Unit :=
  match heap.checkUsable parent with
  | .error fault => (.error fault, heap)
  | .ok () =>
      match if child = Ref.nil then .ok () else heap.checkUsable child with
      | .error fault => (.error fault, heap)
      | .ok () => (.ok (), (heap.insertionBarrier parent child).writeChild parent side child)

/-- Replaces one child of a live node. -/
def setChild (heap : Heap) (parent : Ref) (side : Side) (child : Ref) : Outcome Unit :=
  match heap.checkWritable parent with
  | .error fault => (.error fault, heap)
  | .ok () =>
      match heap.checkRange child with
      | .error fault => (.error fault, heap)
      | .ok () =>
          if child = Ref.freeRoot then (.error (.reserved child), heap)
          else heap.link parent side child

/-- Takes a node off the free list.  Nothing refers to it yet, so it has to be
linked before marking comes to rest again, or it is garbage. -/
def allocate (heap : Heap) : Outcome Ref :=
  if heap.firstFree = Ref.nil then (.error .outOfMemory, heap)
  else
    let (ref, heap) := heap.popFree
    (.ok ref, heap.reportLive)

/-- Takes a node off the free list and links it below `parent`. -/
def allocateChild (heap : Heap) (parent : Ref) (side : Side) : Outcome Ref :=
  match heap.checkWritable parent with
  | .error fault => (.error fault, heap)
  | .ok () =>
      match heap.checkUsable parent with
      | .error fault => (.error fault, heap)
      | .ok () =>
          if heap.firstFree = Ref.nil then (.error .outOfMemory, heap)
          else
            let (ref, heap) := heap.popFree
            match heap.link parent side ref with
            | (.error fault, heap) => (.error fault, heap)
            | (.ok (), heap) => (.ok ref, heap.reportLive)

/-- Shades a node on a mutator's behalf; true if the node was white. -/
def shadeNode (heap : Heap) (ref : Ref) : Outcome Bool :=
  match heap.checkRange ref with
  | .error fault => (.error fault, heap)
  | .ok () => (.ok ((heap.node ref).color == .white), heap.shade ref)

def checkReleasable (heap : Heap) (ref : Ref) : Except Fault Unit :=
  match heap.checkRange ref with
  | .error fault => .error fault
  | .ok () =>
      if ref = Ref.nil then .error (.notReleasable ref .isNil)
      else if Ref.IsRoot ref then .error (.notReleasable ref .isRoot)
      else if (heap.node ref).live = false then .error (.notReachable ref)
      else if (heap.node ref).color ≠ .white then .error (.notReleasable ref .notWhite)
      else .ok ()

/-- Puts a live, white node that is no root back on the free list. -/
def release (heap : Heap) (ref : Ref) : Outcome Unit :=
  match heap.checkReleasable ref with
  | .error fault => (.error fault, heap)
  | .ok () => (.ok (), ((heap.insertionBarrier Ref.freeRoot ref).pushFree ref).reportLive)

end Heap

end Tricolor
