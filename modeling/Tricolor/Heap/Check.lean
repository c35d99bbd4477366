import Tricolor.Heap.FreeList

/-!
# Checking a heap

`Heap.violation?` looks for the first breach of the structural invariants:
closure, the shape of the sentinel, the free list and its counter, and that no
live node refers to a free one.
-/

namespace Tricolor

/-- A breach of the structural invariants of a heap. -/
inductive Violation where
  | sentinelModified (found : Node)
  | escape (ref : Ref) (side : Side) (child : Ref)
  | cyclicFreeList
  | miscounted (counter length : Nat)
  | repeatedFreeNode (ref : Ref)
  /-- A node is both live and free, or neither. -/
  | misfiled (ref : Ref) (live onFreeList : Bool)
  | danglingChild (ref : Ref) (side : Side) (child : Ref)
  deriving DecidableEq, Repr

namespace Color

/-- The name of a color where a whole node is spelt out. -/
def capitalized : Color → String
  | .white => "White"
  | .grey => "Grey"
  | .black => "Black"

end Color

/-- A node with its reference, spelt out field by field. -/
def Node.describe (ref : Ref) (node : Node) : String :=
  "NodeSnapshot \x7b id: NodeId(" ++ toString ref ++
    "), left: NodeId(" ++ toString node.left ++
    "), right: NodeId(" ++ toString node.right ++
    "), color: " ++ node.color.capitalized ++
    ", reachable: " ++ toString node.live ++ " \x7d"

def Violation.message : Violation → String
  | .sentinelModified found =>
      "NIL was modified: " ++ found.describe Ref.nil
  | .escape ref side child =>
      s!"node {ref} {side.name} child {child} escapes the arena"
  | .cyclicFreeList => "free list is cyclic"
  | .miscounted counter length =>
      s!"free counter says {counter} but the chain holds {length}"
  | .repeatedFreeNode ref =>
      s!"node {ref} appears twice on the free list"
  | .misfiled ref live onFreeList =>
      s!"node {ref} has reachable={live} but on_free_list={onFreeList}"
  | .danglingChild ref side child =>
      s!"live node {ref} {side.name} child {child} is on the free list"

namespace Heap

def sentinelViolation? (heap : Heap) : Option Violation :=
  let sentinel := heap.node Ref.nil
  if sentinel.left = Ref.nil ∧ sentinel.right = Ref.nil ∧ sentinel.color = .black then none
  else some (.sentinelModified sentinel)

def escape? (heap : Heap) (ref : Ref) : Option Violation :=
  Side.both.findSome? fun side =>
    let child := (heap.node ref).child side
    if child < heap.capacity then none else some (.escape ref side child)

def lengthViolation? (heap : Heap) (chain : List Ref) : Option Violation :=
  if heap.capacity < chain.length then some .cyclicFreeList
  else if chain.length ≠ heap.freeCount then some (.miscounted heap.freeCount chain.length)
  else none

/-- Flags the members of a chain; a member met twice is a violation. -/
def flagFree : List Ref → Array Bool → Except Violation (Array Bool)
  | [], flags => .ok flags
  | ref :: chain, flags =>
      if flags.getD ref false then .error (.repeatedFreeNode ref)
      else flagFree chain (flags.setIfInBounds ref true)

/-- A node must be live or free but not both, and unless it is the free-list
root or condemned, a live node must not refer to a free one. -/
def misplacement? (heap : Heap) (flags : Array Bool) (ref : Ref) : Option Violation :=
  let node := heap.node ref
  let onFreeList := flags.getD ref false
  if node.live = onFreeList then some (.misfiled ref node.live onFreeList)
  else if node.live = false ∨ ref = Ref.freeRoot ∨ heap.Condemned ref then none
  else
    Side.both.findSome? fun side =>
      let child := node.child side
      if child ≠ Ref.nil ∧ (heap.node child).live = false then
        some (.danglingChild ref side child)
      else none

/-- The nodes of the heap other than the sentinel, in index order. -/
def properRefs (heap : Heap) : List Ref :=
  (List.range heap.capacity).drop 1

/-- The first breach of the invariants.  Closure is checked before the free
list is followed, so the chain never leaves the heap. -/
def violation? (heap : Heap) : Option Violation :=
  heap.sentinelViolation?
    <|> (List.range heap.capacity).findSome? heap.escape?
    <|> heap.lengthViolation? heap.freeList
    <|> match flagFree heap.freeList (Array.replicate heap.capacity false) with
        | .error violation => some violation
        | .ok flags => heap.properRefs.findSome? (heap.misplacement? flags)

def checkInvariants (heap : Heap) : Except Fault Unit :=
  match heap.violation? with
  | some violation => .error (.invariantViolated violation.message)
  | none => .ok ()

end Heap

end Tricolor
