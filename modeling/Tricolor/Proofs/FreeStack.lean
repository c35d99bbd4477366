import Tricolor.Proofs.Recovery
import Tricolor.Proofs.Reporting

/-!
# The free list as a stack

The free list keeps a stack in the slots of the nodes that lie on it.  A node that goes out of
use is put on top, be it that a mutator returns it or that the reclaim pass comes upon it, and
the next one to be obtained is the one on top.  Nothing else that happens to a heap, at no point
of a cycle, moves a node of the stack.
-/

namespace Tricolor

namespace Heap

variable {heap : Heap} {free stack : List Ref} {parent ref : Ref}

/-- Whatever is asked of the free list, it answers as the stack does. -/
structure Stacked (heap : Heap) (stack : List Ref) : Prop where
  listed : heap.freeList = stack
  chained : heap.Chain heap.firstFree stack
  counted : heap.freeCount = stack.length
  allocated : ∀ ref, heap.allocate.1 = .ok ref ↔ stack.head? = some ref
  exhausted : heap.allocate.1 = .error .outOfMemory ↔ stack = []
  grown : ∀ parent side ref, (heap.allocateChild parent side).1 = .ok ref ↔
    heap.Accepts parent ∧ stack.head? = some ref
  stunted : ∀ parent side, (heap.allocateChild parent side).1 = .error .outOfMemory ↔
    heap.Accepts parent ∧ stack = []
  enough : ∀ required, heap.hasFree required = true ↔ required ≤ stack.length
  /-- What has just been returned is obtained first, and then the stack is what it was. -/
  restored : ∀ ref, (heap.release ref).1 = .ok () →
    (heap.release ref).2.allocate.1 = .ok ref ∧
      (heap.release ref).2.allocate.2.freeList = stack ∧
      (heap.release ref).2.allocate.2.freeCount = stack.length

/-- In any heap in order the free list itself is the stack. -/
theorem WellFormed.wellFormed_freeList (ordered : heap.WellFormed free) :
    heap.WellFormed heap.freeList :=
  ordered.freeList_eq.symm ▸ ordered

/-- A parent that is accepted gets for a child what there is to be had. -/
theorem WellFormed.allocateChild_of_accepts (ordered : heap.WellFormed free)
    (accepted : heap.Accepts parent) (side : Side) :
    (heap.allocateChild parent side).1 = heap.allocate.1 := by
  rcases heap.allocate_cases with ⟨none, refused⟩ | ⟨available, allocated⟩
  · rw [refused, accepted.allocateChild_of_exhausted none]
  · rw [allocated, accepted.allocateChild_of_available ordered.toShaped available]

theorem Shaped.allocate_eq_ok_iff (shaped : heap.Shaped stack) (ref : Ref) :
    heap.allocate.1 = .ok ref ↔ stack.head? = some ref := by
  rcases heap.allocate_cases with ⟨none, refused⟩ | ⟨available, allocated⟩
  · simp [refused, shaped.chain.eq_nil_iff.mp none]
  · obtain ⟨rest, listed⟩ := shaped.exists_cons available
    rw [allocated, listed]
    simp

theorem Shaped.allocate_eq_outOfMemory_iff (shaped : heap.Shaped stack) :
    heap.allocate.1 = .error .outOfMemory ↔ stack = [] := by
  rw [← shaped.chain.eq_nil_iff]
  rcases heap.allocate_cases with ⟨none, refused⟩ | ⟨available, allocated⟩
  · simp [refused, none]
  · simp [allocated, available]

theorem WellFormed.allocateChild_eq_ok_iff (ordered : heap.WellFormed stack)
    (parent : Ref) (side : Side) (ref : Ref) :
    (heap.allocateChild parent side).1 = .ok ref ↔
      heap.Accepts parent ∧ stack.head? = some ref := by
  by_cases accepted : heap.Accepts parent
  · rw [ordered.allocateChild_of_accepts accepted, ordered.allocate_eq_ok_iff]
    exact (and_iff_right accepted).symm
  · obtain ⟨fault, _, refused⟩ := allocateChild_of_not_accepts accepted side
    simp [refused, accepted]

theorem WellFormed.allocateChild_eq_outOfMemory_iff (ordered : heap.WellFormed stack)
    (parent : Ref) (side : Side) :
    (heap.allocateChild parent side).1 = .error .outOfMemory ↔
      heap.Accepts parent ∧ stack = [] := by
  by_cases accepted : heap.Accepts parent
  · rw [ordered.allocateChild_of_accepts accepted, ordered.allocate_eq_outOfMemory_iff]
    exact (and_iff_right accepted).symm
  · obtain ⟨fault, refuses, refused⟩ := allocateChild_of_not_accepts accepted side
    have different : fault ≠ .outOfMemory := by
      rintro rfl
      cases refuses
    simp [refused, accepted, different]

theorem WellFormed.reportLive (ordered : heap.WellFormed free) :
    heap.reportLive.WellFormed free :=
  ordered.republished ⟨rfl, rfl, rfl⟩

theorem WellFormed.popFree (ordered : heap.WellFormed stack)
    (available : heap.firstFree ≠ Ref.nil) :
    heap.popFree.2.WellFormed stack.tail := by
  obtain ⟨rest, listed⟩ := ordered.exists_cons available
  have popped := ordered.popped_popFree available
  rw [listed] at ordered ⊢
  exact ordered.popped popped

theorem WellFormed.allocate (ordered : heap.WellFormed stack) :
    heap.allocate.2.WellFormed (stack.drop heap.allocate.1.toOption.toList.length) := by
  rcases heap.allocate_cases with ⟨_, refused⟩ | ⟨available, allocated⟩
  · rw [refused]
    exact ordered
  · rw [allocated]
    change WellFormed _ (stack.drop 1)
    rw [List.drop_one]
    exact (ordered.popFree available).reportLive

theorem WellFormed.allocateChild (ordered : heap.WellFormed stack)
    (parent : Ref) (side : Side) :
    (heap.allocateChild parent side).2.WellFormed
      (stack.drop (heap.allocateChild parent side).1.toOption.toList.length) := by
  rcases ordered.allocateChild_cases parent side with
    ⟨fault, refused⟩ | ⟨available, _, linkable, grown⟩
  · rw [refused]
    exact ordered
  · rw [grown]
    change WellFormed _ (stack.drop 1)
    rw [List.drop_one]
    exact ((ordered.popFree available).linked linkable (linkable.linked side)).reportLive

theorem WellFormed.release (ordered : heap.WellFormed stack) (ref : Ref) :
    (heap.release ref).2.WellFormed
      (((heap.release ref).1.toOption.toList.map fun _ => ref) ++ stack) := by
  rcases heap.release_cases ref with ⟨fault, refused⟩ | ⟨releasable, released⟩
  · rw [refused]
    exact ordered
  · have shading := insertionBarrier_shaded heap Ref.freeRoot ref
    have inside := shading.capacity ▸ releasable.inside
    have barred := ordered.shaded shading
    rw [released]
    exact (barred.pushed ((shading.live ref).trans releasable.live) releasable.rooted inside
      (barred.pushed_pushFree releasable.rooted inside)).reportLive

/-- Whatever a mutator asks for, what it returns is put on the stack, what it obtains is taken
from it, and else the stack stays as it is. -/
theorem WellFormed.change (ordered : heap.WellFormed stack) (request : Request) :
    (request.change heap).WellFormed
      (request.returned heap ++ stack.drop (request.obtained heap).length) := by
  cases request with
  | allocate => exact ordered.allocate
  | allocateChild parent side => exact ordered.allocateChild parent side
  | release ref => exact ordered.release ref
  | setChild parent side child =>
      change (heap.setChild parent side child).2.WellFormed stack
      rcases heap.setChild_cases parent side child with ⟨fault, refused⟩ | ⟨linkable, linked⟩
      · rw [refused]
        exact ordered
      · rw [linked]
        exact ordered.linked linkable (linkable.linked side)
  | shade ref =>
      change (heap.shadeNode ref).2.WellFormed stack
      rcases heap.shadeNode_cases ref with ⟨fault, refused⟩ | ⟨_, shaded⟩
      · rw [refused]
        exact ordered
      · rw [shaded]
        exact ordered.shaded (shade_shaded heap ref)
  | _ => exact ordered

theorem WellFormed.restored (ordered : heap.WellFormed stack)
    (released : (heap.release ref).1 = .ok ()) :
    (heap.release ref).2.allocate.1 = .ok ref ∧
      (heap.release ref).2.allocate.2.WellFormed stack := by
  have returned := ordered.release ref
  rw [released] at returned
  change (heap.release ref).2.WellFormed (ref :: stack) at returned
  have obtained := (returned.allocate_eq_ok_iff ref).mpr rfl
  have restored := returned.allocate
  rw [obtained] at restored
  exact ⟨obtained, restored⟩

theorem WellFormed.stacked (ordered : heap.WellFormed stack) : heap.Stacked stack where
  listed := ordered.freeList_eq
  chained := ordered.chain
  counted := ordered.counted
  allocated := ordered.allocate_eq_ok_iff
  exhausted := ordered.allocate_eq_outOfMemory_iff
  grown := ordered.allocateChild_eq_ok_iff
  stunted := ordered.allocateChild_eq_outOfMemory_iff
  enough required := by rw [hasFree, decide_eq_true_iff, ordered.counted]
  restored ref released := by
    obtain ⟨obtained, restored⟩ := ordered.restored released
    exact ⟨obtained, restored.freeList_eq, restored.counted⟩

end Heap

namespace Collection

variable {collection : Collection} {move : Move} {moves : List Move} {stack : List Ref}

/-- The stack after the move: a node that goes out of use is put on top, and one that goes into
use is taken from there. -/
def restacked (collection : Collection) (move : Move) (stack : List Ref) : List Ref :=
  collection.returned move ++ collection.collected [move] ++
    stack.drop (collection.obtained move).length

/-- The stack after the moves of a run. -/
def stackAlong : Collection → List Ref → List Move → List Ref
  | _, stack, [] => stack
  | collection, stack, move :: moves =>
      (collection.perform move).stackAlong (collection.restacked move stack) moves

/-- What a collector does to the shape of the heap: if anything, it frees a node. -/
theorem Consistent.sameShape_or_pushed (consistent : collection.Consistent)
    (possible : collection.Possible move) (work : move.isWork = true) :
    Heap.SameShape collection.heap (collection.perform move).heap ∨ ∃ cursor,
      cursor < collection.heap.capacity ∧ collection.heap.Garbage cursor ∧
        Heap.Pushed (collection.heap.moveFrontier (cursor + 1)) cursor
          (collection.perform move).heap := by
  cases move with
  | mutate request => cases work
  | markRoots => exact .inl (started_markRoots possible).toSameShape
  | visit => exact (consistent.visited possible.1 possible.2).sameShape_or_pushed
  | finish => exact .inl ⟨rfl, fun _ _ => rfl, fun _ => rfl, rfl⟩
  | attach =>
      obtain ⟨heap, collector⟩ := collection
      cases (possible : collector = {})
      have same : Collection.perform ⟨heap, {}⟩ .attach = ⟨heap, {}⟩ := consistent.attach_eq
      rw [same]
      exact .inl (Heap.Recolored.refl heap).toSameShape
  | detach => exact .inl consistent.detach.1

/-- A move does to the free list what it does to the stack. -/
theorem Consistent.restacked (consistent : collection.Consistent)
    (possible : collection.Possible move) (ordered : collection.heap.WellFormed stack) :
    (collection.perform move).heap.WellFormed (collection.restacked move stack) := by
  unfold Collection.restacked
  -- Either a mutator moves, and no node is visited, or the collector does, and none is asked for.
  cases work : move.isWork with
  | false =>
      have collected : collection.collected [move] = [] := by simp [collected, noted, work]
      cases move with
      | mutate request =>
          rw [collected, List.append_nil]
          exact ordered.change request
      | _ => cases work
  | true =>
      have untouched : collection.returned move = [] ∧ collection.obtained move = [] := by
        cases move with
        | mutate request => cases work
        | _ => exact ⟨rfl, rfl⟩
      rw [untouched.1, untouched.2, List.nil_append, List.length_nil, List.drop_zero]
      rcases consistent.sameShape_or_pushed possible work with
        same | ⟨cursor, inside, garbage, pushed⟩
      · obtain ⟨free, orderedAfter⟩ := (consistent.perform possible).ordered
        rw [collected_of_sameShape same, List.nil_append, ← ordered.freeList_eq,
          ← same.freeList ordered.toShaped]
        exact orderedAfter.wellFormed_freeList
      · have proper : cursor ≠ Ref.nil := by
          rintro rfl
          exact Color.noConfusion (garbage.1.symm.trans ordered.sentinelBlack)
        have moved : (collection.heap.moveFrontier (cursor + 1)).WellFormed stack :=
          ordered.republished ⟨rfl, rfl, rfl⟩
        rw [collected_of_freed work inside garbage.2.1 pushed.live]
        exact moved.pushed garbage.2.1 (garbage.rooted (Nat.pos_of_ne_zero proper)) inside pushed

theorem Consistent.stacked (consistent : collection.Consistent)
    (legal : collection.Legal moves) (ordered : collection.heap.WellFormed stack) :
    (collection.replay moves).heap.WellFormed (collection.stackAlong stack moves) := by
  induction moves generalizing collection stack with
  | nil => exact ordered
  | cons move moves induction =>
      exact induction (consistent.perform legal.1) legal.2 (consistent.restacked legal.1 ordered)

end Collection

namespace Session

/-- At every moment of every run, whatever is asked for and in whatever order, the free list is
the stack that all nodes from the first one on were put on at the start, that what went out of
use has been put on since, and that what went into use has been taken from. -/
theorem run_stacked {capacity : Nat} {initial : Heap} {requests : List Request}
    {moves : List Move} (built : Heap.ofCapacity capacity = .ok initial)
    (made : moves <+: (ofHeap initial).trace requests) :
    ((ofHeap initial).collection.replay moves).heap.Stacked
      ((ofHeap initial).collection.stackAlong
        (List.range' Heap.minCapacity (capacity - Heap.minCapacity)) moves) := by
  have consistent := consistent_ofHeap built
  obtain ⟨roomy, rfl⟩ := Heap.of_ofCapacity built
  exact (consistent.stacked (legal_of_made made) (Heap.fresh_wellFormed roomy)).stacked

/-- Nodes 5 and 6 are lost.  The reclaim pass puts node 5 on the stack, node 4 is returned and
obtained again while it lies above, and then comes node 6, which the next child takes. -/
theorem run_stacked_in_reclaim_pass :
    let requests : List Request :=
      [.attach, .allocateChild 1 .left, .allocate, .allocate, .sweep, .step 5, .release 4,
        .allocate, .step 1, .allocateChild 1 .right]
    let moves := (ofHeap (Heap.fresh 8)).trace requests
    Heap.ofCapacity 8 = .ok (Heap.fresh 8) ∧
      moves <+: (ofHeap (Heap.fresh 8)).trace requests ∧
      (ofHeap (Heap.fresh 8)).collection.stackAlong [4, 5, 6, 7] moves = [5, 7] ∧
      ((ofHeap (Heap.fresh 8)).collection.replay moves).heap.Stacked [5, 7] := by
  intro requests moves
  have built : Heap.ofCapacity 8 = .ok (Heap.fresh 8) := rfl
  have made : moves <+: (ofHeap (Heap.fresh 8)).trace requests := List.prefix_rfl
  have stack : (ofHeap (Heap.fresh 8)).collection.stackAlong [4, 5, 6, 7] moves = [5, 7] := by
    decide +kernel
  have stacked := run_stacked built made
  change Heap.Stacked _ (Collection.stackAlong _ [4, 5, 6, 7] moves) at stacked
  rw [stack] at stacked
  exact ⟨built, made, stack, stacked⟩

end Session

end Tricolor
