import Tricolor.Proofs.FreeStack

/-!
# Calls that fail

A mutator's call is checked before anything is written, so a call that fails leaves no trace.
This is not plain to see where a child is allocated, because there a node is taken off the free
list first and linked afterwards.  But the link cannot fail: its parent has been checked, and
taking the node puts neither the parent nor the node out of the mutator's reach, in no phase and
wherever the reclaim pass stands.
-/

namespace Tricolor

namespace Heap

variable {heap : Heap} {free : List Ref} {parent : Ref}

/-- If the operation fails, the heap is the one before it. -/
def Spares {α : Type} (heap : Heap) (outcome : Outcome α) : Prop :=
  ∀ fault, outcome.1 = .error fault → outcome.2 = heap

theorem spares_error {α : Type} (heap : Heap) (fault : Fault) :
    heap.Spares ((.error fault, heap) : Outcome α) :=
  fun _ _ => rfl

theorem spares_ok {α : Type} (heap after : Heap) (value : α) : heap.Spares (.ok value, after) :=
  fun _ failed => nomatch failed

theorem spares_allocate (heap : Heap) : heap.Spares heap.allocate := by
  rcases heap.allocate_cases with ⟨_, refused⟩ | ⟨_, allocated⟩
  · rw [refused]
    exact heap.spares_error _
  · rw [allocated]
    exact heap.spares_ok _ _

theorem spares_release (heap : Heap) (ref : Ref) : heap.Spares (heap.release ref) := by
  rcases heap.release_cases ref with ⟨fault, refused⟩ | ⟨_, released⟩
  · rw [refused]
    exact heap.spares_error fault
  · rw [released]
    exact heap.spares_ok _ _

theorem spares_setChild (heap : Heap) (parent : Ref) (side : Side) (child : Ref) :
    heap.Spares (heap.setChild parent side child) := by
  rcases heap.setChild_cases parent side child with ⟨fault, refused⟩ | ⟨_, linked⟩
  · rw [refused]
    exact heap.spares_error fault
  · rw [linked]
    exact heap.spares_ok _ _

theorem spares_shadeNode (heap : Heap) (ref : Ref) : heap.Spares (heap.shadeNode ref) := by
  rcases heap.shadeNode_cases ref with ⟨fault, refused⟩ | ⟨_, shaded⟩
  · rw [refused]
    exact heap.spares_error fault
  · rw [shaded]
    exact heap.spares_ok _ _

theorem WellFormed.spares_allocateChild (ordered : heap.WellFormed free)
    (parent : Ref) (side : Side) :
    heap.Spares (heap.allocateChild parent side) := by
  rcases ordered.allocateChild_cases parent side with ⟨fault, refused⟩ | ⟨_, _, _, grown⟩
  · rw [refused]
    exact heap.spares_error fault
  · rw [grown]
    exact heap.spares_ok _ _

/-- A node that has been taken for an accepted parent is linked.  Marks, phase and frontier do
not matter. -/
theorem Accepts.link_popFree (accepted : heap.Accepts parent) (shaped : heap.Shaped free)
    (available : heap.firstFree ≠ Ref.nil) (side : Side) :
    (heap.popFree.2.link parent side heap.popFree.1).1 = .ok () :=
  congrArg Prod.fst ((accepted.linkable shaped available).link_eq_ok side)

theorem get_eq_error_iff (heap : Heap) (ref : Ref) (fault : Fault) :
    heap.get ref = .error fault ↔
      heap.capacity ≤ ref ∧ fault = .outOfRange ref heap.capacity := by
  unfold get checkRange
  by_cases inside : ref < heap.capacity
  · simp [inside, Nat.not_le.mpr inside, Except.map]
  · simp [inside, Nat.le_of_not_lt inside, Except.map, eq_comm]

end Heap

/-- A mutator answers the request and has no handle of a collector to ask. -/
def Request.Unassisted : Request → Prop
  | .allocateChildOrCollect _ _ handle => handle = none
  | request => request.mutation?.isSome = true

namespace Session

variable {session after : Session} {fault : Fault} {request : Request}

theorem mutate_of_fault {α : Type} {reply : α → Reply} {operation : Heap → Outcome α}
    (spares : session.heap.Spares (operation session.heap))
    (granted : ∀ value fault, reply value ≠ .fault fault)
    (failed : session.mutate reply operation = (.fault fault, after)) :
    after = session := by
  rcases outcome : operation session.heap with ⟨reason | value, changed⟩
  · obtain rfl : changed = session.heap := by
      rw [outcome] at spares
      exact spares reason rfl
    rw [mutate_of_error outcome] at failed
    exact (congrArg Prod.snd failed).symm
  · rw [mutate_of_ok outcome] at failed
    exact absurd (congrArg Prod.fst failed) (granted value fault)

/-- A mutator without a handle, or with one that leads to no collector any more, has nobody to
ask for a cycle.  It just allocates a child. -/
theorem allocateChildOrCollect_of_unserved {free : List Ref} {handle : Option Nat}
    (ordered : session.heap.WellFormed free)
    (unserved : ∀ number ∈ handle, session.serves number = false) (parent : Ref) (side : Side) :
    session.allocateChildOrCollect parent side handle =
      session.mutate .ref (·.allocateChild parent side) := by
  unfold allocateChildOrCollect
  split
  · rename_i exhausted found
    obtain rfl : exhausted = session :=
      mutate_of_fault (ordered.spares_allocateChild parent side) (by simp) found
    cases handle with
    | none => exact found.symm
    | some number =>
        change (exhausted.wake number).mutate .ref (·.allocateChild parent side) = _
        rw [wake_of_not_serves (unserved number rfl)]
  · rfl

/-- What a mutator answers without a collector is the outcome of one operation. -/
theorem exists_operation {free : List Ref} (ordered : session.heap.WellFormed free)
    (unassisted : request.Unassisted) :
    ∃ (α : Type) (reply : α → Reply) (operation : Heap → Outcome α),
      session.apply request = session.mutate reply operation ∧
        (∀ value fault, reply value ≠ .fault fault) ∧
        session.heap.Spares (operation session.heap) := by
  cases request with
  | allocate =>
      exact ⟨Ref, .ref, (·.allocate), rfl, by simp, session.heap.spares_allocate⟩
  | release ref =>
      exact ⟨Unit, fun _ => .done, (·.release ref), rfl, by simp,
        session.heap.spares_release ref⟩
  | setChild parent side child =>
      exact ⟨Unit, fun _ => .done, (·.setChild parent side child), rfl, by simp,
        session.heap.spares_setChild parent side child⟩
  | allocateChild parent side =>
      exact ⟨Ref, .ref, (·.allocateChild parent side), rfl, by simp,
        ordered.spares_allocateChild parent side⟩
  | allocateChildOrCollect parent side handle =>
      have unserved : ∀ number ∈ handle, session.serves number = false := by
        simp [show handle = none from unassisted]
      exact ⟨Ref, .ref, (·.allocateChild parent side),
        allocateChildOrCollect_of_unserved ordered unserved parent side, by simp,
        ordered.spares_allocateChild parent side⟩
  | shade ref =>
      exact ⟨Bool, .flag, (·.shadeNode ref), rfl, by simp, session.heap.spares_shadeNode ref⟩
  | _ => cases unassisted

theorem apply_of_fault {free : List Ref} (ordered : session.heap.WellFormed free)
    (unassisted : request.Unassisted)
    (failed : session.apply request = (.fault fault, after)) :
    after = session := by
  obtain ⟨α, reply, operation, applied, granted, spares⟩ := exists_operation ordered unassisted
  rw [applied] at failed
  exact mutate_of_fault spares granted failed

end Session

/-- Calls on the heap that fail leave no trace, whoever drives the collector. -/
structure Heap.Traceless (heap : Heap) : Prop where
  failed : ∀ (driver : Driver) (handles : List Handle) (request : Request) (fault : Fault)
    (after : Session), request.Unassisted →
    Session.apply ⟨heap, driver, handles⟩ request = (.fault fault, after) →
    after = ⟨heap, driver, handles⟩
  /-- To read a node is not to change the heap; it fails for a node that there is not. -/
  unread : ∀ ref fault, heap.get ref = .error fault ↔
    heap.capacity ≤ ref ∧ fault = .outOfRange ref heap.capacity
  /-- Of the heap as it is only slots, use flags and the number of free nodes matter, so that
  the phase, the frontier and all marks may be different ones. -/
  linked : ∀ other : Heap, heap.SameShape other → ∀ parent side, other.Accepts parent →
    other.firstFree ≠ Ref.nil → (other.popFree.2.link parent side other.popFree.1).1 = .ok ()

theorem Heap.WellFormed.traceless {heap : Heap} {free : List Ref}
    (ordered : heap.WellFormed free) : heap.Traceless where
  failed _ _ _ _ _ unassisted failed := Session.apply_of_fault ordered unassisted failed
  unread := heap.get_eq_error_iff
  linked _ same _ side accepted available :=
    accepted.link_popFree (same.shaped ordered.toShaped) available side

namespace Session

/-- At every moment of every run, whatever was asked for and in whatever order, a mutator's call
that fails leaves the session as it was, and a node that is taken for a child is linked. -/
theorem run_traceless {capacity : Nat} {initial : Heap} {requests : List Request}
    {moves : List Move} (built : Heap.ofCapacity capacity = .ok initial)
    (made : moves <+: (ofHeap initial).trace requests) :
    ((ofHeap initial).collection.replay moves).heap.Traceless := by
  obtain ⟨free, ordered⟩ := ((consistent_ofHeap built).replay (legal_of_made made)).ordered
  exact ordered.traceless

/-- Node 4 is lost and waits to be released, so that no child is allocated below it, and node 5
is free.  A child of root 1, which is black, would be linked wherever the pass stood. -/
theorem run_traceless_below_condemned :
    let requests : List Request := [.attach, .allocate, .sweep]
    let moves := (ofHeap (Heap.fresh 6)).trace requests
    let heap := ((ofHeap (Heap.fresh 6)).collection.replay moves).heap
    let session : Session := ⟨heap, .unattended, []⟩
    Heap.ofCapacity 6 = .ok (Heap.fresh 6) ∧
      moves <+: (ofHeap (Heap.fresh 6)).trace requests ∧ heap.Condemned 4 ∧
      session.apply (.allocateChildOrCollect 4 .left none) = (.fault (.notReachable 4), session) ∧
      ∀ phase frontier,
        let other : Heap := { heap with phase, frontier }
        (other.popFree.2.link 1 .left other.popFree.1).1 = .ok () := by
  intro requests moves heap session
  have built : Heap.ofCapacity 6 = .ok (Heap.fresh 6) := rfl
  have made : moves <+: (ofHeap (Heap.fresh 6)).trace requests := List.prefix_rfl
  have traceless : heap.Traceless := run_traceless built made
  have refused : (session.apply (.allocateChildOrCollect 4 .left none)).1 =
      .fault (.notReachable 4) := by
    decide +kernel
  have condemned : heap.Condemned 4 := by decide +kernel
  have black : (heap.node 1).color = .black := by decide +kernel
  have live : (heap.node 1).live = true := by decide +kernel
  have inside : 1 < heap.capacity := by decide +kernel
  have available : heap.firstFree ≠ Ref.nil := by decide +kernel
  -- These facts are all that is needed of the run, which must not be evaluated once more.
  clear_value heap
  have unchanged := traceless.failed .unattended [] (.allocateChildOrCollect 4 .left none)
    (.notReachable 4) _ rfl (Prod.ext refused rfl)
  refine ⟨built, made, condemned, Prod.ext refused unchanged, fun phase frontier => ?_⟩
  have usable : Heap.Usable { heap with phase, frontier } 1 :=
    ⟨live, fun condemned => Color.noConfusion (black.symm.trans condemned.2.2)⟩
  have writable : Heap.checkWritable { heap with phase, frontier } 1 = .ok () := by
    have ranged : Heap.checkRange { heap with phase, frontier } 1 = .ok () := if_pos inside
    rw [Heap.checkWritable, ranged]
    rfl
  exact traceless.linked { heap with phase, frontier } ⟨rfl, fun _ _ => rfl, fun _ => rfl, rfl⟩
    1 .left ⟨writable, if_pos usable⟩ available

end Session

end Tricolor
