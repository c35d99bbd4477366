import Tricolor.Proofs.Ledger

/-!
# A child in one call or in two

A mutator can have a child allocated, or take a node off the free list first and link it in
a call of its own.  The one call looks at the parent before a node is taken, the two calls
do so afterwards, and they report the live nodes before there is a link.  All the same they
agree: taking a node changes no verdict on any parent, a node just taken can always be
linked, and a link neither reports nor changes how many nodes are live.
-/

namespace Tricolor

namespace Heap

variable {heap : Heap} {free : List Ref} {parent child : Ref}

theorem relink_reportLive (heap : Heap) (parent : Ref) (side : Side) (child : Ref) :
    heap.reportLive.relink parent side child = (heap.relink parent side child).reportLive := by
  have count : (heap.relink parent side child).liveCount = heap.liveCount :=
    (relink_silent heap parent side child).liveCount
  have reported : heap.reportLive.insertionBarrier parent child =
      (heap.insertionBarrier parent child).report (.liveNodes heap.liveCount) := by
    have node : ∀ ref, heap.reportLive.node ref = heap.node ref := fun _ => rfl
    have phase : heap.reportLive.phase = heap.phase := rfl
    unfold insertionBarrier shade
    simp only [node, phase]
    split
    · split <;> rfl
    · rfl
  change (heap.reportLive.insertionBarrier parent child).writeChild parent side child =
    (heap.relink parent side child).report _
  rw [reported, count]
  rfl

theorem Linkable.reportLive (linkable : heap.Linkable parent child) :
    heap.reportLive.Linkable parent child :=
  { linkable with }

/-- An accepted parent gets its child in either way, and the same heap is left. -/
theorem Accepts.exists_grown (accepted : heap.Accepts parent) (shaped : heap.Shaped free)
    (available : heap.firstFree ≠ Ref.nil) (side : Side) :
    ∃ taken grown, heap.allocate = (.ok heap.firstFree, taken) ∧
      taken.setChild parent side heap.firstFree = (.ok (), grown) ∧
      heap.allocateChild parent side = (.ok heap.firstFree, grown) := by
  have linkable := (accepted.linkable shaped available).reportLive
  have granted := accepted.allocateChild_of_available shaped available side
  rw [← relink_reportLive] at granted
  exact ⟨_, _, if_neg available, linkable.setChild_eq_ok side, granted⟩

end Heap

namespace Session

variable {session : Session} {free : List Ref} {parent : Ref} {side : Side}

/-- A child allocated in one call and a node allocated and then linked are the same, down to
what is reported, or there is no free node for either. -/
inductive GrowsAlike (session : Session) (parent : Ref) (side : Side) : Prop where
  | exhausted
      (inOne : session.apply (.allocateChild parent side) = (.fault .outOfMemory, session))
      (inTwo : session.apply .allocate = (.fault .outOfMemory, session))
  | grown (child : Ref) (taken linked : Session)
      (inOne : session.apply (.allocateChild parent side) = (.ref child, linked))
      (first : session.apply .allocate = (.ref child, taken))
      (second : taken.apply (.setChild parent side child) = (.done, linked))

theorem apply_allocateChild_of_not_accepts (rejected : ¬ session.heap.Accepts parent)
    (side : Side) :
    ∃ fault : Fault, fault.refusesNode = true ∧
      session.apply (.allocateChild parent side) = (.fault fault, session) := by
  obtain ⟨fault, refuses, refused⟩ := Heap.allocateChild_of_not_accepts rejected side
  exact ⟨fault, refuses, apply_allocateChild_of_error refused⟩

theorem growsAlike_of_accepts (accepted : session.heap.Accepts parent)
    (shaped : session.heap.Shaped free) (side : Side) :
    session.GrowsAlike parent side := by
  by_cases exhausted : session.heap.firstFree = Ref.nil
  · have refused : session.heap.allocate = (.error .outOfMemory, session.heap) :=
      if_pos exhausted
    have refusedChild := accepted.allocateChild_of_exhausted exhausted side
    apply GrowsAlike.exhausted
    · exact apply_allocateChild_of_error refusedChild
    · change session.mutate .ref (·.allocate) = _
      exact mutate_of_error refused
  · obtain ⟨taken, grown, allocated, linked, granted⟩ :=
      accepted.exists_grown shaped exhausted side
    apply GrowsAlike.grown session.heap.firstFree { session with heap := taken }
      { session with heap := grown }
    · exact apply_allocateChild_of_ok granted
    · change session.mutate .ref (·.allocate) = _
      exact mutate_of_ok allocated
    · change Session.mutate { session with heap := taken } (fun _ => .done)
        (·.setChild parent side session.heap.firstFree) = _
      exact mutate_of_ok linked

/-- At every moment of every run, whoever drives the collector and wherever it stands, a call
for a child that does not refuse the parent does what the two calls do that allocate a node and
link it. -/
theorem run_growsAlike {capacity : Nat} {initial : Heap} {requests : List Request}
    {moves : List Move} (built : Heap.ofCapacity capacity = .ok initial)
    (made : moves <+: (ofHeap initial).trace requests) (driver : Driver)
    (handles : List Handle) (parent : Ref) (side : Side) :
    let session : Session := ⟨((ofHeap initial).collection.replay moves).heap, driver, handles⟩
    (∀ fault, (session.apply (.allocateChild parent side)).1 = .fault fault →
      fault.refusesNode = false) →
    session.GrowsAlike parent side := by
  intro session unrefused
  obtain ⟨free, ordered⟩ := ((consistent_ofHeap built).replay (legal_of_made made)).ordered
  have shaped : session.heap.Shaped free := ordered.toShaped
  by_cases accepted : session.heap.Accepts parent
  · exact growsAlike_of_accepts accepted shaped side
  · obtain ⟨fault, refuses, answered⟩ := apply_allocateChild_of_not_accepts accepted side
    have sound := unrefused fault (congrArg Prod.fst answered)
    exact absurd (refuses.symm.trans sound) (by simp)

/-- Root 3 is black and heads the free list, so that taking node 4 shades node 5, and root 1 is
black, so that the link of node 4 has to be barred. -/
theorem run_growsAlike_below_black :
    let requests : List Request := [.attach, .step 4]
    let moves := (ofHeap (Heap.fresh 6)).trace requests
    let heap := ((ofHeap (Heap.fresh 6)).collection.replay moves).heap
    Heap.ofCapacity 6 = .ok (Heap.fresh 6) ∧
      moves <+: (ofHeap (Heap.fresh 6)).trace requests ∧
      (heap.node 1).color = .black ∧ (heap.node 3).color = .black ∧
      (Session.apply ⟨heap, .unattended, []⟩ (.allocateChild 1 .left)).1 = .ref 4 ∧
      Session.GrowsAlike ⟨heap, .unattended, []⟩ 1 .left := by
  intro requests moves heap
  have built : Heap.ofCapacity 6 = .ok (Heap.fresh 6) := rfl
  have made : moves <+: (ofHeap (Heap.fresh 6)).trace requests := List.prefix_rfl
  have answered : (Session.apply ⟨heap, .unattended, []⟩ (.allocateChild 1 .left)).1 =
      .ref 4 := by
    decide +kernel
  have black : (heap.node 1).color = .black ∧ (heap.node 3).color = .black := by decide +kernel
  have alike := run_growsAlike built made .unattended [] 1 .left
  refine ⟨built, made, black.1, black.2, answered, alike fun fault failed => ?_⟩
  cases answered.symm.trans failed

end Session

end Tricolor
