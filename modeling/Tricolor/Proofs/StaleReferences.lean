import Tricolor.Proofs.FreshHeap
import Tricolor.Proofs.HeapChecking
import Tricolor.Proofs.Usability

/-!
# Stale references do no damage

A careless program may link any reference it has ever seen, whatever has become
of the node.  What protects the heap is that usable nodes, but for the head of
the free list, only ever refer to usable nodes: a link is refused unless both its
ends are usable, marking comes to rest with the black nodes closed under child
slots, and the reclaim pass releases only what no usable node refers to.
-/

namespace Tricolor

namespace Heap

/-- Usable nodes refer to usable nodes, the head of the free list excepted. -/
def UsableClosed (heap : Heap) : Prop :=
  ∀ ref, heap.Usable ref → ref ≠ Ref.freeRoot → ∀ side,
    heap.Usable ((heap.node ref).child side)

namespace UsableClosed

variable {before after heap : Heap} {free : List Ref}

theorem danglingFree (closed : heap.UsableClosed) : heap.DanglingFree :=
  fun ref usable notHead side => .inr (closed ref usable notHead side).1

theorem congr (closed : before.UsableClosed)
    (child : ∀ ref side, (after.node ref).child side = (before.node ref).child side)
    (usable : ∀ ref, after.Usable ref ↔ before.Usable ref) :
    after.UsableClosed := by
  intro ref usableAfter notHead side
  rw [child, usable]
  exact closed ref ((usable ref).mp usableAfter) notHead side

/-- Outside of the reclaim pass marks do not matter. -/
theorem calm (closed : before.UsableClosed) (same : SameShape before after)
    (calmBefore : before.phase ≠ .reclaiming) (calmAfter : after.phase ≠ .reclaiming) :
    after.UsableClosed := by
  apply closed.congr same.child
  intro ref
  rw [usable_iff_live calmBefore, usable_iff_live calmAfter, same.live]

theorem linked {parent target : Ref} {side : Side} (closed : before.UsableClosed)
    (ordered : before.WellFormed free) (linkable : before.Linkable parent target)
    (linked : Linked before parent side target after) :
    after.UsableClosed := by
  intro ref usable notHead other
  rw [linked.usable_iff] at usable ⊢
  rw [linked.child]
  split
  · rcases linkable.childUsable with rfl | targetUsable
    · exact ordered.usable_nil
    · exact targetUsable
  · exact closed ref usable notHead other

theorem popped (closed : before.UsableClosed) (ordered : before.WellFormed free)
    (available : before.firstFree ≠ Ref.nil)
    (popped : Popped before before.firstFree after) :
    after.UsableClosed := by
  obtain ⟨_, rest, orderedAfter⟩ := ordered.exists_popped available popped
  intro ref usable notHead side
  by_cases hit : ref = before.firstFree
  · rw [popped.child, if_pos hit]
    exact orderedAfter.usable_nil
  · have usableBefore := (popped.usable_iff hit).mp usable
    have childUsable := closed ref usableBefore notHead side
    have childSpared : (before.node ref).child side ≠ before.firstFree := by
      intro childHit
      rw [childHit] at childUsable
      exact Bool.noConfusion ((ordered.firstFree_dead available).symm.trans childUsable.1)
    rw [popped.child, if_neg hit, if_neg (fun head => notHead head.1),
      popped.usable_iff childSpared]
    exact childUsable

/-- Marking comes to rest: what is usable from now on is black, and black nodes
have black children. -/
theorem settle (closed : before.UsableClosed) (ordered : before.WellFormed free)
    (marking : before.Marking) (settled : ∀ ref, (before.node ref).color ≠ .grey)
    (same : Republished before after) (reclaiming : after.Reclaiming 1) :
    after.UsableClosed := by
  have black : ∀ ref, after.Usable ref → (before.node ref).color = .black := by
    intro ref usable
    by_cases sentinel : ref = Ref.nil
    · rw [sentinel, ordered.sentinelBlack]
    · have notWhite : (before.node ref).color ≠ .white := by
        intro white
        refine usable.2 ⟨reclaiming.phase, ?_, same.node ref ▸ white⟩
        rw [reclaiming.frontier]
        exact Nat.pos_of_ne_zero sentinel
      exact Color.eq_black_of_ne notWhite (settled ref)
  intro ref usable notHead side
  have live : (before.node ref).live = true := same.node ref ▸ usable.1
  have calm : before.phase ≠ .reclaiming := by simp [marking.phase]
  have childUsable := closed ref ((usable_iff_live calm ref).mpr live) notHead side
  rw [same.node]
  refine ⟨by rw [same.node]; exact childUsable.1, fun condemned => ?_⟩
  have white := condemned.2.2
  rw [same.node] at white
  exact marking.tricolored ref side (black ref usable) white

theorem worked (closed : before.UsableClosed) (ordered : before.WellFormed free)
    (worked : Worked before after) :
    after.UsableClosed := by
  cases worked with
  | rest same => exact same ▸ closed
  | start resting marking same =>
      exact closed.calm same (by simp [resting.phase]) (by simp [marking.phase])
  | scan marking scanned =>
      exact closed.calm scanned.toSameShape (by simp [marking.phase])
        (by simp [scanned.phase, marking.phase])
  | settle marking settled same reclaiming =>
      exact closed.settle ordered marking settled same reclaiming
  | @free cursor reclaiming garbage pushed =>
      have condemned := reclaiming.condemned_of_garbage garbage
      intro ref usable notHead side
      have different : ref ≠ cursor := by
        intro hit
        subst hit
        have live := usable.1
        rw [pushed.live, if_pos rfl] at live
        exact Bool.noConfusion live
      have usableBefore := (reclaiming.usable_iff_of_free pushed different).mp usable
      have childUsable := closed ref usableBefore notHead side
      -- A usable node cannot refer to the cursor, which was condemned.
      have childSpared : (before.node ref).child side ≠ cursor := by
        intro hit
        exact childUsable.2 (hit ▸ condemned)
      rw [pushed.child, if_neg different, if_neg (fun head => notHead head.1)]
      exact (reclaiming.usable_iff_of_free pushed childSpared).mpr childUsable
  | @spare cursor reclaiming spared whitened =>
      have kept := whiten_recolored (before.moveFrontier (cursor + 1)) cursor
      rw [whitened]
      exact closed.congr kept.child (reclaiming.usable_iff_of_spare spared)
  | finish reclaiming passed same resting =>
      exact closed.congr same.sameShape.child
        (reclaiming.usable_iff_of_finish passed same resting)

end UsableClosed

/-- A program that names any references it likes.  It neither releases nor
shades nodes, and it detaches no collector in the midst of its reclaim pass. -/
def Careless (heap : Heap) : Request → Prop
  | .release _ => False
  | .shade _ => False
  | .detach => heap.phase ≠ .reclaiming
  | _ => True

theorem UsableClosed.performed
    {before after : Heap} {free : List Ref} {request : Request}
    (closed : before.UsableClosed) (ordered : before.WellFormed free)
    (performed : Performed before request after) (careless : before.Careless request) :
    after.UsableClosed := by
  cases performed with
  | refused => exact closed
  | allocated available popped => exact closed.popped ordered available popped
  | released => exact careless.elim
  | linked linkable linked => exact closed.linked ordered linkable linked
  | grown available usable popped linkable linked =>
      obtain ⟨_, rest, orderedPopped⟩ := ordered.exists_popped available popped
      exact (closed.popped ordered available popped).linked orderedPopped linkable linked
  | shaded => exact careless.elim

theorem fresh_usableClosed {capacity : Nat} (roomy : minCapacity ≤ capacity) :
    (fresh capacity).UsableClosed := by
  have ordered := fresh_wellFormed roomy
  intro ref usable notHead side
  have empty : ((fresh capacity).node ref).child side = Ref.nil := by
    rw [child_fresh, if_neg]
    rintro ⟨-, headed, next⟩
    have rooted : minCapacity ≤ ref := Nat.lt_of_le_of_ne headed notHead.symm
    have dead := (live_fresh capacity ref).mpr ⟨rooted, Nat.lt_of_succ_lt next⟩
    exact Bool.noConfusion (dead.symm.trans usable.1)
  rw [empty]
  exact ordered.usable_nil

end Heap

namespace Session

theorem usableClosed_invariant : HeapInvariant Heap.Careless Heap.UsableClosed where
  worked ordered worked closed := closed.worked ordered worked
  performed ordered performed careless closed := closed.performed ordered performed careless
  dropped calm same resting closed := closed.calm same calm (by simp [resting.phase])
  retry _ _ := trivial

/-- In every state of every run of a careless program the checker finds nothing
amiss, and whatever is live and not condemned refers to nothing else. -/
theorem run_undamaged
    {capacity : Nat} {initial : Heap} {requests : List Request}
    (built : Heap.ofCapacity capacity = .ok initial)
    (careless : (ofHeap initial).Obeys Heap.Careless requests) :
    let heap := ((ofHeap initial).run requests).heap
    heap.checkInvariants = .ok () ∧
      ∀ ref, heap.Usable ref → ref ≠ Ref.freeRoot → ∀ side,
        (heap.node ref).child side = Ref.nil ∨ heap.Usable ((heap.node ref).child side) := by
  intro heap
  have start : (ofHeap initial).heap.UsableClosed := by
    obtain ⟨roomy, rfl⟩ := Heap.of_ofCapacity built
    exact Heap.fresh_usableClosed roomy
  obtain ⟨consistent, closed⟩ :=
    usableClosed_invariant.preserves.run careless ⟨consistent_ofHeap built, start⟩
  obtain ⟨free, ordered⟩ := consistent.ordered
  exact ⟨ordered.checkInvariants_eq_ok_iff.mpr closed.danglingFree,
    fun ref usable notHead side => .inr (closed ref usable notHead side)⟩

/-- A node that has been garbage for a while is linked again in the midst of the
pass that is to release it. -/
theorem run_undamaged_relinking_condemned :
    let requests : List Request :=
      [.attach, .allocateChild 1 .left, .setChild 1 .left 0, .step 14,
        .setChild 1 .left 4, .allocateChild 4 .right, .setChild 2 .right 9, .runCycle]
    let heap := ((ofHeap (Heap.fresh 6)).run requests).heap
    (ofHeap (Heap.fresh 6)).Obeys Heap.Careless requests ∧
      heap.checkInvariants = .ok () ∧
      ∀ ref, heap.Usable ref → ref ≠ Ref.freeRoot → ∀ side,
        (heap.node ref).child side = Ref.nil ∨
          heap.Usable ((heap.node ref).child side) := by
  intro requests heap
  have built : Heap.ofCapacity 6 = .ok (Heap.fresh 6) := rfl
  have careless : (ofHeap (Heap.fresh 6)).Obeys Heap.Careless requests :=
    ⟨trivial, trivial, trivial, trivial, trivial, trivial, trivial, trivial, trivial⟩
  exact ⟨careless, run_undamaged built careless⟩

end Session

end Tricolor
