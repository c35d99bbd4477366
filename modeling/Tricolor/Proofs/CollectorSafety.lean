import Tricolor.Proofs.Quiescence
import Tricolor.Proofs.Usability

/-!
# The collector never takes what a program can still get to

A disciplined program names only nodes that it can get to, and it leaves
releasing to the collector.  At every point of every cycle, whether marking, half
reclaimed or abandoned, all that such a program can get to is usable: it is
live, and the reclaim pass is not about to release it.
-/

namespace Tricolor

namespace Heap

/-- Mutators can get to usable nodes only. -/
def Safe (heap : Heap) : Prop :=
  ∀ ref, heap.MutatorReachable ref → heap.Usable ref

theorem Worked.child_of_reachable
    {before after : Heap} {free : List Ref} {ref : Ref} {side : Side}
    (worked : Worked before after) (ordered : before.WellFormed free) (safe : before.Safe)
    (reachable : before.MutatorReachable ref) :
    (after.node ref).child side = (before.node ref).child side :=
  worked.child_of_usable (safe ref reachable) (ordered.ne_freeRoot_of_reachable reachable) side

namespace Safe

variable {before after : Heap} {free : List Ref}

/-- Safety is kept if the reachable nodes keep their slots and stay usable. -/
theorem frame (safe : before.Safe)
    (spared : ∀ parent side, before.MutatorReachable parent →
      (after.node parent).child side = (before.node parent).child side)
    (usable : ∀ ref, before.MutatorReachable ref → before.Usable ref → after.Usable ref) :
    after.Safe := by
  intro ref reachable
  have inside := reachable.of_spared spared
  exact usable ref inside (safe ref inside)

theorem sameShape (safe : before.Safe) (same : SameShape before after)
    (usable : ∀ ref, before.MutatorReachable ref → before.Usable ref → after.Usable ref) :
    after.Safe :=
  safe.frame (fun parent side _ => same.child parent side) usable

/-- Outside of the reclaim pass a live node is usable whatever its mark. -/
theorem calm (safe : before.Safe) (same : SameShape before after)
    (calm : after.phase ≠ .reclaiming) :
    after.Safe := by
  apply safe.sameShape same
  intro ref _ usable
  rw [usable_iff_live calm, same.live]
  exact usable.1

theorem ne_firstFree (safe : before.Safe) (ordered : before.WellFormed free)
    (available : before.firstFree ≠ Ref.nil) {ref : Ref}
    (reachable : before.MutatorReachable ref) :
    ref ≠ before.firstFree := by
  intro hit
  subst hit
  exact Bool.noConfusion ((ordered.firstFree_dead available).symm.trans (safe _ reachable).1)

theorem popped (safe : before.Safe) (ordered : before.WellFormed free)
    (available : before.firstFree ≠ Ref.nil)
    (popped : Popped before before.firstFree after) :
    after.Safe := by
  apply safe.frame
  · intro parent side reachable
    have notHead := ordered.ne_freeRoot_of_reachable reachable
    rw [popped.child, if_neg (safe.ne_firstFree ordered available reachable),
      if_neg (fun head => notHead head.1)]
  · intro ref reachable usable
    have notFirst := safe.ne_firstFree ordered available reachable
    exact (popped.usable_iff notFirst).mpr usable

/-- What a new link makes reachable is what its target leads to. -/
theorem linked {parent target : Ref} {side : Side} (safe : before.Safe)
    (linked : Linked before parent side target after)
    (targetSafe : ∀ ref, before.Reaches target ref → before.Usable ref) :
    after.Safe := by
  intro ref reachable
  have inside : before.MutatorReachable ref ∨ before.Reaches target ref := by
    refine reachable.closed
      (fun ref => before.MutatorReachable ref ∨ before.Reaches target ref)
      (fun other otherSide here => ?_) fun root isRoot => .inl (.root isRoot)
    rw [linked.child]
    split
    · exact .inr (Reaches.refl before target)
    · rcases here with reached | reached
      · exact .inl (reached.child otherSide)
      · exact .inr (reached.child otherSide)
  rw [linked.usable_iff]
  rcases inside with reached | reached
  · exact safe ref reached
  · exact targetSafe ref reached

theorem worked (safe : before.Safe) (ordered : before.WellFormed free)
    (worked : Worked before after) :
    after.Safe := by
  apply safe.frame fun _ _ => worked.child_of_reachable ordered safe
  intro ref reachable usable
  cases worked with
  | rest same => exact same ▸ usable
  | start resting marking same =>
      rw [usable_iff_live (by simp [marking.phase]), same.live]
      exact usable.1
  | scan marking scanned =>
      rw [usable_iff_live (by simp [scanned.phase, marking.phase]), scanned.live]
      exact usable.1
  | settle marking settled same reclaiming =>
      -- Nothing is grey any more, so all that mutators can get to is black.
      have black := marking.tricolored.black_of_reachable settled marking.rootsMarked
        (reachable.mono mutatorRoots_subset)
      rw [← same.node] at black
      exact ⟨(same.sameShape.live ref).trans usable.1, fun condemned =>
        Color.noConfusion (condemned.2.2.symm.trans black)⟩
  | free reclaiming garbage pushed =>
      exact (Worked.free reclaiming garbage pushed).usable_iff reclaiming.phase ref |>.mpr usable
  | spare reclaiming spared whitened =>
      exact (Worked.spare reclaiming spared whitened).usable_iff reclaiming.phase ref |>.mpr usable
  | finish reclaiming passed same resting =>
      exact (reclaiming.usable_iff_of_finish passed same resting ref).mpr usable

end Safe

/-- A program names only what it can get to, and it leaves releasing to the
collector. -/
def Disciplined (heap : Heap) : Request → Prop
  | .release _ => False
  | .setChild parent _ child =>
      heap.MutatorReachable parent ∧ (child = Ref.nil ∨ heap.MutatorReachable child)
  | .allocateChild parent _ => heap.MutatorReachable parent
  | .allocateChildOrCollect _ _ _ => False
  | .shade ref => heap.MutatorReachable ref
  | _ => True

theorem Safe.performed
    {before after : Heap} {free : List Ref} {request : Request} (safe : before.Safe)
    (ordered : before.WellFormed free) (performed : Performed before request after)
    (disciplined : before.Disciplined request) :
    after.Safe := by
  cases performed with
  | refused => exact safe
  | allocated available popped => exact safe.popped ordered available popped
  | released => exact disciplined.elim
  | linked linkable linked =>
      apply safe.linked linked
      intro ref reaches
      rcases disciplined.2 with rfl | reachable
      · rw [ordered.eq_nil_of_reaches reaches]
        exact ordered.usable_nil
      · exact safe ref (reachable.trans reaches)
  | @grown parent side middle after available usable popped linkable linked =>
      have safePopped := safe.popped ordered available popped
      obtain ⟨_, rest, orderedPopped⟩ := ordered.exists_popped available popped
      apply safePopped.linked linked
      intro ref reaches
      -- The new node has been cleared, so the link makes nothing else reachable.
      have near : ref = before.firstFree ∨ ref = Ref.nil := by
        refine reaches.closed (fun ref => ref = before.firstFree ∨ ref = Ref.nil)
          (fun other otherSide here => .inr ?_) (.inl rfl)
        rcases here with rfl | rfl
        · rw [popped.child, if_pos rfl]
        · exact orderedPopped.sentinelChild otherSide
      rcases near with rfl | rfl
      · exact popped.usable_first
      · exact orderedPopped.usable_nil
  | shaded inside shading =>
      exact safe.sameShape shading.toSameShape fun ref _ usable => shading.usable usable

theorem fresh_safe {capacity : Nat} (roomy : minCapacity ≤ capacity) :
    (fresh capacity).Safe := by
  have ordered := fresh_wellFormed roomy
  have calm : (fresh capacity).phase ≠ .reclaiming := Phase.noConfusion
  intro ref reachable
  have low : ref < Ref.freeRoot := by
    refine reachable.closed (· < Ref.freeRoot) (fun parent side here => ?_) (by decide)
    rw [child_fresh, if_neg (fun linked => Nat.not_le.mpr here linked.2.1)]
    decide
  rw [usable_iff_live calm]
  exact ordered.live_of_lt (Nat.lt_succ_of_lt low)

/-- What mutators can get to is in use, is not about to be released, and is not
handed out again. -/
structure KeepsReachable (heap : Heap) : Prop where
  live : ∀ ref, heap.MutatorReachable ref → ref ≠ Ref.nil → (heap.node ref).live = true
  unlisted : ∀ ref, heap.MutatorReachable ref → ref ≠ Ref.nil → ref ∉ heap.freeList
  spared : ∀ ref, heap.MutatorReachable ref → ref ≠ Ref.nil → ¬ heap.Condemned ref
  allocated : ∀ ref, heap.allocate.1 = .ok ref → ¬ heap.MutatorReachable ref
  grown : ∀ parent side ref, (heap.allocateChild parent side).1 = .ok ref →
    ¬ heap.MutatorReachable ref

theorem Safe.keepsReachable
    {heap : Heap} {free : List Ref} (safe : heap.Safe) (ordered : heap.WellFormed free) :
    heap.KeepsReachable where
  live ref reachable _ := (safe ref reachable).1
  unlisted ref reachable _ member := by
    rw [ordered.freeList_eq, ordered.mem_iff, (safe ref reachable).1] at member
    exact Bool.noConfusion member
  spared ref reachable _ := (safe ref reachable).2
  allocated ref answer reachable := by
    rcases heap.allocate_cases with ⟨_, same⟩ | ⟨available, popped⟩
    · rw [same] at answer
      cases answer
    · rw [popped] at answer
      cases answer
      exact safe.ne_firstFree ordered available reachable rfl
  grown parent side ref answer reachable := by
    rcases ordered.allocateChild_cases parent side with
      ⟨fault, same⟩ | ⟨available, _, _, grown⟩
    · rw [same] at answer
      cases answer
    · rw [grown] at answer
      cases answer
      exact safe.ne_firstFree ordered available reachable rfl

end Heap

namespace Session

theorem safe_invariant : HeapInvariant Heap.Disciplined Heap.Safe where
  worked ordered worked safe := safe.worked ordered worked
  performed ordered performed disciplined safe := safe.performed ordered performed disciplined
  dropped _ same resting safe := safe.calm same (by simp [resting.phase])
  retry rejected := rejected.elim

/-- In every state of every run of a disciplined program, with a collector that
is driven, detached and replaced at will, whatever mutators can get to is live,
off the free list and not condemned. -/
theorem run_keepsReachable
    {capacity : Nat} {initial : Heap} {requests : List Request}
    (built : Heap.ofCapacity capacity = .ok initial)
    (disciplined : (ofHeap initial).Obeys Heap.Disciplined requests) :
    ((ofHeap initial).run requests).heap.KeepsReachable := by
  have start : (ofHeap initial).heap.Safe := by
    obtain ⟨roomy, rfl⟩ := Heap.of_ofCapacity built
    exact Heap.fresh_safe roomy
  obtain ⟨consistent, safe⟩ :=
    safe_invariant.preserves.run disciplined ⟨consistent_ofHeap built, start⟩
  obtain ⟨free, ordered⟩ := consistent.ordered
  exact safe.keepsReachable ordered

theorem run_keepsReachable_relinked_while_marking :
    let requests : List Request :=
      [.attach, .allocateChild 1 .left, .step 2, .setChild 1 .left 2, .step 9, .detach,
        .attach, .runCycle, .allocate]
    Heap.ofCapacity 6 = .ok (Heap.fresh 6) ∧
      (ofHeap (Heap.fresh 6)).Obeys Heap.Disciplined requests ∧
      ((ofHeap (Heap.fresh 6)).run requests).heap.KeepsReachable := by
  intro requests
  have built : Heap.ofCapacity 6 = .ok (Heap.fresh 6) := rfl
  have first : ∀ heap : Heap, heap.MutatorReachable 1 := fun _ => .root (by decide)
  have second : ∀ heap : Heap, heap.MutatorReachable 2 := fun _ => .root (by decide)
  have disciplined : (ofHeap (Heap.fresh 6)).Obeys Heap.Disciplined requests :=
    ⟨trivial, first _, trivial, ⟨first _, .inr (second _)⟩, trivial, trivial, trivial,
      trivial, trivial, trivial⟩
  exact ⟨built, disciplined, run_keepsReachable built disciplined⟩

end Session

end Tricolor
