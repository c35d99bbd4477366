import Tricolor.Proofs.Budgets
import Tricolor.Proofs.HeapChecking
import Tricolor.Proofs.StopTheWorld

/-!
# Recovery from an abandoned cycle

A collector may be dropped at any point of a cycle, with half of the heap marked or half
of the garbage released.  Dropping it touches marks only and takes all of them back, so
that nothing of the unfinished cycle is left for the next collector to be misled by.
-/

namespace Tricolor

namespace Heap

/-- The heap is at rest and bears no marks. -/
structure Unmarked (heap : Heap) : Prop where
  phase : heap.phase = .idle
  greyCount : heap.greyCount = 0
  white : ∀ ref, ref ≠ Ref.nil → ref < heap.capacity → (heap.node ref).color = .white

theorem SameShape.freeList {before after : Heap} {free : List Ref}
    (same : SameShape before after) (shaped : before.Shaped free) :
    after.freeList = before.freeList :=
  (same.shaped shaped).freeList_eq.trans shaped.freeList_eq.symm

namespace Unmarked

variable {heap : Heap} {free : List Ref}

theorem ne_grey (unmarked : heap.Unmarked) (ordered : heap.WellFormed free) (ref : Ref) :
    (heap.node ref).color ≠ .grey :=
  ordered.greyCounted.eq_zero_iff.mp unmarked.greyCount ref

theorem not_lingering (unmarked : heap.Unmarked) (ordered : heap.WellFormed free) (ref : Ref) :
    ¬ heap.Lingering ref :=
  fun lingering => unmarked.ne_grey ordered ref lingering.1

end Unmarked

/-- Abandoning a cycle takes all of its marks back. -/
theorem WellFormed.unmarked_abandonCycle
    {heap : Heap} {free : List Ref} (ordered : heap.WellFormed free)
    (active : heap.phase ≠ .idle) :
    heap.abandonCycle.Unmarked := by
  have whitened := whitenAll_recolored heap
  have color : ∀ ref, (heap.abandonCycle.node ref).color = (heap.whitenAll.node ref).color := by
    rw [abandonCycle_of_active active]
    exact fun _ => rfl
  have white : ∀ ref, ref ≠ Ref.nil → ref < heap.capacity →
      (heap.abandonCycle.node ref).color = .white := by
    intro ref proper inside
    rw [color, color_whitenAll, if_pos ⟨proper, inside⟩]
  have orderedAfter := ordered.abandonCycle
  have sameSize := (abandonCycle_sameShape heap).capacity
  refine ⟨(abandonCycle_resting active).phase, ?_, fun ref proper inside =>
    white ref proper (sameSize ▸ inside)⟩
  rw [orderedAfter.greyCounted.eq_zero_iff]
  intro ref grey
  have inside := lt_capacity_of_grey grey
  rw [white ref (orderedAfter.ne_nil_of_grey grey) (sameSize ▸ inside)] at grey
  exact Color.noConfusion grey

/-- Where nothing is in use but what mutators can get to, nothing in use refers to a free
node. -/
theorem Purged.danglingFree
    {before after : Heap} {free freeAfter : List Ref} (purged : before.Purged after)
    (ordered : before.WellFormed free) (orderedAfter : after.WellFormed freeAfter) :
    after.DanglingFree := by
  intro ref usable notHead side
  by_cases proper : ref ≠ Ref.nil ∧ ref < before.capacity
  · have reachable : before.MutatorReachable ref :=
      ((purged.live ref proper.1 proper.2).mp usable.1).resolve_right notHead
    have childReachable : before.MutatorReachable ((after.node ref).child side) :=
      (purged.reachable _).mp (((purged.reachable ref).mpr reachable).child side)
    by_cases empty : (after.node ref).child side = Ref.nil
    · exact .inl empty
    · have inside := ordered.lt_of_mutatorReachable childReachable
      exact .inr ((purged.live _ empty inside).mpr (.inl childReachable))
  · left
    rcases not_and_or.mp proper with sentinel | beyond
    · rw [not_not.mp sentinel]
      exact orderedAfter.sentinelChild side
    · rw [node_of_capacity_le (purged.capacity ▸ Nat.le_of_not_lt beyond), Node.sentinel_child]

/-- All that mutators have lost is on the free list, nothing else has changed hands or
slots, and the heap passes its check. -/
structure Cleared (before after : Heap) : Prop extends Purged before after where
  child : ∀ ref side, before.MutatorReachable ref ∨ ref = Ref.freeRoot →
    ¬ (ref = Ref.freeRoot ∧ side = .right) →
    (after.node ref).child side = (before.node ref).child side
  checked : after.checkInvariants = .ok ()

end Heap

namespace Collection.Consistent

variable {heap : Heap}

/-- A collector new to an unmarked heap needs one cycle to release all that is lost. -/
theorem purged_runCycle (consistent : Consistent ⟨heap, {}⟩) (unmarked : heap.Unmarked)
    (bare : heap.HeadBare) (safe : heap.Safe) :
    heap.Purged (runCycle ⟨heap, {}⟩).2.heap := by
  obtain ⟨free, ordered⟩ := consistent.ordered
  have purged := consistent.purged_stopTheWorld bare safe fun ref lingering _ =>
    absurd lingering (unmarked.not_lingering ordered ref)
  have atRest : ¬ heap.phase.isActive = true := by simp [unmarked.phase, Phase.isActive]
  rwa [stopTheWorld, if_neg atRest] at purged

theorem cleared_runCycle (consistent : Consistent ⟨heap, {}⟩) (unmarked : heap.Unmarked)
    (bare : heap.HeadBare) (safe : heap.Safe) :
    ∃ report after, runCycle ⟨heap, {}⟩ = (some report, after) ∧ heap.Cleared after.heap := by
  obtain ⟨free, ordered⟩ := consistent.ordered
  obtain ⟨report, after, ran, cycled⟩ := runCycle_reports consistent ordered rfl
  have purged := consistent.purged_runCycle unmarked bare safe
  have consistentAfter := consistent_workStable.reclaim consistent
  change (runCycle ⟨heap, {}⟩).2.Consistent at consistentAfter
  rw [ran] at purged consistentAfter
  obtain ⟨freeAfter, orderedAfter⟩ := consistentAfter.ordered
  refine ⟨report, after, ran, purged, fun ref side wanted notHead => ?_, ?_⟩
  · by_cases sentinel : ref = Ref.nil
    · rw [sentinel, orderedAfter.sentinelChild, ordered.sentinelChild]
    · apply cycled.child ref side _ notHead
      rcases wanted with reachable | rfl
      · exact ⟨sentinel, .inl (reachable.mono Heap.mutatorRoots_subset)⟩
      · exact .of_root (by decide)
  · exact orderedAfter.checkInvariants_eq_ok_iff.mpr (purged.danglingFree ordered orderedAfter)

end Collection.Consistent

namespace Session

theorem apply_detach (session : Session) :
    session.apply .detach =
      (.done, ⟨session.collection.detach, .unattended, session.detach.handles⟩) := by
  obtain ⟨heap, driver, handles⟩ := session
  cases driver <;> rfl

theorem apply_attach_unattended {heap : Heap} {handles : List Handle}
    (consistent : Collection.Consistent ⟨heap, {}⟩) :
    Session.apply ⟨heap, .unattended, handles⟩ .attach =
      (.done, stepping ⟨heap, {}⟩ handles) := by
  change (Reply.done, stepping (Collection.attach heap) handles) = _
  rw [consistent.attach_eq]

/-- The collector is dropped at any point of any run of a disciplined program.  Slots, use
flags and the free list stay as they are.  If a cycle was in progress, no mark of it is
left, and the first cycle of the next collector keeps what mutators can get to and
releases everything else. -/
theorem run_recovers
    {capacity : Nat} {initial : Heap} {requests : List Request}
    (built : Heap.ofCapacity capacity = .ok initial)
    (disciplined : (ofHeap initial).Obeys Heap.Disciplined requests) :
    let session := (ofHeap initial).run requests
    let dropped := (session.apply .detach).2
    (∀ ref side, (dropped.heap.node ref).child side = (session.heap.node ref).child side) ∧
    (∀ ref, (dropped.heap.node ref).live = (session.heap.node ref).live) ∧
    dropped.heap.freeList = session.heap.freeList ∧
    (session.heap.phase ≠ .idle →
      dropped.heap.Unmarked ∧
      ∃ attached report after, dropped.apply .attach = (.done, attached) ∧
        attached.apply .runCycle = (.report (some report), after) ∧
        dropped.heap.Cleared after.heap) := by
  intro session
  rw [apply_detach]
  intro dropped
  have start : (ofHeap initial).heap.HeadBare ∧ (ofHeap initial).heap.Safe := by
    obtain ⟨roomy, rfl⟩ := Heap.of_ofCapacity built
    exact ⟨Heap.fresh_headBare capacity, Heap.fresh_safe roomy⟩
  have consistentStart := consistent_ofHeap built
  have bare := (headBare_invariant.preserves.run (obeys_anything _ requests)
    ⟨consistentStart, start.1⟩).2
  obtain ⟨consistent, safe⟩ := safe_invariant.preserves.run disciplined
    ⟨consistentStart, start.2⟩
  obtain ⟨free, ordered⟩ := consistent.ordered
  obtain ⟨same, consistentDropped⟩ := consistent.detach
  refine ⟨fun ref side => same.child ref side, fun ref => same.live ref,
    same.freeList ordered.toShaped, fun active => ?_⟩
  have abandoned : dropped.heap = session.heap.abandonCycle :=
    if_neg (mt consistent.phase_eq_idle_iff.mp active)
  have unmarked : dropped.heap.Unmarked := abandoned ▸ ordered.unmarked_abandonCycle active
  have bareDropped : dropped.heap.HeadBare := (same.child Ref.freeRoot .left).trans bare
  have safeDropped : dropped.heap.Safe := safe.calm same (by simp [unmarked.phase])
  obtain ⟨report, after, ran, cleared⟩ :=
    consistentDropped.cleared_runCycle unmarked bareDropped safeDropped
  refine ⟨unmarked, _, report, stepping after session.detach.handles,
    apply_attach_unattended consistentDropped, ?_, cleared⟩
  rw [apply_runCycle_stepping, ran]

/-- Nodes 4 and 5 are lost, and node 4 has been released when the collector is dropped, so
that node 5 refers to a free node until the next cycle. -/
theorem run_recovers_half_reclaimed :
    let requests : List Request :=
      [.attach, .allocateChild 1 .left, .allocateChild 1 .right, .setChild 5 .left 4,
        .setChild 1 .left 0, .setChild 1 .right 0, .sweep, .step 4]
    let session := (ofHeap (Heap.fresh 6)).run requests
    let dropped := (session.apply .detach).2
    session.collector.position = .reclaiming 5 ∧
      (dropped.heap.node 5).live = true ∧ (dropped.heap.node 5).left = 4 ∧
      (dropped.heap.node 4).live = false ∧
      dropped.heap.Unmarked ∧
      ∃ attached report after, dropped.apply .attach = (.done, attached) ∧
        attached.apply .runCycle = (.report (some report), after) ∧
        dropped.heap.Cleared after.heap := by
  intro requests session dropped
  have built : Heap.ofCapacity 6 = .ok (Heap.fresh 6) := rfl
  have first : ∀ heap : Heap, heap.MutatorReachable 1 := fun _ => .root (by decide)
  have disciplined : (ofHeap (Heap.fresh 6)).Obeys Heap.Disciplined requests := by
    refine ⟨trivial, first _, first _, ⟨?_, .inr ?_⟩, ⟨first _, .inl rfl⟩, ⟨first _, .inl rfl⟩,
      trivial, trivial, trivial⟩
    · exact (first _).child .right
    · exact (first _).child .left
  obtain ⟨_, _, _, recovered⟩ := run_recovers built disciplined
  exact ⟨by decide, by decide, by decide, by decide, recovered (by decide)⟩

end Session

end Tricolor
