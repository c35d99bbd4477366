import Tricolor.Proofs.CollectorWork

/-!
# Visits of a collector

One unit of work is one of six things, depending on where the collector stands and
on the node that it finds there.  `Collection.Visited` lists them, each with the
place where the collector stands afterwards.
-/

namespace Tricolor

namespace Collection

/-- What one unit of work does to the collection. -/
inductive Visited (before after : Collection) : Prop where
  /-- The scan meets a grey node. -/
  | scanned {cursor clean : Nat}
      (position : before.collector.position = .sweeping cursor clean) (pending : clean ≠ 0)
      (scanned : Heap.Scanned before.heap cursor after.heap)
      (next : after.collector.position =
        .sweeping ((cursor + 1) % before.heap.capacity) before.heap.capacity)
  /-- The scan meets a node that is not grey. -/
  | passed {cursor clean : Nat}
      (position : before.collector.position = .sweeping cursor clean) (pending : clean ≠ 0)
      (unmarked : (before.heap.node cursor).color ≠ .grey) (same : after.heap = before.heap)
      (next : after.collector.position =
        .sweeping ((cursor + 1) % before.heap.capacity) (clean - 1))
  /-- After a clean round there are still grey nodes. -/
  | resumed {cursor : Nat}
      (position : before.collector.position = .sweeping cursor 0)
      (grey : ∃ ref, (before.heap.node ref).color = .grey) (same : after.heap = before.heap)
      (next : after.collector.position = .sweeping cursor before.heap.capacity)
  /-- After a clean round nothing is grey. -/
  | settled {cursor : Nat}
      (position : before.collector.position = .sweeping cursor 0)
      (settled : ∀ ref, (before.heap.node ref).color ≠ .grey)
      (same : Heap.Republished before.heap after.heap)
      (phase : after.heap.phase = .reclaiming)
      (next : after.collector.position = .reclaiming 1)
  /-- The reclaim pass meets garbage. -/
  | freed {cursor : Nat}
      (position : before.collector.position = .reclaiming cursor)
      (inside : cursor < before.heap.capacity) (garbage : before.heap.Garbage cursor)
      (pushed : Heap.Pushed (before.heap.moveFrontier (cursor + 1)) cursor after.heap)
      (next : after.collector.position = .reclaiming (cursor + 1))
  /-- The reclaim pass meets a node that it spares. -/
  | spared {cursor : Nat}
      (position : before.collector.position = .reclaiming cursor)
      (inside : cursor < before.heap.capacity) (spared : ¬ before.heap.Garbage cursor)
      (whitened : after.heap = (before.heap.moveFrontier (cursor + 1)).whiten cursor)
      (next : after.collector.position = .reclaiming (cursor + 1))

theorem visited_sweepVisit
    {heap : Heap} {collector : Collector} {cursor clean : Nat}
    (position : collector.position = .sweeping cursor clean) (pending : clean ≠ 0) :
    Visited ⟨heap, collector⟩ (sweepVisit ⟨heap, collector⟩ cursor clean) := by
  by_cases grey : (heap.node cursor).color = .grey
  · have scanned := Heap.scanned_scan grey
    rw [sweepVisit_of_grey grey]
    generalize heap.scan cursor = after at *
    exact .scanned position pending scanned rfl
  · rw [sweepVisit_of_not_grey grey]
    exact .passed position pending grey rfl rfl

namespace Consistent

variable {collection : Collection} {heap : Heap} {collector : Collector} {cursor : Nat}

theorem visited_tryQuiesce (consistent : Consistent ⟨heap, collector⟩)
    (position : collector.position = .sweeping cursor 0) :
    Visited ⟨heap, collector⟩ (Collection.tryQuiesce ⟨heap, collector⟩ cursor) := by
  obtain ⟨free, ordered⟩ := consistent.ordered
  have counted := ordered.greyCounted.eq_zero_iff
  by_cases settled : ∀ ref, (heap.node ref).color ≠ .grey
  · have none : ¬ 0 < heap.greyCount := Nat.not_lt.mpr (Nat.le_of_eq (counted.mpr settled))
    rw [Collection.tryQuiesce, if_neg none]
    exact .settled position settled ⟨rfl, rfl, rfl⟩ rfl rfl
  · have some : 0 < heap.greyCount := Nat.pos_of_ne_zero fun zero => settled (counted.mp zero)
    obtain ⟨ref, grey⟩ := not_forall.mp settled
    rw [Collection.tryQuiesce, if_pos some]
    exact .resumed position ⟨ref, Decidable.not_not.mp grey⟩ rfl rfl

theorem visited_reclaimVisit (consistent : Consistent ⟨heap, collector⟩)
    (position : collector.position = .reclaiming cursor) (inside : cursor < heap.capacity) :
    Visited ⟨heap, collector⟩ (Collection.reclaimVisit ⟨heap, collector⟩ cursor) := by
  obtain ⟨free, ordered⟩ := consistent.ordered
  have reclaiming : heap.Reclaiming cursor := consistent.reclaiming position
  by_cases garbage : heap.Garbage cursor
  · have moved : (heap.moveFrontier (cursor + 1)).WellFormed free :=
      ordered.republished ⟨rfl, rfl, rfl⟩
    have pushed := (moved.pushed_pushFree (garbage.rooted reclaiming.started) inside).report
      (.liveNodes (Heap.liveCount ((heap.moveFrontier (cursor + 1)).pushFree cursor)))
    rw [reclaimVisit_of_garbage garbage]
    exact .freed position inside garbage pushed rfl
  · rw [reclaimVisit_of_not_garbage garbage]
    exact .spared position inside garbage rfl rfl

theorem visited (consistent : collection.Consistent)
    (active : collection.collector.position ≠ .idle) (pending : collection.isSpent = false) :
    Visited collection collection.visit := by
  obtain ⟨heap, collector⟩ := collection
  unfold Collection.visit
  cases position : collector.position with
  | idle => exact absurd position active
  | sweeping cursor clean =>
      by_cases expired : clean = 0
      · subst expired
        exact consistent.visited_tryQuiesce position
      · simp only [if_neg expired]
        exact visited_sweepVisit position expired
  | reclaiming cursor =>
      exact consistent.visited_reclaimVisit position (inside_of_pending pending position)

end Consistent

/-- A cycle starts: the marking roots are shaded, and the scan has a round before it. -/
structure Started (before after : Collection) : Prop
    extends Heap.SameShape before.heap after.heap where
  phase : after.heap.phase = .marking
  next : after.collector.position = .sweeping 0 before.heap.capacity
  color : ∀ ref, (after.heap.node ref).color =
    if ref ∈ Ref.roots ∧ (before.heap.node ref).color = .white then .grey
    else (before.heap.node ref).color

theorem started_markRoots
    {collection : Collection} (idle : collection.collector.position = .idle) :
    Started collection collection.markRoots := by
  obtain ⟨heap, collector⟩ := collection
  have shading := Heap.shadeAll_recolored heap Ref.roots
  have color := Heap.color_shadeAll heap Ref.roots
  rw [markRoots_of_idle idle]
  generalize heap.shadeAll Ref.roots = shaded at *
  exact
    { capacity := shading.capacity
      child := shading.child
      live := shading.live
      freeCount := shading.freeCount
      phase := rfl
      next := congrArg (Position.sweeping 0) shading.capacity
      color := color }

end Collection

end Tricolor
