import Tricolor.Proofs.Reclamation

/-!
# Progress of an undisturbed cycle

`Undisturbed start` describes a cycle in progress that no mutator has interfered
with.  Every unit of work keeps it and lowers the potential of the cycle, so the
cycle completes within its bound, whatever the heap it started from.
-/

namespace Tricolor

namespace Collection

/-- How far an undisturbed cycle has come, and what its report says by then. -/
inductive Stage (start : Heap) (free : List Ref) (heap : Heap) (report : CycleReport) :
    Position → Prop where
  | tracing {cursor clean : Nat} (traced : Heap.Traced start heap)
      (windowed : heap.Windowed cursor clean)
      (blackened : report.blackened = heap.blackNodes.card)
      (reclaimed : report.reclaimed = 0) :
      Stage start free heap report (.sweeping cursor clean)
  | sweeping {cursor : Nat} (swept : Heap.Swept start free heap cursor)
      (blackened : report.blackened = start.retained.card)
      (reclaimed : report.reclaimed = (start.discardedBelow cursor).length) :
      Stage start free heap report (.reclaiming cursor)

/-- A cycle in progress that started from the heap `start`. -/
structure Undisturbed (start : Heap) (free : List Ref) (collection : Collection) :
    Prop where
  consistent : collection.Consistent
  cyclesStarted : collection.heap.cyclesStarted = start.cyclesStarted + 1
  cycle : collection.collector.current.cycle = start.cyclesStarted + 1
  stage : Stage start free collection.heap collection.collector.current
    collection.collector.position

/-- A bound on the units of work left. -/
def potential (collection : Collection) : Nat :=
  match collection.collector.position with
  | .idle => 0
  | .sweeping _ clean => collection.heap.marksLeft clean + collection.heap.capacity
  | .reclaiming cursor => collection.heap.capacity - cursor

theorem potential_of_sweeping
    (collection : Collection) {cursor clean : Nat}
    (position : collection.collector.position = .sweeping cursor clean) :
    collection.potential = collection.heap.marksLeft clean + collection.heap.capacity := by
  unfold potential
  rw [position]

theorem potential_of_reclaiming
    (collection : Collection) {cursor : Nat}
    (position : collection.collector.position = .reclaiming cursor) :
    collection.potential = collection.heap.capacity - cursor := by
  unfold potential
  rw [position]

/-- The bound of a cycle leaves room for all the work there can be, and for one
more round and test. -/
theorem Consistent.potential_add_lt
    {collection : Collection} (consistent : collection.Consistent) :
    collection.potential + (collection.heap.capacity + 1) < collection.cycleBound := by
  have expanded : collection.cycleBound =
      collection.heap.capacity * collection.heap.capacity +
        4 * collection.heap.capacity + 4 := by
    rw [cycleBound, Collection.capacity, Nat.add_mul, Nat.mul_add, Nat.mul_add]
    omega
  rw [expanded]
  cases position : collection.collector.position with
  | idle =>
      have none : collection.potential = 0 := by rw [potential, position]
      omega
  | sweeping cursor clean =>
      have bounded := (consistent.sweeping position).2.2
      have rounds : (collection.heap.capacity - collection.heap.blackNodes.card) *
          (collection.heap.capacity + 1) ≤
            collection.heap.capacity * (collection.heap.capacity + 1) :=
        Nat.mul_le_mul_right _ (Nat.sub_le _ _)
      have square : collection.heap.capacity * (collection.heap.capacity + 1) =
          collection.heap.capacity * collection.heap.capacity + collection.heap.capacity :=
        Nat.mul_succ _ _
      rw [potential_of_sweeping collection position, Heap.marksLeft]
      omega
  | reclaiming cursor =>
      rw [potential_of_reclaiming collection position]
      omega

theorem tryQuiesce_of_settled
    {heap : Heap} (settled : heap.greyCount = 0) (collector : Collector) (cursor : Nat) :
    tryQuiesce ⟨heap, collector⟩ cursor =
      { heap := { heap with frontier := 1, phase := .reclaiming }
        collector := { collector with position := .reclaiming 1 } } :=
  if_neg (Nat.not_lt.mpr (Nat.le_of_eq settled))

namespace Undisturbed

variable {start heap : Heap} {free : List Ref} {collection : Collection}
  {collector : Collector}

theorem not_idle (undisturbed : collection.Undisturbed start free) :
    collection.collector.position ≠ .idle := by
  intro idle
  have stage := undisturbed.stage
  rw [idle] at stage
  cases stage

theorem potential_lt (undisturbed : collection.Undisturbed start free) :
    collection.potential < collection.cycleBound := by
  have bounded := undisturbed.consistent.potential_add_lt
  omega

theorem markRoots (consistent : Consistent ⟨start, collector⟩)
    (idle : collector.position = .idle) (ordered : start.WellFormed free) :
    (Collection.markRoots ⟨start, collector⟩).Undisturbed start free := by
  have resting : start.Resting := consistent.resting idle
  have shading := Heap.shadeAll_shaded start Ref.roots
  have traced := resting.traced ordered
  have unmarked := resting.blackNodes_shadeAll
  have consistentAfter := consistent.markRoots.consistent
  rw [markRoots_of_idle idle] at consistentAfter ⊢
  generalize start.shadeAll Ref.roots = shaded at *
  obtain ⟨_, inside, _⟩ := consistentAfter.sweeping rfl
  refine
    { consistent := consistentAfter
      cyclesStarted := congrArg (· + 1) shading.cyclesStarted
      cycle := congrArg (· + 1) shading.cyclesStarted
      stage := .tracing (traced.republished ⟨rfl, rfl, rfl⟩)
        (Heap.windowed_of_round inside) ?_ rfl }
  exact (congrArg Finset.card unmarked).symm

/-- After a clean round the test for rest succeeds at once. -/
theorem tryQuiesce {cursor : Nat}
    (undisturbed : Undisturbed start free ⟨heap, collector⟩)
    (ordered : start.WellFormed free)
    (position : collector.position = .sweeping cursor 0) :
    (Collection.tryQuiesce ⟨heap, collector⟩ cursor).Undisturbed start free ∧
      (Collection.tryQuiesce ⟨heap, collector⟩ cursor).potential <
        potential ⟨heap, collector⟩ := by
  obtain ⟨consistent, cyclesStarted, cycle, stage⟩ := undisturbed
  have consistentAfter := (consistent.tryQuiesce position).consistent
  have marking : heap.Marking := (consistent.sweeping position).1
  obtain ⟨_, orderedNow⟩ := consistent.ordered
  rw [potential_of_sweeping ⟨heap, collector⟩ position]
  rw [position] at stage
  cases stage with
  | tracing traced windowed blackened reclaimed =>
      have noGrey := windowed.noGrey
      have settled := orderedNow.greyCounted.eq_zero_iff.mpr noGrey
      have complete := traced.blackNodes_eq marking.tricolored noGrey ordered
      have swept : Heap.Swept start free
          { heap with frontier := 1, phase := .reclaiming } 1 :=
        traced.swept marking ⟨traced.same.shaped ordered.toShaped,
          orderedNow.sentinelBlack, orderedNow.greyCounted⟩ noGrey ⟨rfl, rfl, rfl⟩
      rw [tryQuiesce_of_settled settled] at consistentAfter ⊢
      refine ⟨⟨consistentAfter, cyclesStarted, cycle,
        .sweeping swept (complete ▸ blackened) ?_⟩, ?_⟩
      · rw [Heap.discardedBelow_one]
        exact reclaimed
      · rw [potential_of_reclaiming _ rfl]
        change heap.capacity - 1 < heap.marksLeft 0 + heap.capacity
        have left : 0 < heap.marksLeft 0 := Nat.succ_pos _
        omega

theorem sweepVisit {cursor clean : Nat}
    (undisturbed : Undisturbed start free ⟨heap, collector⟩)
    (position : collector.position = .sweeping cursor clean) (pending : clean ≠ 0) :
    (Collection.sweepVisit ⟨heap, collector⟩ cursor clean).Undisturbed start free ∧
      (Collection.sweepVisit ⟨heap, collector⟩ cursor clean).potential <
        potential ⟨heap, collector⟩ := by
  obtain ⟨consistent, cyclesStarted, cycle, stage⟩ := undisturbed
  have consistentAfter := (consistent.sweepVisit position).consistent
  obtain ⟨_, ordered⟩ := consistent.ordered
  have inside : cursor < heap.capacity := (consistent.sweeping position).2.1
  rw [potential_of_sweeping ⟨heap, collector⟩ position]
  rw [position] at stage
  cases stage with
  | tracing traced windowed blackened reclaimed =>
      -- A hit starts the round over but blackens a node, a miss shortens the round.
      by_cases grey : (heap.node cursor).color = .grey
      · have scanned := Heap.scanned_scan grey
        have counted := Heap.Traced.blackNodes_scan ordered scanned
        rw [sweepVisit_of_grey grey] at consistentAfter ⊢
        generalize heap.scan cursor = after at *
        have size : after.capacity = heap.capacity := scanned.capacity
        have round : after.Windowed ((cursor + 1) % heap.capacity) heap.capacity := by
          rw [← size]
          exact Heap.windowed_of_round (Nat.mod_lt _ (size ▸ Nat.zero_lt_of_lt inside))
        refine ⟨⟨consistentAfter, scanned.cyclesStarted.trans cyclesStarted, cycle,
          .tracing (traced.scan ordered scanned) round
            ((congrArg (· + 1) blackened).trans counted.symm) reclaimed⟩, ?_⟩
        rw [potential_of_sweeping _ rfl]
        change after.marksLeft heap.capacity + after.capacity <
          heap.marksLeft clean + heap.capacity
        rw [size]
        exact Nat.add_lt_add_right (Heap.Traced.marksLeft_scan ordered scanned clean) _
      · rw [sweepVisit_of_not_grey grey] at consistentAfter ⊢
        refine ⟨⟨consistentAfter, cyclesStarted, cycle,
          .tracing traced (windowed.advance inside grey) blackened reclaimed⟩, ?_⟩
        rw [potential_of_sweeping _ rfl]
        change heap.marksLeft (clean - 1) + heap.capacity <
          heap.marksLeft clean + heap.capacity
        unfold Heap.marksLeft
        omega

theorem reclaimVisit {cursor : Nat}
    (undisturbed : Undisturbed start free ⟨heap, collector⟩)
    (ordered : start.WellFormed free)
    (position : collector.position = .reclaiming cursor) (inside : cursor < heap.capacity) :
    (Collection.reclaimVisit ⟨heap, collector⟩ cursor).Undisturbed start free ∧
      (Collection.reclaimVisit ⟨heap, collector⟩ cursor).potential <
        potential ⟨heap, collector⟩ := by
  obtain ⟨consistent, cyclesStarted, cycle, stage⟩ := undisturbed
  have advanced := consistent.reclaimVisit position inside
  have consistentAfter := advanced.consistent
  have reclaiming : heap.Reclaiming cursor := consistent.reclaiming position
  have proper : cursor ≠ Ref.nil := Nat.ne_of_gt reclaiming.started
  rw [potential_of_reclaiming ⟨heap, collector⟩ position]
  rw [position] at stage
  cases stage with
  | sweeping swept blackened reclaimed =>
      by_cases garbage : heap.Garbage cursor
      · have listed := swept.discardedBelow_of_garbage ordered proper inside garbage
        have moved : (heap.moveFrontier (cursor + 1)).WellFormed
            (start.discardedBelow cursor ++ free) :=
          swept.ordered.republished ⟨rfl, rfl, rfl⟩
        have pushed := moved.pushed_pushFree (garbage.rooted reclaiming.started) inside
        rw [reclaimVisit_of_garbage garbage] at consistentAfter ⊢
        generalize (heap.moveFrontier (cursor + 1)).pushFree cursor = after at *
        refine ⟨⟨consistentAfter, pushed.cyclesStarted.trans cyclesStarted, cycle,
          .sweeping (swept.release ordered reclaiming inside garbage (pushed.report _))
            blackened ?_⟩, ?_⟩
        · rw [listed, List.length_cons, ← reclaimed]
        · rw [potential_of_reclaiming _ rfl]
          change after.capacity - (cursor + 1) < heap.capacity - cursor
          have size : after.capacity = heap.capacity := pushed.capacity
          omega
      · have kept := swept.discardedBelow_of_spared ordered proper inside garbage
        have sweptAfter := swept.spare ordered reclaiming inside garbage
        have whitened := Heap.whiten_recolored (heap.moveFrontier (cursor + 1)) cursor
        rw [reclaimVisit_of_not_garbage garbage] at consistentAfter ⊢
        generalize (heap.moveFrontier (cursor + 1)).whiten cursor = after at *
        refine ⟨⟨consistentAfter, whitened.cyclesStarted.trans cyclesStarted, cycle,
          .sweeping sweptAfter blackened (kept ▸ reclaimed)⟩, ?_⟩
        rw [potential_of_reclaiming _ rfl]
        change after.capacity - (cursor + 1) < heap.capacity - cursor
        have size : after.capacity = heap.capacity := whitened.capacity
        omega

/-- Every unit of work brings the cycle closer to its end. -/
theorem visit (undisturbed : collection.Undisturbed start free)
    (ordered : start.WellFormed free) (pending : collection.isSpent = false) :
    collection.visit.Undisturbed start free ∧
      collection.visit.potential < collection.potential := by
  obtain ⟨heap, collector⟩ := collection
  unfold Collection.visit
  cases position : collector.position with
  | idle => exact absurd position undisturbed.not_idle
  | sweeping cursor clean =>
      by_cases settled : clean = 0
      · subst settled
        exact undisturbed.tryQuiesce ordered position
      · simp only [if_neg settled]
        exact undisturbed.sweepVisit position settled
  | reclaiming cursor =>
      have inside := inside_of_pending pending position
      exact undisturbed.reclaimVisit ordered position inside

end Undisturbed

end Collection

end Tricolor
