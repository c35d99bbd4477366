import Tricolor.Proofs.Accounting
import Tricolor.Proofs.LateMarks

/-!
# What is counted and what is reported

The number of nodes in use is a matter of the free list, releases are counted by the
collector, and both are reported as they happen.  The three accounts agree at every point
of every cycle, and work of the collector does not disturb them.
-/

namespace Tricolor

namespace Heap

/-- The live-node counts that have been reported, in order. -/
def reportedCounts (heap : Heap) : List Nat := Event.liveCounts heap.events.toList

/-- The number of cycles that have been reported. -/
def reportedPasses (heap : Heap) : Nat := Event.passes heap.events.toList

/-- Nothing has been reported, and nothing has happened that would have to be. -/
structure Silent (before after : Heap) : Prop where
  capacity : after.capacity = before.capacity
  freeCount : after.freeCount = before.freeCount
  events : after.events = before.events

/-- One more live-node count has been reported, and it is correct. -/
structure Entered (before after : Heap) : Prop where
  capacity : after.capacity = before.capacity
  events : after.events = before.events.push (.liveNodes after.liveCount)

section

variable {first second third before after heap : Heap} {free : List Ref}

theorem Recolored.silent (recolored : Recolored before after) : Silent before after :=
  ⟨recolored.capacity, recolored.freeCount, recolored.events⟩

namespace Silent

theorem trans (left : Silent first second) (right : Silent second third) :
    Silent first third :=
  ⟨right.capacity.trans left.capacity, right.freeCount.trans left.freeCount,
    right.events.trans left.events⟩

theorem liveCount (silent : Silent before after) : after.liveCount = before.liveCount := by
  rw [Heap.liveCount, Heap.liveCount, silent.capacity, silent.freeCount]

theorem reportedCounts (silent : Silent before after) :
    after.reportedCounts = before.reportedCounts := by
  rw [Heap.reportedCounts, Heap.reportedCounts, silent.events]

theorem reportedPasses (silent : Silent before after) :
    after.reportedPasses = before.reportedPasses := by
  rw [Heap.reportedPasses, Heap.reportedPasses, silent.events]

end Silent

namespace Entered

theorem reportedCounts (entered : Entered before after) :
    after.reportedCounts = before.reportedCounts ++ [after.liveCount] := by
  simp [Heap.reportedCounts, entered.events, Event.liveCounts, Event.liveCount?]

theorem reportedPasses (entered : Entered before after) :
    after.reportedPasses = before.reportedPasses := by
  simp [Heap.reportedPasses, entered.events, Event.passes, Event.isPass]

end Entered

/-- The nodes other than the sentinel are live or free. -/
theorem WellFormed.liveCount_add_freeCount (ordered : heap.WellFormed free) :
    heap.liveCount + heap.freeCount = heap.capacity - 1 := by
  have split := ordered.card_liveNodes
  rw [ordered.liveCount_eq, ordered.counted]
  omega

/-- One free node less is one live node more. -/
theorem WellFormed.liveCount_taken (ordered : before.WellFormed free)
    (available : before.firstFree ≠ Ref.nil) (capacity : after.capacity = before.capacity)
    (freeCount : after.freeCount = before.freeCount - 1) :
    after.liveCount = before.liveCount + 1 := by
  obtain ⟨rest, listed⟩ := ordered.exists_cons available
  have counted : before.freeCount = rest.length + 1 := by
    rw [ordered.counted, listed, List.length_cons]
  have split := ordered.liveCount_add_freeCount
  rw [Heap.liveCount] at split
  rw [Heap.liveCount, Heap.liveCount, capacity, freeCount]
  omega

/-- One free node more is one live node less. -/
theorem WellFormed.liveCount_put (ordered : before.WellFormed free) {freeAfter : List Ref}
    (orderedAfter : after.WellFormed freeAfter) (capacity : after.capacity = before.capacity)
    (freeCount : after.freeCount = before.freeCount + 1) :
    after.liveCount + 1 = before.liveCount := by
  have size := ordered.liveCount_add_freeCount
  have sizeAfter := orderedAfter.liveCount_add_freeCount
  rw [capacity, freeCount] at sizeAfter
  omega

theorem relink_silent (heap : Heap) (parent : Ref) (side : Side) (target : Ref) :
    Silent heap (heap.relink parent side target) :=
  (insertionBarrier_shaded heap parent target).silent.trans
    ⟨capacity_writeChild .., rfl, rfl⟩

/-- Taking a node off the free list is not reported as such. -/
theorem events_popFree (heap : Heap) : heap.popFree.2.events = heap.events := by
  rw [popFree_eq]
  have linked := relink_silent heap Ref.freeRoot .right (heap.node heap.firstFree).right
  generalize heap.relink Ref.freeRoot .right (heap.node heap.firstFree).right = headed at *
  have whitened := whiten_recolored (headed.enlist heap.firstFree) heap.firstFree
  have shaded := protectNew_shaded ((headed.enlist heap.firstFree).whiten heap.firstFree)
    heap.firstFree
  exact shaded.events.trans (whitened.events.trans linked.events)

theorem freeCount_pushFree (heap : Heap) (ref : Ref) :
    (heap.pushFree ref).freeCount = heap.freeCount + 1 :=
  rfl

theorem entered_pushFree (heap : Heap) (ref : Ref) :
    Entered heap (heap.pushFree ref).reportLive where
  capacity := (capacity_writeChild ..).trans (capacity_update ..)
  events := rfl

/-- A node taken off the free list and linked is reported with the count that includes it. -/
theorem WellFormed.entered_grown (ordered : heap.WellFormed free)
    (available : heap.firstFree ≠ Ref.nil) {parent : Ref} {side : Side} :
    let grown := (heap.popFree.2.relink parent side heap.firstFree).reportLive
    Entered heap grown ∧ grown.liveCount = heap.liveCount + 1 ∧
      grown.cyclesStarted = heap.cyclesStarted := by
  intro grown
  have popped := ordered.popped_popFree available
  have linked := relink_silent heap.popFree.2 parent side heap.firstFree
  have barred := insertionBarrier_shaded heap.popFree.2 parent heap.firstFree
  have capacity : grown.capacity = heap.capacity := linked.capacity.trans popped.capacity
  have freeCount : grown.freeCount = heap.freeCount - 1 :=
    linked.freeCount.trans popped.freeCount
  have events : (heap.popFree.2.relink parent side heap.firstFree).events = heap.events :=
    linked.events.trans heap.events_popFree
  exact ⟨⟨capacity, by rw [← events]; rfl⟩,
    ordered.liveCount_taken available capacity freeCount,
    barred.cyclesStarted.trans popped.cyclesStarted⟩

end

end Heap

namespace Collection

/-- The nodes that the collector has released, in completed cycles and in this one. -/
def reclaimed (collection : Collection) : Nat :=
  collection.collector.stats.reclaimed + collection.collector.current.reclaimed

/-- The accounts agree, given how many nodes mutators have allocated. -/
structure Books (collection : Collection) (allocations : Nat) : Prop where
  balance : collection.heap.liveCount + collection.reclaimed = 3 + allocations
  counts : collection.heap.reportedCounts.length = allocations + collection.reclaimed
  last : ∀ count ∈ collection.heap.reportedCounts.getLast?, count = collection.heap.liveCount
  passes : collection.heap.reportedPasses = collection.collector.stats.cycles
  cycles : collection.heap.cyclesStarted =
    collection.collector.stats.cycles +
      if collection.collector.position = .idle then 0 else 1
  settled : collection.collector.position = .idle → collection.collector.current.reclaimed = 0

/-- What one visit of the collector comes to in the accounts. -/
inductive Tallied (before after : Collection) : Prop where
  | silent (same : Heap.Silent before.heap after.heap)
      (reclaimed : after.reclaimed = before.reclaimed)
  | freed (entered : Heap.Entered before.heap after.heap)
      (freeCount : after.heap.freeCount = before.heap.freeCount + 1)
      (reclaimed : after.reclaimed = before.reclaimed + 1)

theorem silent_markRoots {collection : Collection}
    (idle : collection.collector.position = .idle) :
    Heap.Silent collection.heap collection.markRoots.heap ∧
      collection.markRoots.collector.stats = collection.collector.stats ∧
      collection.markRoots.collector.current.reclaimed = 0 := by
  obtain ⟨heap, collector⟩ := collection
  have shading := Heap.shadeAll_recolored heap Ref.roots
  rw [markRoots_of_idle idle]
  generalize heap.shadeAll Ref.roots = shaded at *
  exact ⟨⟨shading.capacity, shading.freeCount, shading.events⟩, rfl, rfl⟩

theorem tallied_sweepVisit (heap : Heap) (collector : Collector) (cursor clean : Nat) :
    Tallied ⟨heap, collector⟩ (sweepVisit ⟨heap, collector⟩ cursor clean) := by
  by_cases grey : (heap.node cursor).color = .grey
  · have silent := (Heap.scanned_scan grey).toRecolored.silent
    rw [sweepVisit_of_grey grey]
    generalize heap.scan cursor = after at *
    exact .silent silent rfl
  · rw [sweepVisit_of_not_grey grey]
    exact .silent ⟨rfl, rfl, rfl⟩ rfl

theorem tallied_reclaimVisit (heap : Heap) (collector : Collector) (cursor : Nat) :
    Tallied ⟨heap, collector⟩ (reclaimVisit ⟨heap, collector⟩ cursor) := by
  by_cases garbage : heap.Garbage cursor
  · have entered := (heap.moveFrontier (cursor + 1)).entered_pushFree cursor
    have freeCount := (heap.moveFrontier (cursor + 1)).freeCount_pushFree cursor
    rw [reclaimVisit_of_garbage garbage]
    generalize (heap.moveFrontier (cursor + 1)).pushFree cursor = after at *
    exact .freed ⟨entered.capacity, entered.events⟩ freeCount rfl
  · have whitened := (Heap.whiten_recolored (heap.moveFrontier (cursor + 1)) cursor).silent
    rw [reclaimVisit_of_not_garbage garbage]
    generalize (heap.moveFrontier (cursor + 1)).whiten cursor = after at *
    exact .silent ⟨whitened.capacity, whitened.freeCount, whitened.events⟩ rfl

theorem tallied_visit (collection : Collection) : Tallied collection collection.visit := by
  obtain ⟨heap, collector⟩ := collection
  unfold visit
  cases position : collector.position with
  | idle => exact .silent ⟨rfl, rfl, rfl⟩ rfl
  | sweeping cursor clean =>
      by_cases expired : clean = 0
      · simp only [expired, if_true, tryQuiesce]
        split <;> exact .silent ⟨rfl, rfl, rfl⟩ rfl
      · simp only [expired, if_false]
        exact tallied_sweepVisit heap collector cursor clean
  | reclaiming cursor => exact tallied_reclaimVisit heap collector cursor

/-- A cycle is entered into the statistics when it is complete. -/
theorem stats_visit (collection : Collection) :
    collection.visit.collector.stats = collection.collector.stats := by
  obtain ⟨heap, collector⟩ := collection
  unfold visit
  cases position : collector.position with
  | idle => rfl
  | sweeping cursor clean =>
      simp only [tryQuiesce, sweepVisit, apply_ite Collection.collector,
        apply_ite Collector.stats, ite_self]
  | reclaiming cursor =>
      simp only [reclaimVisit, apply_ite Collection.collector, apply_ite Collector.stats,
        ite_self]

namespace Books

variable {collection : Collection} {before after : Heap} {collector : Collector}
  {allocations : Nat}

/-- What goes unreported leaves the accounts as they are. -/
theorem silent (books : Books ⟨before, collector⟩ allocations) (same : Heap.Silent before after)
    (cyclesStarted : after.cyclesStarted = before.cyclesStarted) :
    Books ⟨after, collector⟩ allocations where
  balance := same.liveCount ▸ books.balance
  counts := same.reportedCounts ▸ books.counts
  last := by
    rw [same.reportedCounts, same.liveCount]
    exact books.last
  passes := same.reportedPasses.trans books.passes
  cycles := cyclesStarted.trans books.cycles
  settled := books.settled

/-- An allocation is one node more in use and one line more in the report. -/
theorem allocated (books : Books ⟨before, collector⟩ allocations)
    (entered : Heap.Entered before after) (counted : after.liveCount = before.liveCount + 1)
    (cyclesStarted : after.cyclesStarted = before.cyclesStarted) :
    Books ⟨after, collector⟩ (allocations + 1) where
  balance := by
    have balance := books.balance
    simp only [reclaimed] at balance ⊢
    omega
  counts := by
    have counts := books.counts
    simp only [reclaimed] at counts
    simp only [entered.reportedCounts, List.length_append, List.length_singleton, counts,
      reclaimed]
    omega
  last := by simp [entered.reportedCounts]
  passes := entered.reportedPasses.trans books.passes
  cycles := cyclesStarted.trans books.cycles
  settled := books.settled

theorem markRoots (books : collection.Books allocations) :
    collection.markRoots.Books allocations := by
  by_cases idle : collection.collector.position = .idle
  · obtain ⟨same, stats, current⟩ := silent_markRoots idle
    obtain ⟨balance, counts, last, passes, cycles, settled⟩ := books
    have active := collection.position_markRoots
    have kept : collection.markRoots.reclaimed = collection.reclaimed := by
      rw [reclaimed, reclaimed, stats, current, settled idle]
    rw [if_pos idle] at cycles
    refine ⟨?_, ?_, ?_, ?_, ?_, fun idle => absurd idle active⟩
    · rw [same.liveCount, kept, balance]
    · rw [same.reportedCounts, kept, counts]
    · rw [same.reportedCounts, same.liveCount]
      exact last
    · rw [same.reportedPasses, stats, passes]
    · rw [cyclesStarted_markRoots idle, if_neg active, cycles, stats]
  · rwa [markRoots_of_active idle]

theorem visit (books : collection.Books allocations) (consistent : collection.Consistent)
    (pending : collection.isSpent = false) :
    collection.visit.Books allocations := by
  by_cases idle : collection.collector.position = .idle
  · have same : collection.visit = collection := by simp only [Collection.visit, idle]
    rwa [same]
  · have active := consistent.active_visit idle pending
    have stats := collection.stats_visit
    obtain ⟨balance, counts, last, passes, cycles, settled⟩ := books
    have cyclesAfter : collection.visit.heap.cyclesStarted =
        collection.visit.collector.stats.cycles +
          if collection.visit.collector.position = .idle then 0 else 1 := by
      rw [collection.numbers_visit.1, cycles, stats, if_neg idle, if_neg active]
    cases collection.tallied_visit with
    | silent same reclaimed =>
        refine ⟨?_, ?_, ?_, ?_, cyclesAfter, fun idle => absurd idle active⟩
        · rw [same.liveCount, reclaimed, balance]
        · rw [same.reportedCounts, reclaimed, counts]
        · rw [same.reportedCounts, same.liveCount]
          exact last
        · rw [same.reportedPasses, stats, passes]
    | freed entered freeCount reclaimed =>
        obtain ⟨free, ordered⟩ := consistent.ordered
        obtain ⟨freeAfter, orderedAfter⟩ := (consistent.visit pending).consistent.ordered
        have put := ordered.liveCount_put orderedAfter entered.capacity freeCount
        refine ⟨?_, ?_, ?_, ?_, cyclesAfter, fun idle => absurd idle active⟩
        · rw [reclaimed]
          omega
        · rw [entered.reportedCounts, reclaimed, List.length_append, counts]
          rfl
        · simp [entered.reportedCounts]
        · rw [entered.reportedPasses, stats, passes]

theorem finish (books : collection.Books allocations)
    (spent : collection.isSpent = true) :
    collection.finish.2.Books allocations := by
  obtain ⟨cursor, position, _⟩ := (isSpent_iff collection).mp spent
  obtain ⟨balance, counts, last, passes, cycles, settled⟩ := books
  have active : collection.collector.position ≠ .idle := by simp [position]
  rw [if_neg active] at cycles
  have kept : collection.finish.2.heap.reportedCounts = collection.heap.reportedCounts := by
    change Event.liveCounts (collection.heap.events.push _).toList = _
    simp [Heap.reportedCounts, Event.liveCounts, Event.liveCount?]
  have passed : collection.finish.2.heap.reportedPasses = collection.heap.reportedPasses + 1 := by
    change Event.passes (collection.heap.events.push _).toList = _
    simp [Heap.reportedPasses, Event.passes, Event.isPass]
  have same : collection.finish.2.reclaimed = collection.reclaimed := Nat.add_zero _
  refine ⟨?_, ?_, ?_, ?_, cycles, fun _ => rfl⟩
  · rw [same]
    exact balance
  · rw [same, kept]
    exact counts
  · rw [kept]
    exact last
  · rw [passed, passes]
    rfl

end Books

end Collection

end Tricolor
