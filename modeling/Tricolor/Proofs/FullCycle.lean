import Tricolor.Proofs.CycleProgress

/-!
# The effect of a whole cycle

`Cycled before after report` tells everything that one undisturbed cycle does to
a heap at rest, and what its report says.  A second cycle right after the first
finds nothing to release, provided that no node was grey to begin with.
-/

namespace Tricolor

/-- One undisturbed cycle leads from one heap at rest to the other. -/
structure Heap.Cycled (before after : Heap) (report : CycleReport) : Prop where
  capacity : after.capacity = before.capacity
  live : ∀ ref, ref ≠ Ref.nil → ref < before.capacity →
    ((after.node ref).live = true ↔ (before.node ref).live = true ∧ before.Retained ref)
  freeList : after.freeList = before.discarded ++ before.freeList
  child : ∀ ref side, before.Retained ref → ¬ (ref = Ref.freeRoot ∧ side = .right) →
    (after.node ref).child side = (before.node ref).child side
  white : ∀ ref, ref ≠ Ref.nil → ref < before.capacity → (after.node ref).color = .white
  greyCount : after.greyCount = 0
  phase : after.phase = .idle
  cyclesStarted : after.cyclesStarted = before.cyclesStarted + 1
  cycle : report.cycle = after.cyclesStarted
  blackened : report.blackened = before.retained.card
  reclaimed : report.reclaimed = before.discarded.length

namespace Collection

namespace Undisturbed

variable {start : Heap} {free : List Ref} {collection : Collection}

theorem finish (undisturbed : collection.Undisturbed start free)
    (ordered : start.WellFormed free) (spent : collection.isSpent = true) :
    start.Cycled collection.finish.2.heap collection.finish.1 := by
  obtain ⟨cursor, position, passed⟩ := (isSpent_iff collection).mp spent
  obtain ⟨consistent, cyclesStarted, cycle, stage⟩ := undisturbed
  have reclaiming := consistent.reclaiming position
  rw [position] at stage
  cases stage with
  | sweeping sweptBefore blackened reclaimed =>
      have last : cursor = start.capacity := by
        rw [← sweptBefore.capacity]
        exact Nat.le_antisymm reclaiming.bounded passed
      subst last
      have swept : Heap.Swept start free collection.finish.2.heap start.capacity :=
        sweptBefore.republished ⟨rfl, rfl, rfl⟩
      exact
        { capacity := swept.capacity
          live := fun ref proper inside => swept.live_iff ordered proper inside
          freeList := by
            rw [swept.ordered.freeList_eq, ordered.freeList_eq, Heap.discarded]
          child := swept.child
          white := swept.behind
          greyCount := swept.greyCount_eq_zero
          phase := rfl
          cyclesStarted := cyclesStarted
          cycle := cycle.trans cyclesStarted.symm
          blackened := blackened
          reclaimed := reclaimed }

/-- With more budget than the potential the cycle completes. -/
theorem step_reports (undisturbed : collection.Undisturbed start free)
    (ordered : start.WellFormed free) {budget : Nat}
    (enough : collection.potential < budget) :
    ∃ report after, collection.step budget = (some report, after) ∧
      start.Cycled after.heap report := by
  induction budget generalizing collection with
  | zero => exact absurd enough (Nat.not_lt_zero _)
  | succ budget induction =>
      rw [step, markRoots_of_active undisturbed.not_idle]
      cases spent : collection.isSpent with
      | true => exact ⟨_, _, rfl, undisturbed.finish ordered spent⟩
      | false =>
          obtain ⟨advanced, closer⟩ := undisturbed.visit ordered spent
          exact induction advanced (by omega)

theorem sweepFor (undisturbed : collection.Undisturbed start free)
    (ordered : start.WellFormed free) (limit : Nat) :
    (collection.sweepFor limit).Undisturbed start free := by
  induction limit generalizing collection with
  | zero => exact undisturbed
  | succ limit induction =>
      unfold Collection.sweepFor
      split
      · rename_i cursor clean position
        have pending := isSpent_of_sweeping position
        exact induction (undisturbed.visit ordered pending).1
      · exact undisturbed

end Undisturbed

/-- A cycle that starts at rest completes within its bound. -/
theorem runCycle_reports
    {heap : Heap} {collector : Collector} {free : List Ref}
    (consistent : Consistent ⟨heap, collector⟩) (ordered : heap.WellFormed free)
    (idle : collector.position = .idle) :
    ∃ report after, runCycle ⟨heap, collector⟩ = (some report, after) ∧
      heap.Cycled after.heap report := by
  have started := Undisturbed.markRoots consistent idle ordered
  have swept : (sweep ⟨heap, collector⟩).Undisturbed heap free :=
    started.sweepFor ordered (markRoots ⟨heap, collector⟩).cycleBound
  exact swept.step_reports ordered swept.potential_lt

end Collection

namespace Heap.Cycled

variable {before after last : Heap} {report again : CycleReport} {free freeAfter : List Ref}

/-- The slots on the way to a retained node are spared, and where the head of
the free list was led past, the chain still leads to what it led to. -/
theorem retained (cycled : before.Cycled after report) (ordered : before.WellFormed free)
    (orderedAfter : after.WellFormed freeAfter)
    (noGrey : ∀ ref, (before.node ref).color ≠ .grey) {ref : Ref}
    (retained : before.Retained ref) :
    after.Retained ref := by
  have reached : before.ReachableFrom Ref.roots ref := by
    rcases retained.2 with reachable | ⟨grey, isGrey, _⟩
    · exact reachable
    · exact absurd isGrey (noGrey grey)
  have listed : ∀ member ∈ free, after.ReachableFrom Ref.roots member := by
    intro member inFree
    apply orderedAfter.reachable_of_free
    rw [← orderedAfter.freeList_eq, cycled.freeList, ordered.freeList_eq]
    exact List.mem_append_right _ inFree
  -- Slots are only known to be spared where the old heap leads, hence the first half.
  have both : before.ReachableFrom Ref.roots ref ∧
      (ref = Ref.nil ∨ after.ReachableFrom Ref.roots ref) := by
    refine reached.closed (fun ref => before.ReachableFrom Ref.roots ref ∧
      (ref = Ref.nil ∨ after.ReachableFrom Ref.roots ref))
      (fun parent side here => ⟨here.1.child side, ?_⟩) fun root isRoot =>
        ⟨.root isRoot, .inr (.root isRoot)⟩
    by_cases sentinel : parent = Ref.nil
    · rw [sentinel]
      exact .inl (ordered.sentinelChild side)
    · by_cases head : parent = Ref.freeRoot ∧ side = .right
      · obtain ⟨rfl, rfl⟩ := head
        by_cases exhausted : before.firstFree = Ref.nil
        · exact .inl exhausted
        · obtain ⟨rest, first⟩ := ordered.exists_cons exhausted
          exact .inr (listed before.firstFree (by simp [first]))
      · right
        rw [← cycled.child parent side ⟨sentinel, .inl here.1⟩ head]
        exact (here.2.resolve_left sentinel).child side
  exact ⟨retained.1, .inl (both.2.resolve_left retained.1)⟩

/-- After a cycle without leftover grey nodes every node is retained: it is
either live, and was retained before, or on the free list. -/
theorem all_retained (cycled : before.Cycled after report) (ordered : before.WellFormed free)
    (orderedAfter : after.WellFormed freeAfter)
    (noGrey : ∀ ref, (before.node ref).color ≠ .grey) {ref : Ref}
    (proper : ref ≠ Ref.nil) (inside : ref < before.capacity) :
    after.Retained ref := by
  cases used : (after.node ref).live with
  | false => exact orderedAfter.retained_of_free ((orderedAfter.mem_iff ref).mpr used)
  | true =>
      have kept := ((cycled.live ref proper inside).mp used).2
      exact cycled.retained ordered orderedAfter noGrey kept

/-- A second cycle finds nothing to release. -/
theorem second (first : before.Cycled after report) (second : after.Cycled last again)
    (ordered : before.WellFormed free) (orderedAfter : after.WellFormed freeAfter)
    (orderedLast : ∃ free, last.WellFormed free)
    (noGrey : ∀ ref, (before.node ref).color ≠ .grey) :
    again.reclaimed = 0 ∧ (∀ ref, last.node ref = after.node ref) ∧
      last.freeList = after.freeList := by
  obtain ⟨freeLast, orderedLast⟩ := orderedLast
  have allRetained : ∀ ref, ref ≠ Ref.nil → ref < after.capacity → after.Retained ref := by
    intro ref proper inside
    rw [first.capacity] at inside
    exact first.all_retained ordered orderedAfter noGrey proper inside
  have nothing : after.discarded = [] := by
    rw [List.eq_nil_iff_forall_not_mem]
    intro ref member
    obtain ⟨inside, proper, _, lost⟩ := orderedAfter.mem_discarded_iff.mp member
    exact lost (allRetained ref proper inside)
  have sameList : last.freeList = after.freeList := by
    rw [second.freeList, nothing, List.nil_append]
  have sameHead : last.firstFree = after.firstFree := by
    rw [orderedLast.firstFree_eq_headD, orderedAfter.firstFree_eq_headD,
      ← orderedLast.freeList_eq, ← orderedAfter.freeList_eq, sameList]
  refine ⟨by rw [second.reclaimed, nothing, List.length_nil], fun ref => ?_, sameList⟩
  by_cases sentinel : ref = Ref.nil
  · rw [sentinel, orderedLast.sentinel, orderedAfter.sentinel]
  · by_cases inside : ref < after.capacity
    · have insideBefore : ref < before.capacity := first.capacity ▸ inside
      have retained := allRetained ref sentinel inside
      apply Node.ext_child
      · intro side
        by_cases head : ref = Ref.freeRoot ∧ side = .right
        · obtain ⟨rfl, rfl⟩ := head
          exact sameHead
        · exact second.child ref side retained head
      · rw [second.white ref sentinel inside, first.white ref sentinel insideBefore]
      · rw [Bool.eq_iff_iff, second.live ref sentinel inside]
        exact and_iff_left retained
    · have beyond : after.capacity ≤ ref := Nat.le_of_not_lt inside
      rw [node_of_capacity_le beyond, node_of_capacity_le (second.capacity ▸ beyond)]

end Heap.Cycled

namespace Session

/-- A stepping collector at rest completes its cycle when it is asked to. -/
theorem apply_runCycle
    {session : Session} {collector : Collector} {free : List Ref}
    (consistent : session.collection.Consistent) (ordered : session.heap.WellFormed free)
    (attached : session.driver = .stepping collector) (idle : session.heap.phase = .idle) :
    ∃ report after, session.apply .runCycle = (.report (some report), after) ∧
      session.heap.Cycled after.heap report ∧ after.collection.Consistent ∧
      ∃ collector, after.driver = .stepping collector := by
  obtain ⟨heap, driver, handles⟩ := session
  cases attached
  have position : collector.position = .idle := consistent.phase_eq_idle_iff.mpr idle
  obtain ⟨report, ⟨after, collectorAfter⟩, ran, cycled⟩ :
      ∃ report after, Collection.runCycle ⟨heap, collector⟩ = (some report, after) ∧
        heap.Cycled after.heap report :=
    Collection.runCycle_reports consistent ordered position
  have consistentAfter : Collection.Consistent ⟨after, collectorAfter⟩ := by
    have worked : (Collection.runCycle ⟨heap, collector⟩).2.Consistent :=
      Collection.consistent_workStable.reclaim consistent
    rwa [ran] at worked
  refine ⟨report, ⟨after, .stepping collectorAfter, handles⟩, ?_, cycled,
    consistentAfter, collectorAfter, rfl⟩
  simp only [apply, drive, ran]

/-- One cycle that nobody interferes with, whatever happened before: it completes,
and this is its whole effect.  If no node was grey, a second cycle right after it
changes nothing. -/
theorem run_fullCycle
    {capacity : Nat} {initial : Heap} {requests : List Request} {collector : Collector}
    (built : Heap.ofCapacity capacity = .ok initial)
    (attached : ((ofHeap initial).run requests).driver = .stepping collector)
    (idle : ((ofHeap initial).run requests).heap.phase = .idle) :
    let session := (ofHeap initial).run requests
    ∃ report after, session.apply .runCycle = (.report (some report), after) ∧
      session.heap.Cycled after.heap report ∧
      ((∀ ref, (session.heap.node ref).color ≠ .grey) →
        ∃ again last, after.apply .runCycle = (.report (some again), last) ∧
          again.reclaimed = 0 ∧ (∀ ref, last.heap.node ref = after.heap.node ref) ∧
          last.heap.freeList = after.heap.freeList) := by
  intro session
  have consistent : session.collection.Consistent := run_consistent built requests
  obtain ⟨free, ordered⟩ := consistent.ordered
  obtain ⟨report, after, answered, cycled, consistentAfter, _, attachedAfter⟩ :=
    apply_runCycle consistent ordered attached idle
  refine ⟨report, after, answered, cycled, fun noGrey => ?_⟩
  obtain ⟨freeAfter, orderedAfter⟩ := consistentAfter.ordered
  obtain ⟨again, last, answeredAgain, cycledAgain, consistentLast, _⟩ :=
    apply_runCycle consistentAfter orderedAfter attachedAfter cycled.phase
  exact ⟨again, last, answeredAgain,
    cycled.second cycledAgain ordered orderedAfter consistentLast.ordered noGrey⟩

/-- Node 4 has been shaded while garbage, so that the cycle retains it, and with
it node 5, which only node 4 leads to. -/
theorem run_fullCycle_shaded_garbage :
    let requests : List Request :=
      [.allocateChild 1 .left, .allocateChild 4 .left, .allocateChild 2 .right,
        .setChild 1 .left 0, .setChild 2 .right 0, .shade 4, .attach]
    let session := (ofHeap (Heap.fresh 8)).run requests
    session.driver = .stepping {} ∧ session.heap.phase = .idle ∧
      ∃ report after, session.apply .runCycle = (.report (some report), after) ∧
        session.heap.Cycled after.heap report := by
  intro requests session
  have built : Heap.ofCapacity 8 = .ok (Heap.fresh 8) := rfl
  have attached : session.driver = .stepping {} := by decide
  have idle : session.heap.phase = .idle := by decide
  obtain ⟨report, after, answered, cycled, _⟩ := run_fullCycle built attached idle
  exact ⟨attached, idle, report, after, answered, cycled⟩

end Session

end Tricolor
