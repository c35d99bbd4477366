import Tricolor.Proofs.LateMarks

/-!
# The numbers of cycles

A heap counts the cycles that have been started, and the collector numbers the one in
progress by that count.  So a cycle that completes bears the number of the last one that was
started, whichever collector has begun it.
-/

namespace Tricolor

/-- A cycle that is given up has been started all the same. -/
theorem Heap.cyclesStarted_abandonCycle (heap : Heap) :
    heap.abandonCycle.cyclesStarted = heap.cyclesStarted := by
  unfold Heap.abandonCycle
  split
  · exact (Heap.whitenAll_recolored heap).cyclesStarted
  · rfl

namespace Collection

/-- The cycle in progress is the last one that was started. -/
def Numbered (collection : Collection) : Prop :=
  collection.collector.position ≠ .idle →
    0 < collection.heap.cyclesStarted ∧
      collection.collector.current.cycle = collection.heap.cyclesStarted

/-- No cycle is in progress. -/
structure AtRest (collection : Collection) : Prop where
  consistent : collection.Consistent
  phase : collection.heap.phase = .idle

theorem AtRest.position {collection : Collection} (rest : collection.AtRest) :
    collection.collector.position = .idle :=
  rest.consistent.phase_eq_idle_iff.mpr rest.phase

theorem AtRest.numbered {collection : Collection} (rest : collection.AtRest) :
    collection.Numbered :=
  fun active => absurd rest.position active

theorem Numbered.markRoots {collection : Collection} (numbered : collection.Numbered) :
    collection.markRoots.Numbered := by
  by_cases idle : collection.collector.position = .idle
  · obtain ⟨heap, collector⟩ := collection
    rw [markRoots_of_idle idle]
    exact fun _ => ⟨Nat.succ_pos _, rfl⟩
  · rwa [markRoots_of_active idle]

theorem numbered_workStable :
    WorkStable fun collection => collection.Consistent ∧ collection.Numbered where
  markRoots held := ⟨held.1.markRoots.consistent, held.2.markRoots⟩
  visit := by
    intro collection held pending
    refine ⟨(held.1.visit pending).consistent, fun active => ?_⟩
    have activeBefore : collection.collector.position ≠ .idle := by
      intro idle
      have same : collection.visit = collection := by simp only [Collection.visit, idle]
      rw [same] at active
      exact active idle
    rw [collection.numbers_visit.1, collection.numbers_visit.2]
    exact held.2 activeBefore
  finish held spent := ⟨(held.1.finish spent).consistent, fun active => absurd rfl active⟩

/-- Nothing but the start of a cycle moves the count of cycles, and it only goes up. -/
theorem started_workStable (bound : Nat) :
    WorkStable fun collection =>
      collection.Consistent ∧ bound ≤ collection.heap.cyclesStarted where
  markRoots := by
    intro collection held
    refine ⟨held.1.markRoots.consistent, ?_⟩
    by_cases idle : collection.collector.position = .idle
    · rw [cyclesStarted_markRoots idle]
      exact held.2.trans (Nat.le_succ _)
    · rw [markRoots_of_active idle]
      exact held.2
  visit := by
    intro collection held pending
    rw [collection.numbers_visit.1]
    exact ⟨(held.1.visit pending).consistent, held.2⟩
  finish held spent := ⟨(held.1.finish spent).consistent, held.2⟩

theorem runCycle_markRoots (collection : Collection) :
    collection.markRoots.runCycle = collection.runCycle := by
  unfold runCycle reclaim sweep
  rw [markRoots_markRoots]

/-- The cycle that completes is the last one that was started, whether it was in progress
before or not. -/
theorem Consistent.runCycle_numbered {collection : Collection}
    (consistent : collection.Consistent) (numbered : collection.Numbered) :
    ∃ report after, collection.runCycle = (some report, after) ∧ after.AtRest ∧
      report.cycle = after.heap.cyclesStarted ∧
      after.heap.cyclesStarted = collection.markRoots.heap.cyclesStarted := by
  have active := collection.position_markRoots
  have visits : VisitStable fun visited =>
      visited.heap.cyclesStarted = collection.markRoots.heap.cyclesStarted ∧
        visited.collector.current.cycle = collection.markRoots.heap.cyclesStarted := by
    intro visited _ _ _ held
    rwa [visited.numbers_visit.1, visited.numbers_visit.2]
  obtain ⟨spent, consistentSpent, isSpent, held, ran⟩ :=
    consistent.markRoots.consistent.runCycle_completes active visits
      ⟨rfl, (numbered.markRoots active).2⟩
  rw [runCycle_markRoots] at ran
  exact ⟨_, _, ran, ⟨(consistentSpent.finish isSpent).consistent, rfl⟩,
    held.2.trans held.1.symm, held.1⟩

end Collection

namespace Session

theorem numbered_preserved :
    Preserves (fun _ _ => True) fun collection =>
      collection.Consistent ∧ collection.Numbered where
  toWorkStable := Collection.numbered_workStable
  mutation := by
    intro heap collector request change performs _ held
    obtain ⟨free, ordered⟩ := held.1.ordered
    have kept := ((ordered.performed performs).kept ordered).1
    refine ⟨held.1.mutation performs, fun active => ?_⟩
    rw [kept.cyclesStarted]
    exact held.2 active
  retry _ _ := trivial
  attach := by
    intro heap held
    rw [held.1.attach_eq]
    exact held
  detach _ held := ⟨held.1.detach.2, fun active => absurd rfl active⟩

theorem started_preserved (bound : Nat) :
    Preserves (fun _ _ => True) fun collection =>
      collection.Consistent ∧ bound ≤ collection.heap.cyclesStarted where
  toWorkStable := Collection.started_workStable bound
  mutation := by
    intro heap collector request change performs _ held
    obtain ⟨free, ordered⟩ := held.1.ordered
    have kept := ((ordered.performed performs).kept ordered).1
    refine ⟨held.1.mutation performs, ?_⟩
    rw [kept.cyclesStarted]
    exact held.2
  retry _ _ := trivial
  attach := by
    intro heap held
    rw [held.1.attach_eq]
    exact held
  detach := by
    intro collection _ held
    refine ⟨held.1.detach.2, ?_⟩
    unfold Collection.detach
    split
    · exact held.2
    · exact held.2.trans_eq collection.heap.cyclesStarted_abandonCycle.symm

theorem run_numbered {capacity : Nat} {initial : Heap}
    (built : Heap.ofCapacity capacity = .ok initial) (requests : List Request) :
    ((ofHeap initial).run requests).collection.Numbered := by
  have start : (ofHeap initial).collection.Numbered := fun active => absurd rfl active
  exact (numbered_preserved.run (obeys_anything _ requests) ⟨consistent_ofHeap built, start⟩).2

end Session

end Tricolor
