import Tricolor.Proofs.CycleProgress
import Tricolor.Proofs.Visits

/-!
# A cycle in progress can always be completed

Mutators may have left a cycle in any state, with grey nodes behind its cursor, so
that the test for rest at the end of the round fails.  It fails once at most when
nobody interferes any more, and the bound of a cycle leaves room for the detour.
-/

namespace Tricolor

namespace Collection

/-- Some grey node lies outside of what is left of the round. -/
def Overlooked (collection : Collection) : Prop :=
  ∃ cursor clean, collection.collector.position = .sweeping cursor clean ∧
    ¬ collection.heap.Windowed cursor clean

open Classical in
/-- A bound on the units of work left to a cycle that mutators have interfered with. -/
noncomputable def visitsLeft (collection : Collection) : Nat :=
  collection.potential + if collection.Overlooked then collection.heap.capacity + 1 else 0

section VisitsLeft

variable {collection : Collection} {cursor clean : Nat}

theorem visitsLeft_le (collection : Collection) :
    collection.visitsLeft ≤ collection.potential + (collection.heap.capacity + 1) := by
  unfold visitsLeft
  split
  · exact Nat.le_refl _
  · exact Nat.add_le_add_left (Nat.zero_le _) _

theorem visitsLeft_of_windowed
    (position : collection.collector.position = .sweeping cursor clean)
    (windowed : collection.heap.Windowed cursor clean) :
    collection.visitsLeft = collection.heap.marksLeft clean + collection.heap.capacity := by
  have noticed : ¬ collection.Overlooked := by
    rintro ⟨otherCursor, otherClean, same, overlooked⟩
    cases position.symm.trans same
    exact overlooked windowed
  rw [visitsLeft, if_neg noticed, potential_of_sweeping collection position, Nat.add_zero]

theorem visitsLeft_of_overlooked
    (position : collection.collector.position = .sweeping cursor clean)
    (overlooked : ¬ collection.heap.Windowed cursor clean) :
    collection.visitsLeft =
      collection.heap.marksLeft clean + collection.heap.capacity +
        (collection.heap.capacity + 1) := by
  rw [visitsLeft, if_pos ⟨cursor, clean, position, overlooked⟩,
    potential_of_sweeping collection position]

theorem visitsLeft_of_reclaiming
    (position : collection.collector.position = .reclaiming cursor) :
    collection.visitsLeft = collection.heap.capacity - cursor := by
  have noticed : ¬ collection.Overlooked := by
    rintro ⟨_, _, same, _⟩
    cases position.symm.trans same
  rw [visitsLeft, if_neg noticed, potential_of_reclaiming collection position, Nat.add_zero]

end VisitsLeft

/-- Visits of a cycle in progress do not break the property. -/
def VisitStable (property : Collection → Prop) : Prop :=
  ∀ {collection : Collection}, collection.Consistent →
    collection.collector.position ≠ .idle → collection.isSpent = false →
    property collection → property collection.visit

namespace Consistent

variable {collection : Collection} {property : Collection → Prop}

theorem visitsLeft_lt (consistent : collection.Consistent) :
    collection.visitsLeft < collection.cycleBound :=
  Nat.lt_of_le_of_lt collection.visitsLeft_le consistent.potential_add_lt

/-- A cycle stays in progress as long as it is not spent. -/
theorem active_visit (consistent : collection.Consistent)
    (active : collection.collector.position ≠ .idle) (pending : collection.isSpent = false) :
    collection.visit.collector.position ≠ .idle := by
  cases consistent.visited active pending <;> simp [*]

/-- Every visit brings the cycle closer to its end.  A scan pays for the round that
starts over with the node it blackens, and the test that fails with the detour. -/
theorem visitsLeft_visit (consistent : collection.Consistent)
    (active : collection.collector.position ≠ .idle) (pending : collection.isSpent = false) :
    collection.visit.visitsLeft < collection.visitsLeft := by
  obtain ⟨free, ordered⟩ := consistent.ordered
  have consistentAfter := (consistent.visit pending).consistent
  cases consistent.visited active pending with
  | @scanned cursor clean position pendingRound scanned next =>
      have inside := (consistentAfter.sweeping next).2.1
      have round : collection.visit.heap.Windowed ((cursor + 1) % collection.heap.capacity)
          collection.heap.capacity := by
        have whole := Heap.windowed_of_round inside
        rwa [scanned.capacity] at whole
      have paid := Heap.Traced.marksLeft_scan ordered scanned clean
      have least : collection.heap.marksLeft clean + collection.heap.capacity ≤
          collection.visitsLeft := by
        rw [visitsLeft, potential_of_sweeping collection position]
        exact Nat.le_add_right _ _
      rw [visitsLeft_of_windowed next round, scanned.capacity]
      omega
  | @passed cursor clean position pendingRound unmarked same next =>
      have inside := (consistent.sweeping position).2.1
      have shorter : collection.heap.marksLeft (clean - 1) < collection.heap.marksLeft clean := by
        unfold Heap.marksLeft
        omega
      by_cases windowed : collection.heap.Windowed cursor clean
      · have windowedAfter := windowed.advance inside unmarked
        rw [visitsLeft_of_windowed position windowed,
          visitsLeft_of_windowed next (same ▸ windowedAfter), same]
        omega
      · have detour := collection.visit.visitsLeft_le
        rw [potential_of_sweeping _ next, same] at detour
        rw [visitsLeft_of_overlooked position windowed]
        omega
  | @resumed cursor position grey same next =>
      obtain ⟨ref, grey⟩ := grey
      have inside := (consistent.sweeping position).2.1
      have overlooked : ¬ collection.heap.Windowed cursor 0 :=
        fun windowed => windowed.noGrey ref grey
      have round := Heap.windowed_of_round inside
      rw [visitsLeft_of_overlooked position overlooked,
        visitsLeft_of_windowed next (same ▸ round), same]
      unfold Heap.marksLeft
      omega
  | @settled cursor position settled same phase next =>
      have windowed : collection.heap.Windowed cursor 0 :=
        fun ref grey => absurd grey (settled ref)
      rw [visitsLeft_of_windowed position windowed, visitsLeft_of_reclaiming next,
        same.capacity]
      unfold Heap.marksLeft
      omega
  | freed position inside garbage pushed next =>
      have capacity : collection.visit.heap.capacity = collection.heap.capacity :=
        pushed.capacity
      rw [visitsLeft_of_reclaiming position, visitsLeft_of_reclaiming next, capacity]
      omega
  | spared position inside spared whitened next =>
      have capacity : collection.visit.heap.capacity = collection.heap.capacity :=
        whitened ▸ (Heap.whiten_moveFrontier_sameShape ..).capacity
      rw [visitsLeft_of_reclaiming position, visitsLeft_of_reclaiming next, capacity]
      omega

/-- With more budget than there are visits left the cycle completes, and what its
visits do not break holds at its end. -/
theorem step_completes (consistent : collection.Consistent)
    (active : collection.collector.position ≠ .idle) (stable : VisitStable property)
    (holds : property collection) {budget : Nat} (enough : collection.visitsLeft < budget) :
    ∃ spent : Collection, spent.Consistent ∧ spent.isSpent = true ∧ property spent ∧
      collection.step budget = (some spent.finish.1, spent.finish.2) := by
  induction budget generalizing collection with
  | zero => exact absurd enough (Nat.not_lt_zero _)
  | succ budget induction =>
      rw [step, markRoots_of_active active]
      cases spent : collection.isSpent with
      | true => exact ⟨collection, consistent, spent, holds, rfl⟩
      | false =>
          have closer := consistent.visitsLeft_visit active spent
          exact induction (consistent.visit spent).consistent
            (consistent.active_visit active spent)
            (stable consistent active spent holds) (by omega)

theorem sweepFor_active (consistent : collection.Consistent)
    (active : collection.collector.position ≠ .idle) (stable : VisitStable property)
    (holds : property collection) (limit : Nat) :
    (collection.sweepFor limit).Consistent ∧
      (collection.sweepFor limit).collector.position ≠ .idle ∧
      property (collection.sweepFor limit) := by
  induction limit generalizing collection with
  | zero => exact ⟨consistent, active, holds⟩
  | succ limit induction =>
      unfold sweepFor
      split
      · rename_i cursor clean position
        have pending := isSpent_of_sweeping position
        exact induction (consistent.visit pending).consistent
          (consistent.active_visit active pending) (stable consistent active pending holds)
      · exact ⟨consistent, active, holds⟩

/-- Left alone, a cycle in progress completes whatever has happened to it. -/
theorem runCycle_completes (consistent : collection.Consistent)
    (active : collection.collector.position ≠ .idle) (stable : VisitStable property)
    (holds : property collection) :
    ∃ spent : Collection, spent.Consistent ∧ spent.isSpent = true ∧ property spent ∧
      collection.runCycle = (some spent.finish.1, spent.finish.2) := by
  obtain ⟨sweptConsistent, sweptActive, sweptHolds⟩ :
      collection.sweep.Consistent ∧ collection.sweep.collector.position ≠ .idle ∧
        property collection.sweep := by
    rw [sweep, markRoots_of_active active]
    exact consistent.sweepFor_active active stable holds _
  exact sweptConsistent.step_completes sweptActive stable sweptHolds
    sweptConsistent.visitsLeft_lt

/-- Left alone, a cycle in progress ends at rest and with a report. -/
theorem runCycle_ends (consistent : collection.Consistent)
    (active : collection.collector.position ≠ .idle) :
    ∃ report, collection.runCycle.1 = some report ∧
      collection.runCycle.2.heap.phase = .idle := by
  have anything : VisitStable fun _ => True := fun _ _ _ _ => trivial
  obtain ⟨spent, _, _, _, ran⟩ := consistent.runCycle_completes active anything trivial
  rw [ran]
  exact ⟨spent.finish.1, rfl, rfl⟩

theorem phase_visit (consistent : collection.Consistent)
    (pass : collection.heap.phase = .reclaiming) (pending : collection.isSpent = false) :
    collection.visit.heap.phase = .reclaiming := by
  have active : collection.collector.position ≠ .idle :=
    mt consistent.phase_eq_idle_iff.mp (by simp [pass])
  cases consistent.visited active pending with
  | scanned position pendingRound scanned next => exact scanned.phase.trans pass
  | passed position pendingRound unmarked same next => exact same ▸ pass
  | resumed position grey same next => exact same ▸ pass
  | settled position settled same phase next => exact phase
  | freed position inside garbage pushed next => exact pushed.phase.trans pass
  | spared position inside spared whitened next =>
      rw [whitened, Heap.phase_whiten_moveFrontier, pass]

/-- Once the reclaim pass has begun, what it does not break is true at the end of the
cycle. -/
theorem runCycle_of_reclaiming (consistent : collection.Consistent)
    (pass : collection.heap.phase = .reclaiming) (property : Heap → Prop)
    (stable : ∀ {before after : Heap} {free : List Ref}, before.WellFormed free →
      Heap.Worked before after → before.phase = .reclaiming → property before → property after)
    (holds : property collection.heap) :
    property collection.runCycle.2.heap := by
  have active : collection.collector.position ≠ .idle :=
    mt consistent.phase_eq_idle_iff.mp (by simp [pass])
  have visits : VisitStable fun collection =>
      collection.heap.phase = .reclaiming ∧ property collection.heap := by
    intro before consistent _ pending held
    obtain ⟨free, ordered⟩ := consistent.ordered
    exact ⟨consistent.phase_visit held.1 pending,
      stable ordered (consistent.visit pending).worked held.1 held.2⟩
  obtain ⟨spent, consistentSpent, isSpent, held, ran⟩ :=
    consistent.runCycle_completes active visits ⟨pass, holds⟩
  obtain ⟨free, ordered⟩ := consistentSpent.ordered
  rw [ran]
  exact stable ordered (consistentSpent.finish isSpent).worked held.1 held.2

end Consistent

end Collection

end Tricolor
