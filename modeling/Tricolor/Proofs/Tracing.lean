import Mathlib.Order.Interval.Finset.Nat
import Tricolor.Proofs.Quiescence
import Tricolor.Proofs.Retention

/-!
# Marking without interference

`Traced start heap` relates a heap within the marking phase to the heap at the
start of the cycle: the seeds are marked, and only what a cycle retains is.  When
nothing is grey any more, the black nodes are exactly the retained ones.

A grey node always lies within the clean round that the scan has yet to
complete, so the first test for rest succeeds.
-/

namespace Tricolor.Heap

/-- The black nodes of a heap; the sentinel does not count. -/
def blackNodes (heap : Heap) : Finset Ref :=
  (Finset.range heap.capacity).filter fun ref =>
    ref ≠ Ref.nil ∧ (heap.node ref).color = .black

theorem mem_blackNodes {heap : Heap} {ref : Ref} :
    ref ∈ heap.blackNodes ↔
      ref < heap.capacity ∧ ref ≠ Ref.nil ∧ (heap.node ref).color = .black := by
  simp [blackNodes]

theorem card_blackNodes_le (heap : Heap) : heap.blackNodes.card ≤ heap.capacity - 1 := by
  have within : heap.blackNodes ⊆ Finset.Ico 1 heap.capacity := by
    intro ref member
    obtain ⟨inside, proper, _⟩ := mem_blackNodes.mp member
    exact Finset.mem_Ico.mpr ⟨Nat.pos_of_ne_zero proper, inside⟩
  have bounded := Finset.card_le_card within
  rwa [Nat.card_Ico] at bounded

/-- A bound on the units of work left to the marking phase: each node may have to
be blackened yet, each time at the cost of a round. -/
def marksLeft (heap : Heap) (clean : Nat) : Nat :=
  (heap.capacity - heap.blackNodes.card) * (heap.capacity + 1) + clean + 1

/-- Every grey node is among the next `clean` nodes from the cursor on. -/
def Windowed (heap : Heap) (cursor clean : Nat) : Prop :=
  ∀ ref, (heap.node ref).color = .grey →
    ∃ offset, offset < clean ∧ ref = (cursor + offset) % heap.capacity

/-- A whole round meets every node. -/
theorem windowed_of_round
    {heap : Heap} {cursor : Nat} (inside : cursor < heap.capacity) :
    heap.Windowed cursor heap.capacity := by
  intro ref grey
  have refInside : ref < heap.capacity := lt_capacity_of_grey grey
  by_cases ahead : cursor ≤ ref
  · refine ⟨ref - cursor, Nat.lt_of_le_of_lt (Nat.sub_le ref cursor) refInside, ?_⟩
    rw [Nat.add_sub_cancel' ahead, Nat.mod_eq_of_lt refInside]
  · have behind : ref < cursor := Nat.lt_of_not_le ahead
    refine ⟨heap.capacity - (cursor - ref), by omega, ?_⟩
    have wrapped : cursor + (heap.capacity - (cursor - ref)) = ref + heap.capacity := by
      omega
    rw [wrapped, Nat.add_mod_right, Nat.mod_eq_of_lt refInside]

theorem Windowed.advance
    {heap : Heap} {cursor clean : Nat} (windowed : heap.Windowed cursor clean)
    (inside : cursor < heap.capacity) (unmarked : (heap.node cursor).color ≠ .grey) :
    heap.Windowed ((cursor + 1) % heap.capacity) (clean - 1) := by
  intro ref grey
  obtain ⟨offset, bounded, position⟩ := windowed ref grey
  cases offset with
  | zero =>
      rw [Nat.add_zero, Nat.mod_eq_of_lt inside] at position
      exact absurd (position ▸ grey) unmarked
  | succ offset =>
      refine ⟨offset, by omega, ?_⟩
      rw [Nat.mod_add_mod, position]
      congr 1
      omega

/-- After a clean round nothing is grey. -/
theorem Windowed.noGrey
    {heap : Heap} {cursor : Nat} (windowed : heap.Windowed cursor 0) :
    ∀ ref, (heap.node ref).color ≠ .grey := by
  intro ref grey
  obtain ⟨offset, bounded, _⟩ := windowed ref grey
  exact Nat.not_lt_zero offset bounded

/-- A heap within the marking phase, next to the heap the cycle started from. -/
structure Traced (start heap : Heap) : Prop where
  same : SameShape start heap
  rootsMarked : ∀ root ∈ Ref.roots, (heap.node root).color ≠ .white
  greyMarked : ∀ ref, (start.node ref).color = .grey → (heap.node ref).color ≠ .white
  retained : ∀ ref, ref ≠ Ref.nil → ref < heap.capacity →
    (heap.node ref).color ≠ .white → start.Retained ref

/-- A cycle starts from a heap at rest, where no node is black. -/
theorem Resting.not_black
    {heap : Heap} (resting : heap.Resting) {ref : Ref} (proper : ref ≠ Ref.nil)
    (inside : ref < heap.capacity) :
    (heap.node ref).color ≠ .black := by
  intro black
  exact Nat.not_le.mpr inside (resting.unmarked ref proper black)

theorem Resting.traced
    {start : Heap} {free : List Ref} (resting : start.Resting)
    (ordered : start.WellFormed free) :
    Traced start (start.shadeAll Ref.roots) := by
  have shading := shadeAll_shaded start Ref.roots
  refine
    { same := shading.toSameShape
      rootsMarked := fun root isRoot => shadeAll_not_white isRoot
      greyMarked := fun ref grey => (shading.color ref).not_white (by simp [grey])
      retained := fun ref proper inside marked => ?_ }
  rw [shading.capacity] at inside
  by_cases isRoot : ref ∈ Ref.roots
  · exact .of_root isRoot
  · rw [color_shadeAll, if_neg (fun seed => isRoot seed.1)] at marked
    cases found : (start.node ref).color with
    | white => exact absurd found marked
    | grey => exact ordered.retained_of_grey found
    | black => exact absurd found (resting.not_black proper inside)

theorem Resting.blackNodes_shadeAll {start : Heap} (resting : start.Resting) :
    (start.shadeAll Ref.roots).blackNodes = ∅ := by
  have shading := shadeAll_shaded start Ref.roots
  rw [Finset.eq_empty_iff_forall_notMem]
  intro ref member
  obtain ⟨inside, proper, black⟩ := mem_blackNodes.mp member
  rw [shading.capacity] at inside
  exact resting.not_black proper inside ((shading.color ref).black_iff.mp black)

namespace Traced

variable {start before after heap : Heap} {free : List Ref} {cursor : Ref}

theorem republished (traced : Traced start before) (same : Republished before after) :
    Traced start after where
  same := traced.same.trans same.sameShape
  rootsMarked root isRoot := by
    rw [same.node]
    exact traced.rootsMarked root isRoot
  greyMarked ref grey := by
    rw [same.node]
    exact traced.greyMarked ref grey
  retained ref proper inside marked := by
    rw [same.capacity] at inside
    rw [same.node] at marked
    exact traced.retained ref proper inside marked

theorem scan (traced : Traced start before) (ordered : before.WellFormed free)
    (scanned : Scanned before cursor after) :
    Traced start after where
  same := traced.same.trans scanned.toSameShape
  rootsMarked root isRoot := scanned.not_white (traced.rootsMarked root isRoot)
  greyMarked ref grey := scanned.not_white (traced.greyMarked ref grey)
  retained ref proper inside marked := by
    rw [scanned.capacity] at inside
    by_cases white : (before.node ref).color = .white
    · -- A node that the scan has marked is a child of the node at the cursor.
      obtain ⟨side, rfl⟩ := scanned.shadedChild ref white marked
      have cursorRetained := traced.retained cursor (ordered.ne_nil_of_grey scanned.grey)
        (lt_capacity_of_grey scanned.grey) (by simp [scanned.grey])
      rw [traced.same.child] at proper ⊢
      exact cursorRetained.child side proper
    · exact traced.retained ref proper inside white

/-- The scan blackens the node at the cursor and no other. -/
theorem blackNodes_scan (ordered : before.WellFormed free)
    (scanned : Scanned before cursor after) :
    after.blackNodes.card = before.blackNodes.card + 1 := by
  have cursorInside : cursor < before.capacity := lt_capacity_of_grey scanned.grey
  have cursorProper : cursor ≠ Ref.nil := ordered.ne_nil_of_grey scanned.grey
  have added : after.blackNodes = insert cursor before.blackNodes := by
    ext ref
    rw [Finset.mem_insert, mem_blackNodes, mem_blackNodes, scanned.capacity]
    by_cases hit : ref = cursor
    · simp [hit, cursorInside, cursorProper, scanned.black]
    · rw [(scanned.color ref hit).black_iff]
      simp [hit]
  have fresh : cursor ∉ before.blackNodes := by
    simp [mem_blackNodes, scanned.grey]
  rw [added, Finset.card_insert_of_notMem fresh]

/-- A scan pays for the round that starts over with the node it blackens. -/
theorem marksLeft_scan (ordered : before.WellFormed free)
    (scanned : Scanned before cursor after) (clean : Nat) :
    after.marksLeft before.capacity < before.marksLeft clean := by
  have counted := blackNodes_scan ordered scanned
  have bounded := (card_blackNodes_le after).trans (Nat.sub_le ..)
  unfold marksLeft
  rw [counted, scanned.capacity] at bounded ⊢
  generalize before.blackNodes.card = black at *
  generalize before.capacity = capacity at *
  obtain ⟨rest, rfl⟩ := Nat.exists_eq_add_of_le bounded
  have leftBefore : black + 1 + rest - black = rest + 1 := by omega
  have leftAfter : black + 1 + rest - (black + 1) = rest := by omega
  rw [leftBefore, leftAfter, Nat.succ_mul]
  omega

/-- Marking is complete once nothing is grey. -/
theorem black_of_retained (traced : Traced start heap) (tricolored : heap.Tricolored)
    (noGrey : ∀ ref, (heap.node ref).color ≠ .grey) {ref : Ref}
    (retained : start.Retained ref) :
    (heap.node ref).color = .black := by
  rcases retained.2 with ⟨root, isRoot, reaches⟩ | ⟨grey, isGrey, reaches⟩
  · exact tricolored.black_of_reaches noGrey (reaches.sameShape traced.same)
      (traced.rootsMarked root isRoot)
  · exact tricolored.black_of_reaches noGrey (reaches.sameShape traced.same)
      (traced.greyMarked grey isGrey)

theorem white_iff (traced : Traced start heap) (tricolored : heap.Tricolored)
    (noGrey : ∀ ref, (heap.node ref).color ≠ .grey) {ref : Ref}
    (proper : ref ≠ Ref.nil) (inside : ref < heap.capacity) :
    (heap.node ref).color = .white ↔ ¬ start.Retained ref := by
  constructor
  · intro white retained
    have black := traced.black_of_retained tricolored noGrey retained
    exact Color.noConfusion (white.symm.trans black)
  · intro lost
    exact Decidable.by_contra fun marked => lost (traced.retained ref proper inside marked)

theorem blackNodes_eq (traced : Traced start heap) (tricolored : heap.Tricolored)
    (noGrey : ∀ ref, (heap.node ref).color ≠ .grey) (ordered : start.WellFormed free) :
    heap.blackNodes = start.retained := by
  ext ref
  rw [mem_blackNodes, ordered.mem_retained_iff]
  constructor
  · rintro ⟨inside, proper, black⟩
    exact traced.retained ref proper inside (by simp [black])
  · intro retained
    refine ⟨?_, retained.1, traced.black_of_retained tricolored noGrey retained⟩
    rw [traced.same.capacity]
    exact ordered.lt_of_retained retained

end Traced

end Tricolor.Heap
