import Tricolor.Proofs.Tracing
import Tricolor.Proofs.Usability

/-!
# Reclaiming without interference

`Swept start heap cursor` relates a heap within the reclaim pass to the heap at
the start of the cycle.  Below the cursor everything is white again and what the
cycle discards is on the free list, the latest first; from the cursor on exactly
the discarded nodes are white.
-/

namespace Tricolor.Heap

/-- A heap within the reclaim pass, next to the heap the cycle started from and
its free list. -/
structure Swept (start : Heap) (free : List Ref) (heap : Heap) (cursor : Nat) : Prop where
  ordered : heap.WellFormed (start.discardedBelow cursor ++ free)
  capacity : heap.capacity = start.capacity
  child : ∀ ref side, start.Retained ref → ¬ (ref = Ref.freeRoot ∧ side = .right) →
    (heap.node ref).child side = (start.node ref).child side
  live : ∀ ref, (heap.node ref).live = true ↔
    (start.node ref).live = true ∧ ref ∉ start.discardedBelow cursor
  ahead : ∀ ref, ref ≠ Ref.nil → cursor ≤ ref → ref < heap.capacity →
    ((heap.node ref).color = .white ↔ ¬ start.Retained ref)
  behind : ∀ ref, ref ≠ Ref.nil → ref < cursor → (heap.node ref).color = .white

/-- Marking has come to rest, and nothing has been released yet. -/
theorem Traced.swept
    {start before after : Heap} {free : List Ref} (traced : Traced start before)
    (marking : before.Marking) (ordered : before.WellFormed free)
    (noGrey : ∀ ref, (before.node ref).color ≠ .grey) (same : Republished before after) :
    Swept start free after 1 where
  ordered := by
    rw [discardedBelow_one, List.nil_append]
    exact ordered.republished same
  capacity := same.capacity.trans traced.same.capacity
  child ref side _ _ := by rw [same.node, traced.same.child]
  live ref := by
    rw [same.node, traced.same.live, discardedBelow_one]
    simp
  ahead ref proper _ inside := by
    rw [same.node]
    exact traced.white_iff marking.tricolored noGrey proper (same.capacity ▸ inside)
  behind ref proper passed := absurd (Nat.lt_one_iff.mp passed) proper

namespace Swept

variable {start before after heap : Heap} {free : List Ref} {cursor : Nat}

/-- What the pass takes for garbage is what the cycle discards. -/
theorem garbage_iff (swept : Swept start free heap cursor)
    (ordered : start.WellFormed free) (proper : cursor ≠ Ref.nil)
    (inside : cursor < heap.capacity) :
    heap.Garbage cursor ↔ (start.node cursor).live = true ∧ ¬ start.Retained cursor := by
  have unvisited : cursor ∉ start.discardedBelow cursor := by
    rw [ordered.mem_discardedBelow_iff]
    exact fun listed => Nat.lt_irrefl cursor listed.1
  rw [Garbage, swept.ahead cursor proper (Nat.le_refl cursor) inside, swept.live]
  constructor
  · rintro ⟨lost, ⟨live, -⟩, -⟩
    exact ⟨live, lost⟩
  · rintro ⟨live, lost⟩
    refine ⟨lost, ⟨live, unvisited⟩, fun isRoot => lost ?_⟩
    exact .of_root (Ref.mem_roots_iff.mpr isRoot)

theorem discardedBelow_of_garbage (swept : Swept start free heap cursor)
    (ordered : start.WellFormed free) (proper : cursor ≠ Ref.nil)
    (inside : cursor < heap.capacity) (garbage : heap.Garbage cursor) :
    start.discardedBelow (cursor + 1) = cursor :: start.discardedBelow cursor := by
  obtain ⟨live, lost⟩ := (swept.garbage_iff ordered proper inside).mp garbage
  exact ordered.discardedBelow_succ proper live lost

theorem discardedBelow_of_spared (swept : Swept start free heap cursor)
    (ordered : start.WellFormed free) (proper : cursor ≠ Ref.nil)
    (inside : cursor < heap.capacity) (spared : ¬ heap.Garbage cursor) :
    start.discardedBelow (cursor + 1) = start.discardedBelow cursor := by
  apply ordered.discardedBelow_succ_of_kept
  intro live
  rw [swept.garbage_iff ordered proper inside] at spared
  exact Classical.by_contradiction fun lost => spared ⟨live, lost⟩

theorem republished (swept : Swept start free before cursor)
    (same : Republished before after) :
    Swept start free after cursor where
  ordered := swept.ordered.republished same
  capacity := same.capacity.trans swept.capacity
  child ref side retained notHead := by
    rw [same.node]
    exact swept.child ref side retained notHead
  live ref := by
    rw [same.node]
    exact swept.live ref
  ahead ref proper ahead inside := by
    rw [same.capacity] at inside
    rw [same.node]
    exact swept.ahead ref proper ahead inside
  behind ref proper behind := by
    rw [same.node]
    exact swept.behind ref proper behind

theorem release (swept : Swept start free before cursor) (ordered : start.WellFormed free)
    (reclaiming : before.Reclaiming cursor) (inside : cursor < before.capacity)
    (garbage : before.Garbage cursor)
    (pushed : Pushed (before.moveFrontier (cursor + 1)) cursor after) :
    Swept start free after (cursor + 1) := by
  have proper : cursor ≠ Ref.nil := Nat.ne_of_gt reclaiming.started
  have lost := ((swept.garbage_iff ordered proper inside).mp garbage).2
  have listed := swept.discardedBelow_of_garbage ordered proper inside garbage
  have orderedMoved : (before.moveFrontier (cursor + 1)).WellFormed
      (start.discardedBelow cursor ++ free) :=
    swept.ordered.republished ⟨rfl, rfl, rfl⟩
  refine
    { ordered := ?_
      capacity := pushed.capacity.trans swept.capacity
      child := fun ref side retained notHead => ?_
      live := fun ref => ?_
      ahead := fun ref refProper ahead refInside => ?_
      behind := fun ref refProper behind => ?_ }
  · rw [listed, List.cons_append]
    exact orderedMoved.pushed garbage.2.1 (garbage.rooted reclaiming.started) inside pushed
  · have different : ref ≠ cursor := by
      intro hit
      subst hit
      exact lost retained
    rw [pushed.child, if_neg different, if_neg notHead]
    exact swept.child ref side retained notHead
  · rw [pushed.live, node_moveFrontier, listed, List.mem_cons]
    by_cases hit : ref = cursor
    · simp [hit]
    · rw [if_neg hit]
      simpa [hit] using swept.live ref
  · rw [pushed.color]
    rw [pushed.capacity] at refInside
    exact swept.ahead ref refProper (Nat.le_of_succ_le ahead) refInside
  · rw [pushed.color]
    by_cases hit : ref = cursor
    · exact hit ▸ garbage.1
    · exact swept.behind ref refProper
        (Nat.lt_of_le_of_ne (Nat.le_of_lt_succ behind) hit)

theorem spare (swept : Swept start free before cursor) (ordered : start.WellFormed free)
    (reclaiming : before.Reclaiming cursor) (inside : cursor < before.capacity)
    (spared : ¬ before.Garbage cursor) :
    Swept start free ((before.moveFrontier (cursor + 1)).whiten cursor) (cursor + 1) := by
  have proper : cursor ≠ Ref.nil := Nat.ne_of_gt reclaiming.started
  have listed := swept.discardedBelow_of_spared ordered proper inside spared
  have orderedMoved : (before.moveFrontier (cursor + 1)).WellFormed
      (start.discardedBelow cursor ++ free) :=
    swept.ordered.republished ⟨rfl, rfl, rfl⟩
  have whitened := whiten_recolored (before.moveFrontier (cursor + 1)) cursor
  have color := color_whiten (before.moveFrontier (cursor + 1)) cursor
  refine
    { ordered := listed ▸ orderedMoved.whiten cursor
      capacity := whitened.capacity.trans swept.capacity
      child := fun ref side retained notHead =>
        (whitened.child ref side).trans (swept.child ref side retained notHead)
      live := fun ref => ?_
      ahead := fun ref refProper ahead refInside => ?_
      behind := fun ref refProper behind => ?_ }
  · rw [listed, whitened.live]
    exact swept.live ref
  · have different : ref ≠ cursor := Nat.ne_of_gt ahead
    rw [color, if_neg (fun all => different all.1)]
    rw [whitened.capacity] at refInside
    exact swept.ahead ref refProper (Nat.le_of_succ_le ahead) refInside
  · by_cases hit : ref = cursor
    · subst hit
      rw [color, if_pos ⟨rfl, refProper, inside⟩]
    · rw [color, if_neg (fun all => hit all.1)]
      exact swept.behind ref refProper
        (Nat.lt_of_le_of_ne (Nat.le_of_lt_succ behind) hit)

/-- Once every node has been visited, what is live was live and retained. -/
theorem live_iff (swept : Swept start free heap start.capacity)
    (ordered : start.WellFormed free) {ref : Ref} (proper : ref ≠ Ref.nil)
    (inside : ref < start.capacity) :
    (heap.node ref).live = true ↔ (start.node ref).live = true ∧ start.Retained ref := by
  rw [swept.live, ordered.mem_discardedBelow_iff]
  constructor
  · rintro ⟨live, kept⟩
    exact ⟨live, Classical.by_contradiction fun lost => kept ⟨inside, proper, live, lost⟩⟩
  · rintro ⟨live, retained⟩
    exact ⟨live, fun listed => listed.2.2.2 retained⟩

theorem greyCount_eq_zero (swept : Swept start free heap start.capacity) :
    heap.greyCount = 0 := by
  rw [swept.ordered.greyCounted.eq_zero_iff]
  intro ref grey
  have inside := swept.capacity ▸ lt_capacity_of_grey grey
  have white := swept.behind ref (swept.ordered.ne_nil_of_grey grey) inside
  exact Color.noConfusion (grey.symm.trans white)

end Swept

end Tricolor.Heap
