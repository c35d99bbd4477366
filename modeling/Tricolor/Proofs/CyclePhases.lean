import Tricolor.Collector
import Tricolor.Proofs.WellFormed

/-!
# What each phase of a cycle promises

While idle no node is black.  While marking the roots are marked and no black
node has a white child.  While reclaiming the roots not yet visited are black,
and so is every other black node ahead of the frontier.  Mutators keep these
promises because of one fact: they never add a black node, never lighten a
root, and never store a white child in a black node while marking.
-/

namespace Tricolor

theorem Ref.mem_roots_iff {ref : Ref} : ref ∈ Ref.roots ↔ Ref.IsRoot ref := by
  have listed : ∀ index : Nat, index ∈ [1, 2, 3] ↔ 1 ≤ index ∧ index ≤ 3 := by
    intro index
    simp only [List.mem_cons, List.not_mem_nil, or_false]
    omega
  exact listed ref

theorem Ref.lt_of_mem_roots {root : Ref} (isRoot : root ∈ Ref.roots) :
    root < Heap.minCapacity :=
  Nat.lt_succ_of_le (Ref.mem_roots_iff.mp isRoot).2

theorem Ref.not_mem_roots_of_rooted {ref : Ref} (rooted : Heap.minCapacity ≤ ref) :
    ref ∉ Ref.roots := fun isRoot =>
  absurd rooted (Nat.not_le.mpr (Ref.lt_of_mem_roots isRoot))

namespace Heap

/-- No black node has a white child. -/
def Tricolored (heap : Heap) : Prop :=
  ∀ parent side, (heap.node parent).color = .black →
    (heap.node ((heap.node parent).child side)).color ≠ .white

/-- Every black node but the sentinel lies at `bound` or beyond. -/
def BlackFrom (heap : Heap) (bound : Nat) : Prop :=
  ∀ ref, ref ≠ Ref.nil → (heap.node ref).color = .black → bound ≤ ref

/-- No cycle is in progress. -/
structure Resting (heap : Heap) : Prop where
  phase : heap.phase = .idle
  frontier : heap.frontier = heap.capacity
  unmarked : heap.BlackFrom heap.capacity

structure Marking (heap : Heap) : Prop where
  phase : heap.phase = .marking
  frontier : heap.frontier = heap.capacity
  rootsMarked : ∀ root ∈ Ref.roots, (heap.node root).color ≠ .white
  tricolored : heap.Tricolored

structure Reclaiming (heap : Heap) (cursor : Nat) : Prop where
  phase : heap.phase = .reclaiming
  frontier : heap.frontier = cursor
  started : 1 ≤ cursor
  bounded : cursor ≤ heap.capacity
  blackAhead : heap.BlackFrom cursor
  rootsBlack : ∀ root ∈ Ref.roots, cursor ≤ root → (heap.node root).color = .black

/-- What is published and marked agrees with where the collector stands. -/
def InPhase (heap : Heap) : Position → Prop
  | .idle => heap.Resting
  | .sweeping cursor clean =>
      heap.Marking ∧ cursor < heap.capacity ∧ clean ≤ heap.capacity
  | .reclaiming cursor => heap.Reclaiming cursor

/-- A mutator may do this to the marks of a heap at any point of a cycle. -/
structure CycleKept (before after : Heap) : Prop extends SameCycle before after where
  black : ∀ ref, (after.node ref).color = .black → (before.node ref).color = .black
  rootMarked : ∀ root ∈ Ref.roots, (before.node root).color ≠ .white →
    (after.node root).color ≠ .white
  rootBlack : ∀ root ∈ Ref.roots, (before.node root).color = .black →
    (after.node root).color = .black
  tricolored : before.phase = .marking → before.Tricolored → after.Tricolored

namespace CycleKept

variable {first second third before after : Heap}

theorem refl (heap : Heap) : CycleKept heap heap where
  capacity := rfl
  phase := rfl
  frontier := rfl
  cyclesStarted := rfl
  black _ black := black
  rootMarked _ _ marked := marked
  rootBlack _ _ black := black
  tricolored _ tricolored := tricolored

theorem trans (left : CycleKept first second) (right : CycleKept second third) :
    CycleKept first third where
  capacity := right.capacity.trans left.capacity
  phase := right.phase.trans left.phase
  frontier := right.frontier.trans left.frontier
  cyclesStarted := right.cyclesStarted.trans left.cyclesStarted
  black ref black := left.black ref (right.black ref black)
  rootMarked root isRoot marked :=
    right.rootMarked root isRoot (left.rootMarked root isRoot marked)
  rootBlack root isRoot black :=
    right.rootBlack root isRoot (left.rootBlack root isRoot black)
  tricolored marking tricolored :=
    right.tricolored (left.phase.trans marking) (left.tricolored marking tricolored)

theorem blackFrom (kept : CycleKept before after) {bound : Nat}
    (ahead : before.BlackFrom bound) :
    after.BlackFrom bound :=
  fun ref proper black => ahead ref proper (kept.black ref black)

theorem inPhase (kept : CycleKept before after) {position : Position}
    (inPhase : before.InPhase position) :
    after.InPhase position := by
  cases position with
  | idle =>
      exact
        { phase := kept.phase.trans inPhase.phase
          frontier := by rw [kept.frontier, kept.capacity, inPhase.frontier]
          unmarked := by
            rw [kept.capacity]
            exact kept.blackFrom inPhase.unmarked }
  | sweeping cursor clean =>
      obtain ⟨marking, cursorInside, cleanBounded⟩ := inPhase
      refine ⟨?_, kept.capacity ▸ cursorInside, kept.capacity ▸ cleanBounded⟩
      exact
        { phase := kept.phase.trans marking.phase
          frontier := by rw [kept.frontier, kept.capacity, marking.frontier]
          rootsMarked := fun root isRoot =>
            kept.rootMarked root isRoot (marking.rootsMarked root isRoot)
          tricolored := kept.tricolored marking.phase marking.tricolored }
  | reclaiming cursor =>
      exact
        { phase := kept.phase.trans inPhase.phase
          frontier := kept.frontier.trans inPhase.frontier
          started := inPhase.started
          bounded := kept.capacity ▸ inPhase.bounded
          blackAhead := kept.blackFrom inPhase.blackAhead
          rootsBlack := fun root isRoot ahead =>
            kept.rootBlack root isRoot (inPhase.rootsBlack root isRoot ahead) }

end CycleKept

namespace Shaded

variable {before after : Heap}

theorem tricolored (shaded : Shaded before after) (tricolored : before.Tricolored) :
    after.Tricolored := by
  intro parent side black
  rw [shaded.child]
  exact (shaded.color _).not_white
    (tricolored parent side ((shaded.color parent).black_iff.mp black))

theorem cycleKept (shaded : Shaded before after) : CycleKept before after where
  toSameCycle := shaded.sameCycle
  black ref := (shaded.color ref).black_iff.mp
  rootMarked root _ := (shaded.color root).not_white
  rootBlack root _ := (shaded.color root).black_iff.mpr
  tricolored _ := shaded.tricolored

end Shaded

theorem Linked.cycleKept
    {before after : Heap} {parent target : Ref} {side : Side}
    (linked : Linked before parent side target after)
    (sentinelBlack : (before.node Ref.nil).color = .black) :
    CycleKept before after where
  toSameCycle := linked.toSameCycle
  black ref := (linked.color ref).black_iff.mp
  rootMarked root _ := (linked.color root).not_white
  rootBlack root _ := (linked.color root).black_iff.mpr
  tricolored marking tricolored := by
    intro ref other black
    have blackBefore := (linked.color ref).black_iff.mp black
    rw [linked.child]
    split
    · rename_i written
      by_cases empty : target = Ref.nil
      · rw [empty, (linked.color Ref.nil).black_iff.mpr sentinelBlack]
        exact Color.noConfusion
      · exact linked.guarded marking (written.1 ▸ blackBefore) empty
    · exact (linked.color _).not_white (tricolored ref other blackBefore)

theorem Popped.cycleKept
    {before after : Heap} {first : Ref} (popped : Popped before first after)
    (sentinelBlack : (before.node Ref.nil).color = .black)
    (rooted : minCapacity ≤ first) :
    CycleKept before after := by
  have firstNotBlack : (after.node first).color ≠ .black := by
    rw [popped.firstColor]
    split <;> exact Color.noConfusion
  have rootSpared : ∀ root ∈ Ref.roots, root ≠ first := by
    intro root isRoot hit
    subst hit
    exact absurd rooted (Nat.not_le.mpr (Ref.lt_of_mem_roots isRoot))
  have nilSpared : Ref.nil ≠ first := (ne_nil_of_rooted rooted).symm
  have blackBefore : ∀ ref, (after.node ref).color = .black →
      ref ≠ first ∧ (before.node ref).color = .black := by
    intro ref black
    have different : ref ≠ first := by
      intro hit
      subst hit
      exact firstNotBlack black
    exact ⟨different, (popped.color ref different).black_iff.mp black⟩
  refine
    { toSameCycle := popped.toSameCycle
      black := fun ref black => (blackBefore ref black).2
      rootMarked := fun root isRoot =>
        (popped.color root (rootSpared root isRoot)).not_white
      rootBlack := fun root isRoot =>
        (popped.color root (rootSpared root isRoot)).black_iff.mpr
      tricolored := fun marking tricolored parent side black => ?_ }
  obtain ⟨different, parentBlack⟩ := blackBefore parent black
  rw [popped.child, if_neg different]
  split
  · rename_i head
    by_cases last : (before.node first).right = Ref.nil
    · rw [last, (popped.color Ref.nil nilSpared).black_iff.mpr sentinelBlack]
      exact Color.noConfusion
    · exact popped.guarded marking (head.1 ▸ parentBlack) last
  · by_cases hit : (before.node parent).child side = first
    · rw [hit, popped.firstColor, if_pos (.inl marking)]
      exact Color.noConfusion
    · exact (popped.color _ hit).not_white (tricolored parent side parentBlack)

theorem Pushed.cycleKept
    {before after : Heap} {ref : Ref} (pushed : Pushed before ref after)
    (notBlack : (before.node ref).color ≠ .black)
    (guarded : before.phase = .marking →
      (before.node Ref.freeRoot).color = .black → (before.node ref).color ≠ .white) :
    CycleKept before after where
  toSameCycle := pushed.toSameCycle
  black other black := (pushed.color other).symm.trans black
  rootMarked root _ marked := by rwa [pushed.color]
  rootBlack root _ black := (pushed.color root).trans black
  tricolored marking tricolored := by
    intro parent side black
    rw [pushed.color] at black ⊢
    have different : parent ≠ ref := by
      intro hit
      subst hit
      exact notBlack black
    rw [pushed.child, if_neg different]
    split
    · rename_i head
      exact guarded marking (head.1 ▸ black)
    · exact tricolored parent side black

end Heap

end Tricolor
