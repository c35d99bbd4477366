import Tricolor.Proofs.Reachability

/-!
# What a cycle retains and what it discards

A cycle that runs undisturbed retains whatever the marking roots lead to, and
also whatever a node leads to that a mutator has shaded beforehand.  It discards
the other live nodes in ascending order, so they end up on the free list in
descending order.
-/

namespace Tricolor.Heap

/-- A marking root or a grey node leads to the node. -/
def Retained (heap : Heap) (ref : Ref) : Prop :=
  ref ≠ Ref.nil ∧ (heap.ReachableFrom Ref.roots ref ∨
    ∃ grey, (heap.node grey).color = .grey ∧ heap.Reaches grey ref)

open Classical in
/-- The nodes that a cycle retains. -/
noncomputable def retained (heap : Heap) : Finset Ref :=
  (Finset.range heap.capacity).filter heap.Retained

/-- The live nodes below `bound` that a cycle does not retain, in descending
order. -/
noncomputable def discardedBelow (heap : Heap) (bound : Nat) : List Ref :=
  ((List.range bound).filter fun ref =>
    ref ≠ Ref.nil ∧ (heap.node ref).live = true ∧ ref ∉ heap.retained).reverse

/-- The live nodes that a cycle does not retain, in descending order. -/
noncomputable def discarded (heap : Heap) : List Ref :=
  heap.discardedBelow heap.capacity

namespace Retained

variable {heap : Heap} {ref : Ref}

theorem child (retained : heap.Retained ref) (side : Side)
    (proper : (heap.node ref).child side ≠ Ref.nil) :
    heap.Retained ((heap.node ref).child side) := by
  refine ⟨proper, ?_⟩
  rcases retained.2 with reachable | ⟨grey, isGrey, reaches⟩
  · exact .inl (reachable.child side)
  · exact .inr ⟨grey, isGrey, reaches.child side⟩

theorem of_root (isRoot : ref ∈ Ref.roots) : heap.Retained ref := by
  refine ⟨?_, .inl (.root isRoot)⟩
  intro hit
  subst hit
  exact absurd isRoot (by decide)

end Retained

namespace WellFormed

variable {heap : Heap} {free : List Ref} {ref : Ref}

theorem retained_of_grey (ordered : heap.WellFormed free)
    (grey : (heap.node ref).color = .grey) :
    heap.Retained ref :=
  ⟨ordered.ne_nil_of_grey grey, .inr ⟨ref, grey, .refl heap ref⟩⟩

theorem retained_of_free (ordered : heap.WellFormed free) (member : ref ∈ free) :
    heap.Retained ref :=
  ⟨ordered.chain.ne_nil ref member, .inl (ordered.reachable_of_free member)⟩

theorem lt_of_reaches (ordered : heap.WellFormed free) {start : Ref}
    (reaches : heap.Reaches start ref) (inside : start < heap.capacity) :
    ref < heap.capacity :=
  reaches.closed (· < heap.capacity) (fun parent side _ => ordered.closed parent side) inside

theorem lt_of_retained (ordered : heap.WellFormed free) (retained : heap.Retained ref) :
    ref < heap.capacity := by
  rcases retained.2 with ⟨root, isRoot, reaches⟩ | ⟨grey, isGrey, reaches⟩
  · exact ordered.lt_of_reaches reaches
      (Nat.lt_of_lt_of_le (Ref.lt_of_mem_roots isRoot) ordered.roomy)
  · exact ordered.lt_of_reaches reaches (lt_capacity_of_grey isGrey)

theorem mem_retained_iff (ordered : heap.WellFormed free) :
    ref ∈ heap.retained ↔ heap.Retained ref := by
  simp only [retained, Finset.mem_filter, Finset.mem_range, and_iff_right_iff_imp]
  exact ordered.lt_of_retained

theorem mem_discardedBelow_iff (ordered : heap.WellFormed free) {bound : Nat} :
    ref ∈ heap.discardedBelow bound ↔
      ref < bound ∧ ref ≠ Ref.nil ∧ (heap.node ref).live = true ∧ ¬ heap.Retained ref := by
  simp [discardedBelow, ordered.mem_retained_iff]

theorem mem_discarded_iff (ordered : heap.WellFormed free) :
    ref ∈ heap.discarded ↔
      ref < heap.capacity ∧ ref ≠ Ref.nil ∧ (heap.node ref).live = true ∧
        ¬ heap.Retained ref :=
  ordered.mem_discardedBelow_iff

theorem discardedBelow_succ (ordered : heap.WellFormed free) {cursor : Nat}
    (proper : cursor ≠ Ref.nil) (live : (heap.node cursor).live = true)
    (lost : ¬ heap.Retained cursor) :
    heap.discardedBelow (cursor + 1) = cursor :: heap.discardedBelow cursor := by
  simp [discardedBelow, List.range_succ, ordered.mem_retained_iff, proper, live, lost]

theorem discardedBelow_succ_of_kept (ordered : heap.WellFormed free) {cursor : Nat}
    (kept : (heap.node cursor).live = true → heap.Retained cursor) :
    heap.discardedBelow (cursor + 1) = heap.discardedBelow cursor := by
  have spared : cursor ≠ Ref.nil → (heap.node cursor).live = true →
      cursor ∈ heap.retained :=
    fun _ live => ordered.mem_retained_iff.mpr (kept live)
  simpa [discardedBelow, List.range_succ] using spared

end WellFormed

/-- The reclaim pass starts past the sentinel. -/
theorem discardedBelow_one (heap : Heap) : heap.discardedBelow 1 = [] := by
  simp [discardedBelow]

end Tricolor.Heap
