import Tricolor.Proofs.Reachability

/-!
# The tri-color condition and what it is for

While marking no black node has a white child.  So once nothing is grey, the
black nodes are closed under child slots: whatever the roots lead to is black,
free nodes included, and no black node leads to a white one.
-/

namespace Tricolor

namespace Heap

namespace Tricolored

variable {heap : Heap} {ref : Ref}

theorem black_of_reaches (tricolored : heap.Tricolored)
    (settled : ∀ ref, (heap.node ref).color ≠ .grey) {start : Ref}
    (reaches : heap.Reaches start ref) (marked : (heap.node start).color ≠ .white) :
    (heap.node ref).color = .black := by
  refine reaches.closed (fun other => (heap.node other).color = .black)
    (fun parent side here => ?_) (Color.eq_black_of_ne marked (settled start))
  exact Color.eq_black_of_ne (tricolored parent side here) (settled _)

theorem black_of_reachable (tricolored : heap.Tricolored)
    (settled : ∀ ref, (heap.node ref).color ≠ .grey) {roots : List Ref}
    (marked : ∀ root ∈ roots, (heap.node root).color ≠ .white)
    (reachable : heap.ReachableFrom roots ref) :
    (heap.node ref).color = .black := by
  obtain ⟨root, isRoot, reaches⟩ := reachable
  exact tricolored.black_of_reaches settled reaches (marked root isRoot)

/-- The diagnostic that lists offending edges has nothing to list. -/
theorem blackToWhiteEdges_eq (tricolored : heap.Tricolored) :
    heap.blackToWhiteEdges = [] := by
  unfold blackToWhiteEdges
  rw [List.flatMap_eq_nil_iff]
  intro parent _
  split
  · rename_i offender
    rw [List.filterMap_eq_nil_iff]
    intro side _
    rw [if_neg]
    exact fun edge => tricolored parent side offender.2 edge.2
  · rfl

end Tricolored

/-- Marking has come to rest, and it has reached everything it should. -/
structure Settled (heap : Heap) : Prop where
  noGrey : ∀ ref, (heap.node ref).color ≠ .grey
  reachableBlack : ∀ ref, heap.ReachableFrom Ref.roots ref →
    (heap.node ref).color = .black
  freeBlack : ∀ ref ∈ heap.freeList, (heap.node ref).color = .black
  unusedBlack : ∀ ref, (heap.node ref).live = false → (heap.node ref).color = .black
  separated : ∀ parent ref, (heap.node parent).color = .black →
    heap.Reaches parent ref → (heap.node ref).color ≠ .white

theorem Tricolored.settled
    {heap : Heap} {free : List Ref} (tricolored : heap.Tricolored)
    (ordered : heap.WellFormed free) (noGrey : ∀ ref, (heap.node ref).color ≠ .grey)
    (rootsMarked : ∀ root ∈ Ref.roots, (heap.node root).color ≠ .white) :
    heap.Settled := by
  have reachableBlack : ∀ ref, heap.ReachableFrom Ref.roots ref →
      (heap.node ref).color = .black :=
    fun ref reachable => tricolored.black_of_reachable noGrey rootsMarked reachable
  have freeBlack : ∀ ref ∈ free, (heap.node ref).color = .black :=
    fun ref member => reachableBlack ref (ordered.reachable_of_free member)
  refine
    { noGrey := noGrey
      reachableBlack := reachableBlack
      freeBlack := fun ref member => freeBlack ref (ordered.freeList_eq ▸ member)
      unusedBlack := fun ref dead => freeBlack ref ((ordered.mem_iff ref).mpr dead)
      separated := fun parent ref black reaches => ?_ }
  have marked : (heap.node parent).color ≠ .white := by
    rw [black]
    exact Color.noConfusion
  rw [tricolored.black_of_reaches noGrey reaches marked]
  exact Color.noConfusion

end Heap

namespace Collection

variable {collection : Collection}

/-- Whenever the test for rest ends the marking phase, marking is complete. -/
theorem Consistent.settled_tryQuiesce (consistent : collection.Consistent)
    (phase : collection.heap.phase = .marking) {cursor : Nat}
    (ended : (collection.tryQuiesce cursor).heap.phase = .reclaiming) :
    (collection.tryQuiesce cursor).heap.Settled := by
  have marking := consistent.marking phase
  obtain ⟨free, ordered⟩ := consistent.ordered
  obtain ⟨heap, collector⟩ := collection
  by_cases grey : 0 < heap.greyCount
  · rw [Collection.tryQuiesce, if_pos grey] at ended
    exact Phase.noConfusion (phase.symm.trans ended)
  · rw [Collection.tryQuiesce, if_neg grey]
    have noGrey := ordered.greyCounted.eq_zero_iff.mp (Nat.eq_zero_of_not_pos grey)
    have tricolored : Heap.Tricolored { heap with frontier := 1, phase := .reclaiming } :=
      marking.tricolored.republished ⟨rfl, rfl, rfl⟩
    exact tricolored.settled (ordered.republished ⟨rfl, rfl, rfl⟩) noGrey
      marking.rootsMarked

end Collection

namespace Session

/-- Whatever is asked for and in whatever order, no black node has a white child
at any moment of a marking phase, and a marking phase that ends has reached
everything it should. -/
theorem run_tricolored
    {capacity : Nat} {initial : Heap} {requests : List Request} {collection : Collection}
    (built : Heap.ofCapacity capacity = .ok initial)
    (met : ((ofHeap initial).run requests).Meets collection)
    (marking : collection.heap.phase = .marking) :
    (∀ parent side, (collection.heap.node parent).color = .black →
      (collection.heap.node ((collection.heap.node parent).child side)).color ≠ .white) ∧
    collection.heap.blackToWhiteEdges = [] ∧
    ∀ cursor, (collection.tryQuiesce cursor).heap.phase = .reclaiming →
      (collection.tryQuiesce cursor).heap.Settled := by
  have consistent : collection.Consistent :=
    met.of_workStable Collection.consistent_workStable (run_consistent built requests)
  have tricolored := (consistent.marking marking).tricolored
  exact ⟨tricolored, tricolored.blackToWhiteEdges_eq,
    fun _ ended => consistent.settled_tryQuiesce marking ended⟩

/-- The collector has met no grey node for a whole round. -/
theorem run_tricolored_after_clean_round :
    let session := (ofHeap (Heap.fresh 6)).run
      [.attach, .allocateChild 1 .left, .allocateChild 4 .right, .step 12]
    let collection := session.collection
    collection.heap.phase = .marking ∧ collection.heap.blackToWhiteEdges = [] ∧
      (collection.tryQuiesce 0).heap.phase = .reclaiming ∧
      (collection.tryQuiesce 0).heap.Settled := by
  intro session collection
  have built : Heap.ofCapacity 6 = .ok (Heap.fresh 6) := rfl
  have met : session.Meets collection := .outset
  have marking : collection.heap.phase = .marking := by decide
  have ended : (collection.tryQuiesce 0).heap.phase = .reclaiming := by decide
  obtain ⟨_, unmixed, settled⟩ := run_tricolored built met marking
  exact ⟨marking, unmixed, ended, settled 0 ended⟩

end Session

end Tricolor
