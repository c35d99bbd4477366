import Tricolor.Proofs.FreshHeap

/-!
# What mutators leave alone

An operation of a mutator changes no live node but those that it names and the head
of the free list: neither their slots nor their marks.
-/

namespace Tricolor

/-- The nodes that a request is about. -/
def Request.names : Request → List Ref
  | .release ref => [ref]
  | .setChild parent _ child => [parent, child]
  | .allocateChild parent _ => [parent]
  | .allocateChildOrCollect parent _ _ => [parent]
  | .shade ref => [ref]
  | _ => []

namespace Heap

section Frame

variable {heap : Heap} {ref other : Ref}

theorem node_shade_of_ne (different : other ≠ ref) :
    (heap.shade ref).node other = heap.node other := by
  unfold shade
  split
  · rw [node_repaint, if_neg (fun hit => different hit.1)]
  · rfl

theorem node_whiten_of_ne (different : other ≠ ref) :
    (heap.whiten ref).node other = heap.node other := by
  unfold whiten
  split
  · rfl
  · rw [node_repaint, if_neg (fun hit => different hit.1)]

theorem node_insertionBarrier_of_ne {parent : Ref} (different : other ≠ ref) :
    (heap.insertionBarrier parent ref).node other = heap.node other := by
  unfold insertionBarrier
  split
  · exact node_shade_of_ne different
  · rfl

theorem node_protectNew_of_ne (different : other ≠ ref) :
    (heap.protectNew ref).node other = heap.node other := by
  unfold protectNew
  split
  · exact node_shade_of_ne different
  · rfl

theorem node_relink_of_ne {parent target : Ref} {side : Side}
    (notParent : other ≠ parent) (notTarget : other ≠ target) :
    (heap.relink parent side target).node other = heap.node other := by
  rw [relink, writeChild, node_update_of_ne notParent, node_insertionBarrier_of_ne notTarget]

theorem node_enlist_of_ne (different : other ≠ ref) :
    (heap.enlist ref).node other = heap.node other := by
  rw [enlist, node_update_of_ne different]
  rfl

theorem node_pushFree_of_ne (different : other ≠ ref) (notHead : other ≠ Ref.freeRoot) :
    (heap.pushFree ref).node other = heap.node other := by
  change ((heap.update ref _).writeChild Ref.freeRoot .right ref).node other = _
  rw [writeChild, node_update_of_ne notHead, node_update_of_ne different]

/-- A live node is neither the first free node nor the one after it. -/
theorem WellFormed.node_popFree_of_live {free : List Ref} (ordered : heap.WellFormed free)
    (available : heap.firstFree ≠ Ref.nil) (rooted : minCapacity ≤ other)
    (live : (heap.node other).live = true) :
    heap.popFree.2.node other = heap.node other := by
  obtain ⟨rest, listed⟩ := ordered.exists_cons available
  have chain := ordered.chain
  rw [listed] at chain
  have notFirst : other ≠ heap.firstFree := by
    intro hit
    subst hit
    exact Bool.noConfusion ((ordered.firstFree_dead available).symm.trans live)
  have notNext : other ≠ (heap.node heap.firstFree).right := by
    intro hit
    have tail := chain.uncons.2
    rw [← hit] at tail
    cases tail with
    | nil => exact ne_nil_of_rooted rooted rfl
    | cons proper tail =>
        exact ordered.not_mem_of_live live (by simp [listed])
  rw [popFree_eq, node_protectNew_of_ne notFirst, node_whiten_of_ne notFirst,
    node_enlist_of_ne notFirst, node_relink_of_ne (ne_freeRoot_of_rooted rooted) notNext]

end Frame

/-- A mutator changes no live node but those that it names; the sentinel and the roots
apart. -/
theorem WellFormed.node_mutation_of_unnamed
    {heap : Heap} {free : List Ref} (ordered : heap.WellFormed free) {request : Request}
    {change : Heap → Heap} (performs : request.mutation? = some change) {ref : Ref}
    (rooted : minCapacity ≤ ref) (live : (heap.node ref).live = true)
    (unnamed : ref ∉ request.names) :
    (change heap).node ref = heap.node ref := by
  cases request with
  | allocate =>
      cases performs
      change heap.allocate.2.node ref = _
      rcases heap.allocate_cases with ⟨_, same⟩ | ⟨available, allocated⟩
      · rw [same]
      · rw [allocated]
        exact ordered.node_popFree_of_live available rooted live
  | release released =>
      cases performs
      change (heap.release released).2.node ref = _
      rcases heap.release_cases released with ⟨fault, same⟩ | ⟨_, success⟩
      · rw [same]
      · have different : ref ≠ released := by simpa [Request.names] using unnamed
        rw [success]
        exact (node_pushFree_of_ne different (ne_freeRoot_of_rooted rooted)).trans
          (node_insertionBarrier_of_ne different)
  | setChild parent side child =>
      cases performs
      change (heap.setChild parent side child).2.node ref = _
      rcases heap.setChild_cases parent side child with ⟨fault, same⟩ | ⟨_, linked⟩
      · rw [same]
      · obtain ⟨notParent, notChild⟩ : ref ≠ parent ∧ ref ≠ child := by
          simpa [Request.names] using unnamed
        rw [linked]
        exact node_relink_of_ne notParent notChild
  | allocateChild parent side =>
      cases performs
      change (heap.allocateChild parent side).2.node ref = _
      rcases ordered.allocateChild_cases parent side with
        ⟨fault, same⟩ | ⟨available, _, _, allocated⟩
      · rw [same]
      · have notParent : ref ≠ parent := by simpa [Request.names] using unnamed
        have notFirst : ref ≠ heap.firstFree := by
          intro hit
          subst hit
          exact Bool.noConfusion ((ordered.firstFree_dead available).symm.trans live)
        rw [allocated]
        exact (node_relink_of_ne notParent notFirst).trans
          (ordered.node_popFree_of_live available rooted live)
  | shade shaded =>
      cases performs
      change (heap.shadeNode shaded).2.node ref = _
      rcases heap.shadeNode_cases shaded with ⟨fault, same⟩ | ⟨_, success⟩
      · rw [same]
      · have different : ref ≠ shaded := by simpa [Request.names] using unnamed
        rw [success]
        exact node_shade_of_ne different
  | _ => cases performs

end Heap

end Tricolor
