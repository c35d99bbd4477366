import Tricolor.Proofs.SlotWrites

/-!
# Operations keep a heap in order

`WellFormed heap free` adds to the shape of a heap that its sentinel is black
and that its grey counter is exact.  Whatever a mutator asks for, and whatever
references it names, the heap it leaves behind is in order again.
-/

namespace Tricolor

/-- The fault lies with a node that the mutator has named. -/
def Fault.refusesNode : Fault → Bool
  | .outOfRange _ _ => true
  | .reserved _ => true
  | .notReachable _ => true
  | _ => false

namespace Heap

/-- `after` is `before` but for what the collector publishes and for events. -/
structure Republished (before after : Heap) : Prop where
  nodes : after.nodes = before.nodes
  freeCount : after.freeCount = before.freeCount
  greyCount : after.greyCount = before.greyCount

namespace Republished

variable {before after : Heap}

theorem node (same : Republished before after) (ref : Ref) :
    after.node ref = before.node ref := by
  rw [Heap.node, Heap.node, same.nodes]

theorem capacity (same : Republished before after) :
    after.capacity = before.capacity := by
  rw [Heap.capacity, Heap.capacity, same.nodes]

theorem sameShape (same : Republished before after) : SameShape before after where
  capacity := same.capacity
  child ref side := by rw [same.node]
  live ref := by rw [same.node]
  freeCount := same.freeCount

end Republished

/-- A mutator may link `child` below `parent`. -/
structure Linkable (heap : Heap) (parent child : Ref) : Prop where
  parentInside : parent < heap.capacity
  parentProper : parent ≠ Ref.nil
  parentNotHead : parent ≠ Ref.freeRoot
  parentUsable : heap.Usable parent
  childInside : child < heap.capacity
  childNotHead : child ≠ Ref.freeRoot
  childUsable : child = Ref.nil ∨ heap.Usable child

structure WellFormed (heap : Heap) (free : List Ref) : Prop
    extends Shaped heap free where
  sentinelBlack : (heap.node Ref.nil).color = .black
  greyCounted : heap.GreyCounted

namespace WellFormed

variable {before after heap : Heap} {free : List Ref}

/-- Only slots, use flags, marks and the two counters matter. -/
theorem congr (ordered : before.WellFormed free) (shape : SameShape before after)
    (color : ∀ ref, (after.node ref).color = (before.node ref).color)
    (greyCount : after.greyCount = before.greyCount) :
    after.WellFormed free where
  toShaped := shape.shaped ordered.toShaped
  sentinelBlack := (color Ref.nil).trans ordered.sentinelBlack
  greyCounted := ordered.greyCounted.congr color greyCount

theorem republished (ordered : before.WellFormed free)
    (same : Republished before after) :
    after.WellFormed free :=
  ordered.congr same.sameShape (fun ref => congrArg Node.color (same.node ref))
    same.greyCount

theorem sentinel (ordered : heap.WellFormed free) :
    heap.node Ref.nil = Node.sentinel := by
  refine Node.ext_child (fun side => ?_) ordered.sentinelBlack ?_
  · rw [ordered.sentinelChild, Node.sentinel_child]
  · exact ordered.live_of_lt (by decide)

theorem ne_nil_of_grey (ordered : heap.WellFormed free) {ref : Ref}
    (grey : (heap.node ref).color = .grey) :
    ref ≠ Ref.nil := by
  intro hit
  subst hit
  exact Color.noConfusion (grey.symm.trans ordered.sentinelBlack)

theorem shaded (ordered : before.WellFormed free) (shaded : Shaded before after) :
    after.WellFormed free where
  toShaped := shaded.shaped ordered.toShaped
  sentinelBlack := (shaded.color Ref.nil).black_iff.mpr ordered.sentinelBlack
  greyCounted := shaded.greyCounted ordered.greyCounted

theorem whiten (ordered : heap.WellFormed free) (ref : Ref) :
    (heap.whiten ref).WellFormed free where
  toShaped := (whiten_recolored heap ref).shaped ordered.toShaped
  sentinelBlack := by
    rw [color_whiten, ordered.sentinelBlack]
    simp
  greyCounted := ordered.greyCounted.whiten ref

theorem whitenAll (ordered : heap.WellFormed free) :
    heap.whitenAll.WellFormed free where
  toShaped := (whitenAll_recolored heap).shaped ordered.toShaped
  sentinelBlack := by
    rw [color_whitenAll, ordered.sentinelBlack]
    simp
  greyCounted := ordered.greyCounted.whitenAll

theorem linked {parent target : Ref} {side : Side} (ordered : before.WellFormed free)
    (linkable : before.Linkable parent target)
    (linked : Linked before parent side target after) :
    after.WellFormed free where
  toShaped := linked.shaped ordered.toShaped linkable.parentProper linkable.parentNotHead
    linkable.parentUsable.1 linkable.childInside linkable.childNotHead
  sentinelBlack := (linked.color Ref.nil).black_iff.mpr ordered.sentinelBlack
  greyCounted := linked.greyCounted ordered.greyCounted

theorem popped {first : Ref} (ordered : before.WellFormed (first :: free))
    (popped : Popped before first after) :
    after.WellFormed free := by
  have proper : first ≠ Ref.nil := ordered.chain.ne_nil first (by simp)
  refine ⟨popped.shaped ordered.toShaped, ?_, popped.greyCounted ordered.greyCounted⟩
  exact (popped.color Ref.nil proper.symm).black_iff.mpr ordered.sentinelBlack

theorem pushed_pushFree {ref : Ref} (ordered : heap.WellFormed free)
    (rooted : minCapacity ≤ ref) (inside : ref < heap.capacity) :
    Pushed heap ref (heap.pushFree ref) :=
  Heap.pushed_pushFree ordered.freeRoot_lt inside (ne_freeRoot_of_rooted rooted)

theorem pushed {ref : Ref} (ordered : before.WellFormed free)
    (live : (before.node ref).live = true) (rooted : minCapacity ≤ ref)
    (inside : ref < before.capacity) (pushed : Pushed before ref after) :
    after.WellFormed (ref :: free) where
  toShaped := pushed.shaped ordered.toShaped live rooted inside
  sentinelBlack := (pushed.color Ref.nil).trans ordered.sentinelBlack
  greyCounted := pushed.greyCounted ordered.greyCounted

end WellFormed

theorem Linkable.linked
    {heap : Heap} {parent child : Ref} (linkable : heap.Linkable parent child)
    (side : Side) :
    Linked heap parent side child (heap.relink parent side child) :=
  linked_relink linkable.parentInside side child

theorem lt_of_checkRange
    {heap : Heap} {ref : Ref} (checked : heap.checkRange ref = .ok ()) :
    ref < heap.capacity := by
  unfold checkRange at checked
  split at checked
  · assumption
  · cases checked

theorem of_checkWritable
    {heap : Heap} {parent : Ref} (checked : heap.checkWritable parent = .ok ()) :
    parent < heap.capacity ∧ parent ≠ Ref.nil ∧ parent ≠ Ref.freeRoot := by
  unfold checkWritable at checked
  cases ranged : heap.checkRange parent with
  | error fault => simp [ranged] at checked
  | ok =>
      simp only [ranged, ite_eq_right_iff, reduceCtorEq, imp_false, not_or] at checked
      exact ⟨lt_of_checkRange ranged, checked⟩

theorem usable_of_checkUsable
    {heap : Heap} {ref : Ref} (checked : heap.checkUsable ref = .ok ()) :
    heap.Usable ref := by
  unfold checkUsable at checked
  split at checked
  · assumption
  · cases checked

theorem link_eq_ok
    {heap : Heap} {parent child : Ref} (parentUsable : heap.Usable parent)
    (childUsable : child = Ref.nil ∨ heap.Usable child) (side : Side) :
    heap.link parent side child = (.ok (), heap.relink parent side child) := by
  unfold link checkUsable
  rw [if_pos parentUsable]
  by_cases empty : child = Ref.nil
  · simp only [if_pos empty]
    rfl
  · simp only [if_neg empty, if_pos (childUsable.resolve_left empty)]
    rfl

theorem Linkable.link_eq_ok
    {heap : Heap} {parent child : Ref} (linkable : heap.Linkable parent child)
    (side : Side) :
    heap.link parent side child = (.ok (), heap.relink parent side child) :=
  Heap.link_eq_ok linkable.parentUsable linkable.childUsable side

theorem Linkable.setChild_eq_ok
    {heap : Heap} {parent child : Ref} (linkable : heap.Linkable parent child)
    (side : Side) :
    heap.setChild parent side child = (.ok (), heap.relink parent side child) := by
  have ranged : heap.checkRange parent = .ok () := if_pos linkable.parentInside
  have childRanged : heap.checkRange child = .ok () := if_pos linkable.childInside
  have writable : heap.checkWritable parent = .ok () := by
    simp [checkWritable, ranged, linkable.parentProper, linkable.parentNotHead]
  simp only [setChild, writable, childRanged, if_neg linkable.childNotHead,
    linkable.link_eq_ok side]

theorem link_cases (heap : Heap) (parent : Ref) (side : Side) (child : Ref) :
    (∃ fault, heap.link parent side child = (.error fault, heap)) ∨
      heap.Usable parent ∧ (child = Ref.nil ∨ heap.Usable child) ∧
        heap.link parent side child = (.ok (), heap.relink parent side child) := by
  by_cases parentUsable : heap.Usable parent
  · by_cases childUsable : child = Ref.nil ∨ heap.Usable child
    · exact .inr ⟨parentUsable, childUsable, link_eq_ok parentUsable childUsable side⟩
    · obtain ⟨proper, unusable⟩ := not_or.mp childUsable
      refine .inl ⟨.notReachable child, ?_⟩
      simp only [link, checkUsable, if_pos parentUsable, if_neg proper, if_neg unusable]
  · refine .inl ⟨.notReachable parent, ?_⟩
    simp only [link, checkUsable, if_neg parentUsable]

theorem setChild_cases (heap : Heap) (parent : Ref) (side : Side) (child : Ref) :
    (∃ fault, heap.setChild parent side child = (.error fault, heap)) ∨
      heap.Linkable parent child ∧
        heap.setChild parent side child = (.ok (), heap.relink parent side child) := by
  unfold setChild
  cases writable : heap.checkWritable parent with
  | error fault => exact .inl ⟨fault, rfl⟩
  | ok =>
      cases ranged : heap.checkRange child with
      | error fault => exact .inl ⟨fault, rfl⟩
      | ok =>
          by_cases reserved : child = Ref.freeRoot
          · exact .inl ⟨.reserved child, if_pos reserved⟩
          · simp only [if_neg reserved]
            obtain ⟨inside, proper, notHead⟩ := of_checkWritable writable
            rcases heap.link_cases parent side child with
              failed | ⟨usable, childUsable, linked⟩
            · exact .inl failed
            · have linkable : heap.Linkable parent child :=
                ⟨inside, proper, notHead, usable, lt_of_checkRange ranged, reserved,
                  childUsable⟩
              exact .inr ⟨linkable, linked⟩

theorem allocate_cases (heap : Heap) :
    heap.firstFree = Ref.nil ∧ heap.allocate = (.error .outOfMemory, heap) ∨
      heap.firstFree ≠ Ref.nil ∧
        heap.allocate = (.ok heap.firstFree, heap.popFree.2.reportLive) := by
  by_cases exhausted : heap.firstFree = Ref.nil
  · exact .inl ⟨exhausted, if_pos exhausted⟩
  · exact .inr ⟨exhausted, if_neg exhausted⟩

/-- A node that has just been taken into use can be linked below any node that
was usable before. -/
theorem Shaped.linkable_popFree
    {heap : Heap} {free : List Ref} {parent : Ref} (shaped : heap.Shaped free)
    (available : heap.firstFree ≠ Ref.nil) (inside : parent < heap.capacity)
    (proper : parent ≠ Ref.nil) (notHead : parent ≠ Ref.freeRoot)
    (usable : heap.Usable parent) :
    heap.popFree.2.Linkable parent heap.firstFree := by
  have popped := shaped.popped_popFree available
  have different : parent ≠ heap.firstFree := by
    intro hit
    subst hit
    exact Bool.noConfusion ((shaped.firstFree_dead available).symm.trans usable.1)
  exact
    { parentInside := popped.capacity ▸ inside
      parentProper := proper
      parentNotHead := notHead
      parentUsable := (popped.usable_iff different).mpr usable
      childInside := popped.capacity ▸ shaped.firstFree_lt
      childNotHead := shaped.headUnlinked Ref.freeRoot .right
      childUsable := .inr popped.usable_first }

/-- A mutator may put `ref` back on the free list. -/
structure Releasable (heap : Heap) (ref : Ref) : Prop where
  inside : ref < heap.capacity
  rooted : minCapacity ≤ ref
  live : (heap.node ref).live = true
  white : (heap.node ref).color = .white

theorem releasable_of_checkReleasable
    {heap : Heap} {ref : Ref} (checked : heap.checkReleasable ref = .ok ()) :
    heap.Releasable ref := by
  unfold checkReleasable at checked
  cases ranged : heap.checkRange ref with
  | error fault => simp [ranged] at checked
  | ok =>
      simp only [ranged] at checked
      split at checked
      · cases checked
      · split at checked
        · cases checked
        · split at checked
          · cases checked
          · split at checked
            · cases checked
            · rename_i proper notRoot live white
              refine ⟨lt_of_checkRange ranged, ?_, Bool.eq_true_of_not_eq_false live,
                Decidable.not_not.mp white⟩
              exact Nat.lt_of_not_le fun low =>
                notRoot ⟨Nat.pos_of_ne_zero proper, low⟩

theorem release_cases (heap : Heap) (ref : Ref) :
    (∃ fault, heap.release ref = (.error fault, heap)) ∨
      heap.Releasable ref ∧
        heap.release ref =
          (.ok (), ((heap.insertionBarrier Ref.freeRoot ref).pushFree ref).reportLive) := by
  unfold release
  cases checked : heap.checkReleasable ref with
  | error fault => exact .inl ⟨fault, rfl⟩
  | ok => exact .inr ⟨releasable_of_checkReleasable checked, rfl⟩

theorem shadeNode_cases (heap : Heap) (ref : Ref) :
    (∃ fault, heap.shadeNode ref = (.error fault, heap)) ∨
      ref < heap.capacity ∧
        heap.shadeNode ref = (.ok ((heap.node ref).color == .white), heap.shade ref) := by
  unfold shadeNode
  cases ranged : heap.checkRange ref with
  | error fault => exact .inl ⟨fault, rfl⟩
  | ok => exact .inr ⟨lt_of_checkRange ranged, rfl⟩

theorem refuses_of_checkRange
    {heap : Heap} {ref : Ref} {fault : Fault} (refused : heap.checkRange ref = .error fault) :
    fault.refusesNode = true := by
  unfold checkRange at refused
  split at refused
  · cases refused
  · cases refused
    rfl

theorem refuses_of_checkWritable
    {heap : Heap} {parent : Ref} {fault : Fault}
    (refused : heap.checkWritable parent = .error fault) :
    fault.refusesNode = true := by
  unfold checkWritable at refused
  split at refused
  · rename_i reason ranged
    cases refused
    exact refuses_of_checkRange ranged
  · split at refused
    · cases refused
      rfl
    · cases refused

theorem refuses_of_checkUsable
    {heap : Heap} {ref : Ref} {fault : Fault} (refused : heap.checkUsable ref = .error fault) :
    fault.refusesNode = true := by
  unfold checkUsable at refused
  split at refused
  · cases refused
  · cases refused
    rfl

/-- The parent passes the checks that come before the allocation of a child. -/
structure Accepts (heap : Heap) (parent : Ref) : Prop where
  writable : heap.checkWritable parent = .ok ()
  usable : heap.checkUsable parent = .ok ()

/-- A parent that is turned down is turned down for what it is, and not for want of memory. -/
theorem allocateChild_of_not_accepts
    {heap : Heap} {parent : Ref} (rejected : ¬ heap.Accepts parent) (side : Side) :
    ∃ fault : Fault, fault.refusesNode = true ∧
      heap.allocateChild parent side = (.error fault, heap) := by
  unfold allocateChild
  cases writable : heap.checkWritable parent with
  | error fault => exact ⟨fault, refuses_of_checkWritable writable, rfl⟩
  | ok =>
      cases usable : heap.checkUsable parent with
      | error fault => exact ⟨fault, refuses_of_checkUsable usable, rfl⟩
      | ok => exact absurd ⟨writable, usable⟩ rejected

namespace Accepts

variable {heap : Heap} {free : List Ref} {parent : Ref}

theorem linkable (accepted : heap.Accepts parent) (shaped : heap.Shaped free)
    (available : heap.firstFree ≠ Ref.nil) :
    heap.popFree.2.Linkable parent heap.firstFree := by
  obtain ⟨inside, proper, notHead⟩ := of_checkWritable accepted.writable
  exact shaped.linkable_popFree available inside proper notHead
    (usable_of_checkUsable accepted.usable)

theorem allocateChild_of_exhausted (accepted : heap.Accepts parent)
    (exhausted : heap.firstFree = Ref.nil) (side : Side) :
    heap.allocateChild parent side = (.error .outOfMemory, heap) := by
  unfold Heap.allocateChild
  simp only [accepted.writable, accepted.usable, if_pos exhausted]

/-- Once a node has been taken, nothing keeps it from being linked. -/
theorem allocateChild_of_available (accepted : heap.Accepts parent)
    (shaped : heap.Shaped free) (available : heap.firstFree ≠ Ref.nil) (side : Side) :
    heap.allocateChild parent side =
      (.ok heap.firstFree,
        (heap.popFree.2.relink parent side heap.firstFree).reportLive) := by
  have linked := (accepted.linkable shaped available).link_eq_ok side
  unfold Heap.allocateChild
  simp only [accepted.writable, accepted.usable, if_neg available]
  rw [show heap.popFree = (heap.firstFree, heap.popFree.2) from rfl]
  simp only [linked]

end Accepts

theorem WellFormed.allocateChild_cases
    {heap : Heap} {free : List Ref} (ordered : heap.WellFormed free)
    (parent : Ref) (side : Side) :
    (∃ fault, heap.allocateChild parent side = (.error fault, heap)) ∨
      heap.firstFree ≠ Ref.nil ∧ heap.Usable parent ∧
        heap.popFree.2.Linkable parent heap.firstFree ∧
        heap.allocateChild parent side =
          (.ok heap.firstFree,
            (heap.popFree.2.relink parent side heap.firstFree).reportLive) := by
  by_cases accepted : heap.Accepts parent
  · by_cases exhausted : heap.firstFree = Ref.nil
    · exact .inl ⟨.outOfMemory, accepted.allocateChild_of_exhausted exhausted side⟩
    · exact .inr ⟨exhausted, usable_of_checkUsable accepted.usable,
        accepted.linkable ordered.toShaped exhausted,
        accepted.allocateChild_of_available ordered.toShaped exhausted side⟩
  · obtain ⟨fault, _, refused⟩ := allocateChild_of_not_accepts accepted side
    exact .inl ⟨fault, refused⟩

end Heap

end Tricolor
