import Tricolor.Proofs.SessionRuns

/-!
# Mutators at any point of a cycle

A mutator may name any reference at any time.  `Performed` lists what becomes of
its request: a refused one leaves no trace, and a granted one writes slots in
ways that keep the heap in order and keep the promises of the phase.  Together
with the collector's own work this makes every run consistent.
-/

namespace Tricolor

namespace Heap

/-- What a mutator's request does to the heap. -/
inductive Performed (before : Heap) : Request → Heap → Prop where
  | refused {request : Request} : Performed before request before
  | allocated {after : Heap} :
      before.firstFree ≠ Ref.nil → Popped before before.firstFree after →
      Performed before .allocate after
  | released {ref : Ref} {barred after : Heap} :
      before.Releasable ref → Shaded before barred →
      (before.phase = .marking → (before.node Ref.freeRoot).color = .black →
        (barred.node ref).color ≠ .white) →
      Pushed barred ref after →
      Performed before (.release ref) after
  | linked {parent child : Ref} {side : Side} {after : Heap} :
      before.Linkable parent child → Linked before parent side child after →
      Performed before (.setChild parent side child) after
  | grown {parent : Ref} {side : Side} {middle after : Heap} :
      before.firstFree ≠ Ref.nil → before.Usable parent →
      Popped before before.firstFree middle →
      middle.Linkable parent before.firstFree →
      Linked middle parent side before.firstFree after →
      Performed before (.allocateChild parent side) after
  | shaded {ref : Ref} {after : Heap} :
      ref < before.capacity → Shaded before after →
      Performed before (.shade ref) after

theorem WellFormed.performed
    {heap : Heap} {free : List Ref} {request : Request} {change : Heap → Heap}
    (ordered : heap.WellFormed free) (performs : request.mutation? = some change) :
    Performed heap request (change heap) := by
  cases request with
  | allocate =>
      cases performs
      change Performed heap _ heap.allocate.2
      rcases heap.allocate_cases with ⟨_, same⟩ | ⟨available, popped⟩
      · rw [same]
        exact .refused
      · rw [popped]
        exact .allocated available ((ordered.popped_popFree available).report _)
  | release ref =>
      cases performs
      change Performed heap _ (heap.release ref).2
      rcases heap.release_cases ref with ⟨fault, same⟩ | ⟨releasable, released⟩
      · rw [same]
        exact .refused
      · have shading := insertionBarrier_shaded heap Ref.freeRoot ref
        have pushed := (ordered.shaded shading).pushed_pushFree releasable.rooted
          (shading.capacity ▸ releasable.inside)
        rw [released]
        refine .released releasable shading (fun marking black => ?_) (pushed.report _)
        exact insertionBarrier_not_white (ne_nil_of_rooted releasable.rooted) marking black
  | setChild parent side child =>
      cases performs
      change Performed heap _ (heap.setChild parent side child).2
      rcases heap.setChild_cases parent side child with ⟨fault, same⟩ | ⟨linkable, linked⟩
      · rw [same]
        exact .refused
      · rw [linked]
        exact .linked linkable (linkable.linked side)
  | allocateChild parent side =>
      cases performs
      change Performed heap _ (heap.allocateChild parent side).2
      rcases ordered.allocateChild_cases parent side with
        ⟨fault, same⟩ | ⟨available, usable, linkable, allocated⟩
      · rw [same]
        exact .refused
      · rw [allocated]
        exact .grown available usable (ordered.popped_popFree available) linkable
          ((linkable.linked side).report _)
  | shade ref =>
      cases performs
      change Performed heap _ (heap.shadeNode ref).2
      rcases heap.shadeNode_cases ref with ⟨fault, same⟩ | ⟨inside, shaded⟩
      · rw [same]
        exact .refused
      · rw [shaded]
        exact .shaded inside (shade_shaded heap ref)
  | _ => cases performs

theorem WellFormed.exists_popped
    {before after : Heap} {free : List Ref} (ordered : before.WellFormed free)
    (available : before.firstFree ≠ Ref.nil) (popped : Popped before before.firstFree after) :
    CycleKept before after ∧ ∃ rest, after.WellFormed rest := by
  obtain ⟨rest, listed⟩ := ordered.exists_cons available
  have orderedCons : before.WellFormed (before.firstFree :: rest) := listed ▸ ordered
  have rooted := orderedCons.rootFree before.firstFree (by simp)
  exact ⟨popped.cycleKept ordered.sentinelBlack rooted, rest, orderedCons.popped popped⟩

/-- Whatever a mutator asks for, the heap stays in order and the promises of
the phase are kept. -/
theorem Performed.kept
    {before after : Heap} {free : List Ref} {request : Request}
    (performed : Performed before request after) (ordered : before.WellFormed free) :
    CycleKept before after ∧ ∃ free, after.WellFormed free := by
  cases performed with
  | refused => exact ⟨CycleKept.refl before, free, ordered⟩
  | allocated available popped => exact ordered.exists_popped available popped
  | released releasable shading guarded pushed =>
      have live := (shading.live _).trans releasable.live
      have inside := shading.capacity ▸ releasable.inside
      refine ⟨shading.cycleKept.trans (pushed.cycleKept ?_ fun marking black => ?_),
        _, (ordered.shaded shading).pushed live releasable.rooted inside pushed⟩
      · rw [ne_eq, (shading.color _).black_iff, releasable.white]
        exact Color.noConfusion
      · exact guarded (shading.phase.symm.trans marking)
          ((shading.color Ref.freeRoot).black_iff.mp black)
  | linked linkable linked =>
      exact ⟨linked.cycleKept ordered.sentinelBlack, free, ordered.linked linkable linked⟩
  | grown available usable popped linkable linked =>
      obtain ⟨kept, rest, orderedPopped⟩ := ordered.exists_popped available popped
      exact ⟨kept.trans (linked.cycleKept orderedPopped.sentinelBlack),
        rest, orderedPopped.linked linkable linked⟩
  | shaded inside shading => exact ⟨shading.cycleKept, free, ordered.shaded shading⟩

end Heap

namespace Collection.Consistent

variable {heap : Heap} {collector : Collector}

theorem mutation (consistent : Consistent ⟨heap, collector⟩) {request : Request}
    {change : Heap → Heap} (performs : request.mutation? = some change) :
    Consistent ⟨change heap, collector⟩ := by
  obtain ⟨⟨free, ordered⟩, inPhase⟩ := consistent
  obtain ⟨kept, orderedAfter⟩ := (ordered.performed performs).kept ordered
  exact ⟨orderedAfter, kept.inPhase inPhase⟩

theorem attach (consistent : Consistent ⟨heap, {}⟩) :
    (Collection.attach heap).Consistent := by
  rw [consistent.attach_eq]
  exact consistent

end Collection.Consistent

namespace Session

theorem consistent_preserved : Preserves (fun _ _ => True) Collection.Consistent where
  toWorkStable := Collection.consistent_workStable
  mutation performs _ consistent := consistent.mutation performs
  retry _ _ := trivial
  attach := Collection.Consistent.attach
  detach _ consistent := consistent.detach.2

theorem obeys_anything (session : Session) (requests : List Request) :
    Obeys (fun _ _ => True) session requests := by
  induction requests generalizing session with
  | nil => trivial
  | cons request requests induction => exact ⟨trivial, induction _⟩

/-- No admitted request breaks a property of heaps, provided that the heap is in
order and agrees with where its collector stands. -/
structure HeapInvariant (admits : Heap → Request → Prop) (property : Heap → Prop) : Prop where
  worked : ∀ {before after : Heap} {free : List Ref}, before.WellFormed free →
    Heap.Worked before after → property before → property after
  performed : ∀ {before after : Heap} {free : List Ref} {request : Request},
    before.WellFormed free → Heap.Performed before request after →
    admits before request → property before → property after
  dropped : ∀ {before after : Heap}, admits before .detach →
    Heap.SameShape before after → after.Resting → property before → property after
  retry : ∀ {heap : Heap} {parent : Ref} {side : Side} {handle : Option Nat},
    admits heap (.allocateChildOrCollect parent side handle) →
    ∀ retried : Heap, admits retried (.allocateChild parent side)

theorem HeapInvariant.preserves
    {admits : Heap → Request → Prop} {property : Heap → Prop}
    (invariant : HeapInvariant admits property) :
    Preserves admits fun collection =>
      collection.Consistent ∧ property collection.heap where
  toWorkStable := Collection.workStable_of_worked invariant.worked
  mutation := by
    intro heap collector request change performs admitted held
    obtain ⟨free, ordered⟩ := held.1.ordered
    exact ⟨held.1.mutation performs,
      invariant.performed ordered (ordered.performed performs) admitted held.2⟩
  retry := invariant.retry
  attach := by
    intro heap held
    rw [held.1.attach_eq]
    exact held
  detach := by
    intro collection admitted held
    obtain ⟨same, consistent⟩ := held.1.detach
    exact ⟨consistent, invariant.dropped admitted same consistent.inPhase held.2⟩

end Session

end Tricolor
