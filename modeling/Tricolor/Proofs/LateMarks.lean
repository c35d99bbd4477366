import Tricolor.Proofs.Recovery

/-!
# Where the marks between two cycles come from

A cycle erases the marks of the nodes that it keeps when it passes them on its way to
reclaim the others.  What is grey at rest has therefore been shaded since: while no cycle
was in progress, or behind the reclaim pass of the last one.  No other operation of a
mutator leaves such a mark.
-/

namespace Tricolor

namespace Heap

/-- A mark made on the node now outlives the cycle in progress, if there is one. -/
def Late (heap : Heap) (ref : Ref) : Prop :=
  heap.phase = .idle ∨ heap.phase = .reclaiming ∧ ref < heap.frontier

section

variable {before after heap : Heap} {free : List Ref} {ref : Ref}

theorem Late.not_marking (late : heap.Late ref) : heap.phase ≠ .marking := by
  intro marking
  rcases late with idle | ⟨pass, _⟩
  · exact Phase.noConfusion (idle.symm.trans marking)
  · exact Phase.noConfusion (pass.symm.trans marking)

theorem SameCycle.late_iff (same : SameCycle before after) :
    after.Late ref ↔ before.Late ref := by
  simp only [Late, same.phase, same.frontier]

/-- A node handed out behind the reclaim pass is white. -/
theorem Popped.grey_of_late {first : Ref} (popped : Popped before first after)
    (late : before.Late ref) (grey : (after.node ref).color = .grey) :
    (before.node ref).color = .grey := by
  by_cases hit : ref = first
  · have ahead : ¬ (before.phase = .marking ∨
        before.phase = .reclaiming ∧ before.frontier ≤ first) := by
      rintro (marking | ⟨pass, ahead⟩)
      · exact late.not_marking marking
      · rcases late with idle | ⟨_, behind⟩
        · exact Phase.noConfusion (idle.symm.trans pass)
        · exact Nat.not_le_of_gt (hit ▸ behind) ahead
    rw [hit, popped.firstColor, if_neg ahead] at grey
    exact Color.noConfusion grey
  · rwa [popped.quiet late.not_marking ref hit] at grey

/-- No operation of a mutator but shading the node leaves a late mark on it. -/
theorem WellFormed.grey_of_mutation {request : Request} {change : Heap → Heap}
    (ordered : heap.WellFormed free) (performs : request.mutation? = some change)
    (late : heap.Late ref) (grey : ((change heap).node ref).color = .grey) :
    (heap.node ref).color = .grey ∨ request = .shade ref := by
  have quiet := late.not_marking
  cases request with
  | allocate =>
      cases performs
      left
      rcases heap.allocate_cases with ⟨_, same⟩ | ⟨available, popped⟩
      · simpa only [same] using grey
      · simp only [popped] at grey
        exact (ordered.popped_popFree available).grey_of_late late grey
  | release released =>
      cases performs
      left
      rcases heap.release_cases released with ⟨_, same⟩ | ⟨releasable, pushed⟩
      · simpa only [same] using grey
      · simp only [pushed, insertionBarrier_of_not_marking quiet] at grey
        have color := (ordered.pushed_pushFree releasable.rooted releasable.inside).color ref
        exact color.symm.trans grey
  | setChild parent side child =>
      cases performs
      left
      rcases heap.setChild_cases parent side child with ⟨_, same⟩ | ⟨linkable, linked⟩
      · simpa only [same] using grey
      · simp only [linked] at grey
        exact ((linked_relink linkable.parentInside side child).quiet quiet ref).symm.trans grey
  | allocateChild parent side =>
      cases performs
      left
      rcases ordered.allocateChild_cases parent side with
        ⟨_, same⟩ | ⟨available, _, linkable, grown⟩
      · simpa only [same] using grey
      · simp only [grown] at grey
        have popped := ordered.popped_popFree available
        have linked := linked_relink linkable.parentInside side heap.firstFree
        apply popped.grey_of_late late
        have calm : heap.popFree.2.phase ≠ .marking := popped.phase ▸ quiet
        exact (linked.quiet calm ref).symm.trans grey
  | shade shaded =>
      cases performs
      by_cases hit : ref = shaded
      · exact .inr (hit ▸ rfl)
      · left
        rcases heap.shadeNode_cases shaded with ⟨_, same⟩ | ⟨_, same⟩
        · simpa only [same] using grey
        · simp only [same, color_shade, hit, false_and, if_false] at grey
          exact grey
  | allocateChildOrCollect | attach | detach | markRoots | sweep | step | reclaim | runCycle
  | spawn | stop | requestCycle | requestAndWait => cases performs

end

theorem fresh_not_lingering (capacity : Nat) (ref : Ref) : ¬ (fresh capacity).Lingering ref := by
  intro lingering
  have grey := lingering.1
  rw [color_fresh] at grey
  split at grey <;> exact Color.noConfusion grey

/-- The late marks are those of the start, and no cycle has been started since. -/
def Inherits (start heap : Heap) : Prop :=
  ∀ ref, heap.Lingering ref → start.Lingering ref ∧ heap.cyclesStarted = start.cyclesStarted

end Heap

namespace Collection

variable {collection : Collection}

/-- Only the start of a cycle is counted. -/
theorem numbers_visit (collection : Collection) :
    collection.visit.heap.cyclesStarted = collection.heap.cyclesStarted ∧
      collection.visit.collector.current.cycle = collection.collector.current.cycle := by
  obtain ⟨heap, collector⟩ := collection
  unfold visit
  cases position : collector.position with
  | idle => exact ⟨rfl, rfl⟩
  | sweeping cursor clean =>
      by_cases expired : clean = 0
      · simp only [expired, if_true, tryQuiesce]
        split <;> exact ⟨rfl, rfl⟩
      · simp only [expired, if_false]
        by_cases grey : (heap.node cursor).color = .grey
        · rw [sweepVisit_of_grey grey]
          exact ⟨(Heap.scanned_scan grey).cyclesStarted, rfl⟩
        · rw [sweepVisit_of_not_grey grey]
          exact ⟨rfl, rfl⟩
  | reclaiming cursor =>
      simp only [reclaimVisit]
      split
      · exact ⟨rfl, rfl⟩
      · exact ⟨(Heap.whiten_recolored ..).cyclesStarted, rfl⟩

theorem cyclesStarted_markRoots
    (idle : collection.collector.position = .idle) :
    collection.markRoots.heap.cyclesStarted = collection.heap.cyclesStarted + 1 := by
  obtain ⟨heap, collector⟩ := collection
  rw [markRoots_of_idle idle]
  exact congrArg (· + 1) (Heap.shadeAll_recolored heap Ref.roots).cyclesStarted

/-- Collector work leaves no late mark that was not there when it began. -/
theorem inherits_workStable (start : Heap) :
    WorkStable fun collection => collection.Consistent ∧ start.Inherits collection.heap where
  markRoots := by
    intro collection held
    obtain ⟨consistent, inherits⟩ := held
    refine ⟨consistent.markRoots.consistent, fun ref lingering => ?_⟩
    by_cases idle : collection.collector.position = .idle
    · have marking := (started_markRoots idle).phase
      exact absurd marking (Heap.Late.not_marking lingering.2)
    · rw [markRoots_of_active idle] at lingering ⊢
      exact inherits ref lingering
  visit := by
    intro collection held pending
    have advanced := held.1.visit pending
    refine ⟨advanced.consistent, fun ref lingering => ?_⟩
    rw [collection.numbers_visit.1]
    exact held.2 ref (advanced.worked.lingering lingering)
  finish := by
    intro collection held spent
    have advanced := held.1.finish spent
    exact ⟨advanced.consistent, fun ref lingering =>
      held.2 ref (advanced.worked.lingering lingering)⟩

end Collection

namespace Session

/-- So does all else but shading. -/
theorem inherits_preserved (start : Heap) :
    Preserves (fun _ request => ∀ ref, request ≠ .shade ref)
      fun collection => collection.Consistent ∧ start.Inherits collection.heap where
  toWorkStable := Collection.inherits_workStable start
  mutation := by
    intro heap collector request change performs notShade held
    obtain ⟨free, ordered⟩ := held.1.ordered
    have kept := ((ordered.performed performs).kept ordered).1
    refine ⟨held.1.mutation performs, fun ref lingering => ?_⟩
    have late := kept.toSameCycle.late_iff.mp lingering.2
    have grey := (ordered.grey_of_mutation performs late lingering.1).resolve_right (notShade ref)
    rw [kept.cyclesStarted]
    exact held.2 ref ⟨grey, late⟩
  retry _ _ _ := Request.noConfusion
  attach := by
    intro heap held
    rw [held.1.attach_eq]
    exact held
  detach := by
    intro collection _ held
    refine ⟨held.1.detach.2, ?_⟩
    unfold Collection.detach
    split
    · exact held.2
    · rename_i active
      obtain ⟨free, ordered⟩ := held.1.ordered
      have unmarked := ordered.unmarked_abandonCycle
        (mt held.1.phase_eq_idle_iff.mpr active)
      exact fun ref lingering =>
        absurd lingering (unmarked.not_lingering ordered.abandonCycle ref)

/-- The node was shaded at some point of the run when the mark was late, and no cycle has
been started since. -/
def ShadedLate (session : Session) (requests : List Request) (ref : Ref) : Prop :=
  ∃ before after, requests = before ++ .shade ref :: after ∧
    (session.run before).heap.Late ref ∧
    (session.run before).heap.cyclesStarted = (session.run requests).heap.cyclesStarted

theorem ShadedLate.snoc {session : Session} {requests : List Request} {request : Request}
    {ref : Ref} (shaded : session.ShadedLate requests ref)
    (same : (session.run (requests ++ [request])).heap.cyclesStarted =
      (session.run requests).heap.cyclesStarted) :
    session.ShadedLate (requests ++ [request]) ref := by
  obtain ⟨before, after, split, late, counted⟩ := shaded
  refine ⟨before, after ++ [request], ?_, late, counted.trans same.symm⟩
  rw [split, List.append_assoc, List.cons_append]

/-- One request adds late marks only if it shades the node. -/
theorem lingering_apply {session : Session} {request : Request} {ref : Ref}
    (consistent : session.collection.Consistent)
    (lingering : (session.apply request).2.heap.Lingering ref) :
    (session.apply request).2.heap.cyclesStarted = session.heap.cyclesStarted ∧
      (session.heap.Lingering ref ∨ request = .shade ref ∧ session.heap.Late ref) := by
  by_cases shading : ∃ shaded, request = .shade shaded
  · obtain ⟨shaded, rfl⟩ := shading
    obtain ⟨free, ordered⟩ := consistent.ordered
    have performs : (Request.shade shaded).mutation? =
        some fun heap => (heap.shadeNode shaded).2 := rfl
    have same : (session.apply (.shade shaded)).2.heap = (session.heap.shadeNode shaded).2 :=
      congrArg Session.heap (mutate_snd ..)
    rw [same] at lingering ⊢
    have kept := ((ordered.performed performs).kept ordered).1
    have late := kept.toSameCycle.late_iff.mp lingering.2
    refine ⟨kept.cyclesStarted, ?_⟩
    rcases ordered.grey_of_mutation performs late lingering.1 with grey | here
    · exact .inl ⟨grey, late⟩
    · exact .inr ⟨here, late⟩
  · have notShade : ∀ shaded, request ≠ .shade shaded := not_exists.mp shading
    have inherited := (inherits_preserved session.heap).apply notShade
      ⟨consistent, fun _ lingering => ⟨lingering, rfl⟩⟩
    obtain ⟨before, same⟩ := inherited.2 ref lingering
    exact ⟨same, .inl before⟩

/-- Whatever is asked for, a late mark goes back to a request to shade the node. -/
theorem shadedLate_of_lingering {session : Session} (consistent : session.collection.Consistent)
    (unmarked : ∀ ref, ¬ session.heap.Lingering ref) {requests : List Request} {ref : Ref}
    (lingering : (session.run requests).heap.Lingering ref) :
    session.ShadedLate requests ref := by
  induction requests using List.reverseRecOn with
  | nil => exact absurd lingering (unmarked ref)
  | append_singleton requests request induction =>
      have last : session.run (requests ++ [request]) =
          ((session.run requests).apply request).2 := by
        rw [run_append]
        rfl
      have consistentBefore : (session.run requests).collection.Consistent :=
        consistent_preserved.run (obeys_anything session requests) consistent
      obtain ⟨same, origin⟩ := lingering_apply consistentBefore (last ▸ lingering)
      rw [← last] at same
      rcases origin with before | ⟨rfl, late⟩
      · exact (induction before).snoc same
      · exact ⟨requests, [], rfl, late, same.symm⟩

/-- So does every mark that a run leaves when it comes to rest. -/
theorem shadedLate_of_grey {capacity : Nat} {initial : Heap} {requests : List Request} {ref : Ref}
    (built : Heap.ofCapacity capacity = .ok initial)
    (idle : ((ofHeap initial).run requests).heap.phase = .idle)
    (grey : (((ofHeap initial).run requests).heap.node ref).color = .grey) :
    (ofHeap initial).ShadedLate requests ref := by
  have unmarked : ∀ ref, ¬ (ofHeap initial).heap.Lingering ref := by
    obtain ⟨_, rfl⟩ := Heap.of_ofCapacity built
    exact Heap.fresh_not_lingering capacity
  exact shadedLate_of_lingering (consistent_ofHeap built) unmarked ⟨grey, .inl idle⟩

end Session

end Tricolor
