import Tricolor.Proofs.Accounting
import Tricolor.Proofs.CollectorSafety
import Tricolor.Proofs.Completion
import Tricolor.Proofs.FullCycle

/-!
# Collecting everything at once

Completing the cycle in progress and then running a full one ought to leave in use
what mutators can get to, and nothing else.  One thing stands in the way: a mark made
while no cycle is in progress, or behind the reclaim pass, outlives the cycle, and the
next one takes it for a reason to retain the node and all that it leads to.
-/

namespace Tricolor

namespace Heap

/-- A grey mark that the cycle in progress, if there is one, does not get to. -/
def Lingering (heap : Heap) (ref : Ref) : Prop :=
  (heap.node ref).color = .grey ∧
    (heap.phase = .idle ∨ heap.phase = .reclaiming ∧ ref < heap.frontier)

/-- No more than the free list hangs off its head. -/
def HeadBare (heap : Heap) : Prop :=
  (heap.node Ref.freeRoot).left = Ref.nil

open Classical in
/-- The nodes that mutators can get to; the sentinel does not count. -/
noncomputable def reachableNodes (heap : Heap) : Finset Ref :=
  (Finset.range heap.capacity).filter fun ref => ref ≠ Ref.nil ∧ heap.MutatorReachable ref

/-- What mutators could get to is in use afterwards, and so is the head of the free
list, but nothing else. -/
structure Purged (before after : Heap) : Prop where
  capacity : after.capacity = before.capacity
  reachable : ∀ ref, after.MutatorReachable ref ↔ before.MutatorReachable ref
  live : ∀ ref, ref ≠ Ref.nil → ref < before.capacity →
    ((after.node ref).live = true ↔ before.MutatorReachable ref ∨ ref = Ref.freeRoot)
  freed : ∀ ref, ref ≠ Ref.nil → ref < before.capacity →
    (ref ∈ after.freeList ↔ ¬ before.MutatorReachable ref ∧ ref ≠ Ref.freeRoot)
  liveCount : after.liveCount = before.reachableNodes.card + 1

section

variable {before after heap : Heap} {free : List Ref} {request : Request} {ref : Ref}

namespace HeadBare

theorem pushed (bare : before.HeadBare) (notHead : ref ≠ Ref.freeRoot)
    (pushed : Pushed before ref after) :
    after.HeadBare := by
  have slot := pushed.child Ref.freeRoot .left
  rw [if_neg notHead.symm, if_neg (fun head => Side.noConfusion head.2)] at slot
  exact slot.trans bare

theorem popped (bare : before.HeadBare) (ordered : before.WellFormed free)
    (popped : Popped before before.firstFree after) :
    after.HeadBare := by
  have notHead : before.firstFree ≠ Ref.freeRoot := ordered.headUnlinked Ref.freeRoot .right
  have slot := popped.child Ref.freeRoot .left
  rw [if_neg notHead.symm, if_neg (fun head => Side.noConfusion head.2)] at slot
  exact slot.trans bare

theorem linked {parent target : Ref} {side : Side} (bare : before.HeadBare)
    (notHead : parent ≠ Ref.freeRoot) (linked : Linked before parent side target after) :
    after.HeadBare := by
  have slot := linked.child Ref.freeRoot .left
  rw [if_neg (fun written => notHead written.1.symm)] at slot
  exact slot.trans bare

theorem worked (bare : before.HeadBare) (worked : Worked before after) :
    after.HeadBare := by
  cases worked with
  | rest same => exact same ▸ bare
  | start resting marking same => exact (same.child Ref.freeRoot .left).trans bare
  | scan marking scanned => exact (scanned.child Ref.freeRoot .left).trans bare
  | settle marking settled same reclaiming =>
      exact (same.sameShape.child Ref.freeRoot .left).trans bare
  | @free cursor reclaiming garbage released =>
      have moved : (before.moveFrontier (cursor + 1)).HeadBare := bare
      exact moved.pushed (ne_freeRoot_of_rooted (garbage.rooted reclaiming.started)) released
  | @spare cursor reclaiming spared whitened =>
      have same := whiten_moveFrontier_sameShape before (cursor + 1) cursor
      rw [whitened]
      exact (same.child Ref.freeRoot .left).trans bare
  | finish reclaiming passed same resting =>
      exact (same.sameShape.child Ref.freeRoot .left).trans bare

theorem performed (bare : before.HeadBare) (ordered : before.WellFormed free)
    (performed : Performed before request after) :
    after.HeadBare := by
  cases performed with
  | refused => exact bare
  | allocated available popped => exact bare.popped ordered popped
  | released releasable shading guarded pushed =>
      have barred : HeadBare _ := (shading.child Ref.freeRoot .left).trans bare
      exact barred.pushed (ne_freeRoot_of_rooted releasable.rooted) pushed
  | linked linkable linked => exact bare.linked linkable.parentNotHead linked
  | grown available usable popped linkable linked =>
      exact (bare.popped ordered popped).linked linkable.parentNotHead linked
  | shaded inside shading => exact (shading.child Ref.freeRoot .left).trans bare

end HeadBare

theorem fresh_headBare (capacity : Nat) : (fresh capacity).HeadBare := by
  have slot := child_fresh capacity Ref.freeRoot .left
  rwa [if_neg (fun next => Side.noConfusion next.1)] at slot

/-- A visit of the reclaim pass erases the mark that it finds and no other. -/
theorem Reclaiming.lingering_iff {cursor : Nat} (reclaiming : before.Reclaiming cursor)
    (phase : after.phase = .reclaiming) (frontier : after.frontier = cursor + 1)
    (erased : (after.node cursor).color ≠ .grey)
    (color : ∀ ref, ref ≠ cursor → (after.node ref).color = (before.node ref).color) :
    after.Lingering ref ↔ before.Lingering ref := by
  simp only [Lingering, phase, frontier, reclaiming.phase, reclaiming.frontier, reduceCtorEq,
    true_and, false_or]
  by_cases hit : ref = cursor
  · subst hit
    exact iff_of_false (fun here => erased here.1) (fun here => Nat.lt_irrefl ref here.2)
  · rw [color ref hit]
    exact and_congr_right fun _ =>
      ⟨fun passed => Nat.lt_of_le_of_ne (Nat.le_of_lt_succ passed) hit, Nat.lt_succ_of_lt⟩

theorem Reclaiming.lingering_iff_of_free {cursor : Nat} (reclaiming : before.Reclaiming cursor)
    (garbage : before.Garbage cursor)
    (pushed : Pushed (before.moveFrontier (cursor + 1)) cursor after) :
    after.Lingering ref ↔ before.Lingering ref := by
  refine reclaiming.lingering_iff (pushed.phase.trans reclaiming.phase) pushed.frontier ?_
    fun other _ => pushed.color other
  have white : (after.node cursor).color = .white := (pushed.color cursor).trans garbage.1
  simp [white]

theorem Reclaiming.lingering_iff_of_spare {cursor : Nat} (reclaiming : before.Reclaiming cursor) :
    ((before.moveFrontier (cursor + 1)).whiten cursor).Lingering ref ↔
      before.Lingering ref := by
  have whitened := whiten_recolored (before.moveFrontier (cursor + 1)) cursor
  refine reclaiming.lingering_iff (whitened.phase.trans reclaiming.phase) whitened.frontier
    (fun grey => ?_) fun other different => ?_
  · have inside := lt_capacity_of_grey grey
    rw [whitened.capacity] at inside
    rw [color_whiten, if_pos ⟨rfl, Nat.ne_of_gt reclaiming.started, inside⟩] at grey
    exact Color.noConfusion grey
  · rw [color_whiten, if_neg (fun all => different all.1)]
    rfl

namespace Worked

/-- The collector leaves no marks behind that were not there before. -/
theorem lingering (worked : Worked before after) (lingering : after.Lingering ref) :
    before.Lingering ref := by
  cases worked with
  | rest same => exact same ▸ lingering
  | start resting marking same => simp [Lingering, marking.phase] at lingering
  | scan marking scanned => simp [Lingering, scanned.phase, marking.phase] at lingering
  | settle marking settled same reclaiming =>
      exact absurd ((congrArg Node.color (same.node ref)).symm.trans lingering.1) (settled ref)
  | free reclaiming garbage pushed =>
      exact (reclaiming.lingering_iff_of_free garbage pushed).mp lingering
  | spare reclaiming spared whitened =>
      exact reclaiming.lingering_iff_of_spare.mp (whitened ▸ lingering)
  | finish reclaiming passed same resting =>
      have grey := (congrArg Node.color (same.node ref)).symm.trans lingering.1
      refine ⟨grey, .inr ⟨reclaiming.phase, ?_⟩⟩
      rw [reclaiming.frontier]
      exact Nat.lt_of_lt_of_le (lt_capacity_of_grey grey) passed

/-- From the start of the reclaim pass to the end of the cycle such marks stay. -/
theorem lingering_of_reclaiming (worked : Worked before after)
    (pass : before.phase = .reclaiming) (lingering : before.Lingering ref) :
    after.Lingering ref := by
  cases worked with
  | rest same => exact same ▸ lingering
  | start resting marking same => simp [resting.phase] at pass
  | scan marking scanned => simp [marking.phase] at pass
  | settle marking settled same reclaiming => simp [marking.phase] at pass
  | free reclaiming garbage pushed =>
      exact (reclaiming.lingering_iff_of_free garbage pushed).mpr lingering
  | spare reclaiming spared whitened =>
      exact whitened ▸ reclaiming.lingering_iff_of_spare.mpr lingering
  | finish reclaiming passed same resting =>
      exact ⟨(congrArg Node.color (same.node ref)).trans lingering.1, .inl resting.phase⟩

end Worked

section Retained

/-- From a free node slots lead to free nodes only. -/
theorem WellFormed.mem_of_reaches (ordered : heap.WellFormed free) (member : ref ∈ free)
    {target : Ref} (reaches : heap.Reaches ref target) :
    target = Ref.nil ∨ target ∈ free := by
  refine reaches.closed (fun target => target = Ref.nil ∨ target ∈ free)
    (fun parent side here => ?_) (.inr member)
  rcases here with rfl | inFree
  · exact .inl (ordered.sentinelChild side)
  · cases side with
    | left => exact .inl (ordered.emptyLeft parent inFree)
    | right => exact ordered.chain.right_mem parent inFree

/-- From the head of the free list slots lead to free nodes only. -/
theorem HeadBare.mem_of_reaches (bare : heap.HeadBare) (ordered : heap.WellFormed free)
    {target : Ref} (reaches : heap.Reaches Ref.freeRoot target) :
    target = Ref.freeRoot ∨ target = Ref.nil ∨ target ∈ free := by
  refine reaches.closed
    (fun target => target = Ref.freeRoot ∨ target = Ref.nil ∨ target ∈ free)
    (fun parent side here => .inr ?_) (.inl rfl)
  rcases here with rfl | rfl | inFree
  · cases side with
    | left => exact .inl bare
    | right =>
        by_cases exhausted : heap.firstFree = Ref.nil
        · exact .inl exhausted
        · obtain ⟨rest, listed⟩ := ordered.exists_cons exhausted
          exact .inr (listed ▸ List.mem_cons_self)
  · exact .inl (ordered.sentinelChild side)
  · exact ordered.mem_of_reaches inFree ((Reaches.refl heap parent).child side)

/-- Without marks on nodes that mutators have lost, a cycle retains of the nodes in use
what mutators can get to. -/
theorem WellFormed.retained_iff_of_live (ordered : heap.WellFormed free) (bare : heap.HeadBare)
    (marks : ∀ grey, (heap.node grey).color = .grey → (heap.node grey).live = true →
      heap.MutatorReachable grey ∨ grey = Ref.freeRoot)
    (proper : ref ≠ Ref.nil) (live : (heap.node ref).live = true) :
    heap.Retained ref ↔ heap.MutatorReachable ref ∨ ref = Ref.freeRoot := by
  have ofHead : heap.Reaches Ref.freeRoot ref → ref = Ref.freeRoot := fun reaches =>
    (bare.mem_of_reaches ordered reaches).resolve_right
      (not_or.mpr ⟨proper, ordered.not_mem_of_live live⟩)
  constructor
  · rintro ⟨_, ⟨root, isRoot, reaches⟩ | ⟨grey, isGrey, reaches⟩⟩
    · by_cases head : root = Ref.freeRoot
      · exact .inr (ofHead (head ▸ reaches))
      · have mutatorRoot : root ∈ Ref.mutatorRoots := by
          simpa [Ref.roots, Ref.mutatorRoots, head] using isRoot
        exact .inl ⟨root, mutatorRoot, reaches⟩
    · cases used : (heap.node grey).live with
      | true =>
          rcases marks grey isGrey used with reachable | rfl
          · exact .inl (reachable.trans reaches)
          · exact .inr (ofHead reaches)
      | false =>
          rcases ordered.mem_of_reaches ((ordered.mem_iff grey).mpr used) reaches with
            sentinel | inFree
          · exact absurd sentinel proper
          · exact absurd inFree (ordered.not_mem_of_live live)
  · rintro (reachable | rfl)
    · exact ⟨proper, .inl (reachable.mono mutatorRoots_subset)⟩
    · exact .of_root (by decide)

end Retained

section Purged

variable {freeAfter : List Ref}

theorem WellFormed.lt_of_mutatorReachable (ordered : heap.WellFormed free)
    (reachable : heap.MutatorReachable ref) :
    ref < heap.capacity := by
  obtain ⟨root, isRoot, reaches⟩ := reachable
  have low : root < minCapacity := Ref.lt_of_mem_roots (mutatorRoots_subset isRoot)
  exact ordered.lt_of_reaches reaches (Nat.lt_of_lt_of_le low ordered.roomy)

theorem WellFormed.mem_reachableNodes (ordered : heap.WellFormed free) :
    ref ∈ heap.reachableNodes ↔ ref ≠ Ref.nil ∧ heap.MutatorReachable ref := by
  simp only [reachableNodes, Finset.mem_filter, Finset.mem_range, and_iff_right_iff_imp]
  exact fun member => ordered.lt_of_mutatorReachable member.2

/-- The free list and the count of live nodes follow from what is live. -/
theorem purged_of_live (ordered : before.WellFormed free) (orderedAfter : after.WellFormed freeAfter)
    (capacity : after.capacity = before.capacity)
    (reachable : ∀ ref, after.MutatorReachable ref ↔ before.MutatorReachable ref)
    (live : ∀ ref, ref ≠ Ref.nil → ref < before.capacity →
      ((after.node ref).live = true ↔ before.MutatorReachable ref ∨ ref = Ref.freeRoot)) :
    Purged before after where
  capacity := capacity
  reachable := reachable
  live := live
  freed ref proper inside := by
    rw [orderedAfter.freeList_eq, orderedAfter.mem_iff, ← Bool.not_eq_true,
      live ref proper inside, not_or]
  liveCount := by
    have nodes : after.liveNodes = insert Ref.freeRoot before.reachableNodes := by
      ext ref
      rw [liveNodes, Finset.mem_filter, Finset.mem_Ico, Finset.mem_insert,
        ordered.mem_reachableNodes, capacity]
      constructor
      · rintro ⟨⟨started, inside⟩, used⟩
        have proper : ref ≠ Ref.nil := Nat.ne_of_gt started
        exact ((live ref proper inside).mp used).symm.imp_right fun reached => ⟨proper, reached⟩
      · rintro (rfl | ⟨proper, reached⟩)
        · have inside := ordered.freeRoot_lt
          exact ⟨⟨by decide, inside⟩, (live _ (by decide) inside).mpr (.inr rfl)⟩
        · have inside := ordered.lt_of_mutatorReachable reached
          exact ⟨⟨Nat.pos_of_ne_zero proper, inside⟩, (live ref proper inside).mpr (.inl reached)⟩
    have fresh : Ref.freeRoot ∉ before.reachableNodes := by
      rw [ordered.mem_reachableNodes]
      exact fun member => ordered.ne_freeRoot_of_reachable member.2 rfl
    rw [orderedAfter.liveCount_eq, nodes, Finset.card_insert_of_notMem fresh]

end Purged

/-- What collector work may leave of a heap, however much of it there was. -/
structure Advanced (before after : Heap) : Prop where
  capacity : after.capacity = before.capacity
  usable : ∀ ref, after.Usable ref → before.Usable ref
  lingering : ∀ ref, after.Lingering ref → before.Lingering ref
  headBare : before.HeadBare → after.HeadBare
  safe : before.Safe → after.Safe
  reachable : before.Safe → ∀ ref, after.MutatorReachable ref ↔ before.MutatorReachable ref

namespace Advanced

theorem refl (heap : Heap) : Advanced heap heap where
  capacity := rfl
  usable _ usable := usable
  lingering _ lingering := lingering
  headBare bare := bare
  safe safe := safe
  reachable _ _ := Iff.rfl

theorem trans {middle : Heap} (first : Advanced before middle)
    (second : Advanced middle after) :
    Advanced before after where
  capacity := second.capacity.trans first.capacity
  usable ref usable := first.usable ref (second.usable ref usable)
  lingering ref lingering := first.lingering ref (second.lingering ref lingering)
  headBare bare := second.headBare (first.headBare bare)
  safe safe := second.safe (first.safe safe)
  reachable safe ref := (second.reachable (first.safe safe) ref).trans (first.reachable safe ref)

theorem of_worked (ordered : before.WellFormed free) (worked : Worked before after) :
    Advanced before after where
  capacity := worked.capacity
  usable _ usable := worked.usable usable
  lingering _ lingering := worked.lingering lingering
  headBare bare := bare.worked worked
  safe safe := safe.worked ordered worked
  reachable safe _ :=
    ⟨fun reached => reached.of_spared fun _ _ => worked.child_of_reachable ordered safe,
      fun ⟨root, isRoot, reaches⟩ => ⟨root, isRoot, reaches.frame fun _ _ path =>
        worked.child_of_reachable ordered safe ⟨root, isRoot, path⟩⟩⟩

end Advanced

end

end Heap

namespace Collection

theorem advanced_workStable (start : Heap) :
    WorkStable fun collection => collection.Consistent ∧ start.Advanced collection.heap :=
  workStable_of_worked fun ordered worked advanced =>
    advanced.trans (.of_worked ordered worked)

theorem WorkStable.stopTheWorld {property : Collection → Prop} {collection : Collection}
    (stable : WorkStable property) (holds : property collection) :
    property collection.stopTheWorld := by
  unfold Collection.stopTheWorld
  split
  · exact stable.reclaim (stable.reclaim holds)
  · exact stable.reclaim holds

/-- Between the cycle that was in progress and the full one the collector is at rest.
What would linger has, and nothing else has been added. -/
structure Paused (before middle : Collection) : Prop where
  consistent : middle.Consistent
  idle : middle.heap.phase = .idle
  advanced : before.heap.Advanced middle.heap
  lingering : ∀ ref, before.heap.Lingering ref → (before.heap.node ref).live = true →
    middle.heap.Lingering ref ∧ middle.heap.Usable ref

namespace Consistent

variable {collection : Collection}

/-- A marked node is not condemned. -/
theorem paused_runCycle (consistent : collection.Consistent)
    (active : collection.heap.phase ≠ .idle) :
    collection.Paused collection.runCycle.2 := by
  obtain ⟨report, _, idle⟩ :=
    consistent.runCycle_ends (mt consistent.phase_eq_idle_iff.mp active)
  obtain ⟨consistentAfter, advanced⟩ :=
    (advanced_workStable collection.heap).reclaim ⟨consistent, .refl collection.heap⟩
  refine ⟨consistentAfter, idle, advanced, fun ref lingering live => ?_⟩
  have pass : collection.heap.phase = .reclaiming :=
    (lingering.2.resolve_left active).1
  have usable : collection.heap.Usable ref :=
    ⟨live, fun condemned => Color.noConfusion (lingering.1.symm.trans condemned.2.2)⟩
  apply consistent.runCycle_of_reclaiming pass
    (fun heap => heap.Lingering ref ∧ heap.Usable ref) ?_ ⟨lingering, usable⟩
  intro before after free _ worked pass held
  exact ⟨worked.lingering_of_reclaiming pass held.1, (worked.usable_iff pass ref).mpr held.2⟩

theorem stopTheWorld_cycled (consistent : collection.Consistent) :
    ∃ middle report, collection.Paused middle ∧
      middle.heap.Cycled collection.stopTheWorld.heap report := by
  obtain ⟨middle, paused, ran⟩ : ∃ middle : Collection, collection.Paused middle ∧
      collection.stopTheWorld = middle.runCycle.2 := by
    by_cases idle : collection.heap.phase = .idle
    · refine ⟨collection, ⟨consistent, idle, .refl _, fun ref lingering live => ⟨lingering, ?_⟩⟩,
        ?_⟩
      · exact (Heap.usable_iff_live (by simp [idle]) ref).mpr live
      · rw [stopTheWorld, if_neg (by simp [idle, Phase.isActive])]
    · refine ⟨collection.runCycle.2, consistent.paused_runCycle idle, ?_⟩
      rw [stopTheWorld, if_pos (by simpa [Phase.isActive] using idle)]
  obtain ⟨free, ordered⟩ := paused.consistent.ordered
  obtain ⟨report, after, reported, cycled⟩ := runCycle_reports paused.consistent ordered
    (paused.consistent.phase_eq_idle_iff.mpr paused.idle)
  refine ⟨middle, report, paused, ?_⟩
  rw [ran, reported]
  exact cycled

/-- With nothing lost but marked, the full cycle releases all that is lost. -/
theorem purged_stopTheWorld (consistent : collection.Consistent)
    (bare : collection.heap.HeadBare) (safe : collection.heap.Safe)
    (marks : ∀ ref, collection.heap.Lingering ref → (collection.heap.node ref).live = true →
      collection.heap.MutatorReachable ref ∨ ref = Ref.freeRoot) :
    collection.heap.Purged collection.stopTheWorld.heap := by
  obtain ⟨middle, report, paused, cycled⟩ := consistent.stopTheWorld_cycled
  obtain ⟨consistentAfter, advanced⟩ :=
    (advanced_workStable collection.heap).stopTheWorld ⟨consistent, .refl collection.heap⟩
  obtain ⟨free, ordered⟩ := consistent.ordered
  obtain ⟨freeMiddle, orderedMiddle⟩ := paused.consistent.ordered
  obtain ⟨freeAfter, orderedAfter⟩ := consistentAfter.ordered
  have calm : middle.heap.phase ≠ .reclaiming := by simp [paused.idle]
  have same := paused.advanced.reachable safe
  have marksMiddle : ∀ grey, (middle.heap.node grey).color = .grey →
      (middle.heap.node grey).live = true →
      middle.heap.MutatorReachable grey ∨ grey = Ref.freeRoot := by
    intro grey isGrey live
    have lingering := paused.advanced.lingering grey ⟨isGrey, .inl paused.idle⟩
    have usable := paused.advanced.usable grey ((Heap.usable_iff_live calm grey).mpr live)
    exact (marks grey lingering usable.1).imp_left (same grey).mpr
  refine Heap.purged_of_live ordered orderedAfter advanced.capacity (advanced.reachable safe)
    fun ref proper inside => ?_
  have retained : (middle.heap.node ref).live = true →
      (middle.heap.Retained ref ↔ collection.heap.MutatorReachable ref ∨ ref = Ref.freeRoot) := by
    intro live
    rw [orderedMiddle.retained_iff_of_live (paused.advanced.headBare bare) marksMiddle proper live,
      same]
  rw [cycled.live ref proper (paused.advanced.capacity ▸ inside)]
  constructor
  · exact fun kept => (retained kept.1).mp kept.2
  · intro wanted
    have live : (middle.heap.node ref).live = true := by
      rcases wanted with reachable | rfl
      · exact (paused.advanced.safe safe ref ((same ref).mpr reachable)).1
      · exact orderedMiddle.live_of_lt (by decide)
    exact ⟨live, (retained live).mpr wanted⟩

/-- Nothing that mutators could get to was free or condemned, for the collector would
not have made it usable. -/
theorem safe_of_purged (consistent : collection.Consistent)
    (purged : collection.heap.Purged collection.stopTheWorld.heap) :
    collection.heap.Safe := by
  obtain ⟨middle, report, paused, cycled⟩ := consistent.stopTheWorld_cycled
  obtain ⟨_, advanced⟩ :=
    (advanced_workStable collection.heap).stopTheWorld ⟨consistent, .refl collection.heap⟩
  obtain ⟨free, ordered⟩ := consistent.ordered
  intro ref reachable
  by_cases sentinel : ref = Ref.nil
  · rw [sentinel]
    exact ordered.usable_nil
  · have inside := ordered.lt_of_mutatorReachable reachable
    have live := (purged.live ref sentinel inside).mpr (.inl reachable)
    have calm : collection.stopTheWorld.heap.phase ≠ .reclaiming := by simp [cycled.phase]
    exact advanced.usable ref ((Heap.usable_iff_live calm ref).mpr live)

/-- A mark that lingers would have been taken for a reason to retain the node. -/
theorem marks_of_purged (consistent : collection.Consistent)
    (purged : collection.heap.Purged collection.stopTheWorld.heap) {ref : Ref}
    (lingering : collection.heap.Lingering ref) (live : (collection.heap.node ref).live = true) :
    collection.heap.MutatorReachable ref ∨ ref = Ref.freeRoot := by
  obtain ⟨middle, report, paused, cycled⟩ := consistent.stopTheWorld_cycled
  obtain ⟨free, ordered⟩ := consistent.ordered
  obtain ⟨freeMiddle, orderedMiddle⟩ := paused.consistent.ordered
  obtain ⟨lingers, usable⟩ := paused.lingering ref lingering live
  have proper := ordered.ne_nil_of_grey lingering.1
  have inside := Heap.lt_capacity_of_grey lingering.1
  have kept := (cycled.live ref proper (paused.advanced.capacity ▸ inside)).mpr
    ⟨usable.1, orderedMiddle.retained_of_grey lingers.1⟩
  exact (purged.live ref proper inside).mp kept

end Consistent

end Collection

namespace Session

theorem headBare_invariant : HeapInvariant (fun _ _ => True) Heap.HeadBare where
  worked _ worked bare := bare.worked worked
  performed ordered performed _ bare := bare.performed ordered performed
  dropped _ same _ bare := (same.child Ref.freeRoot .left).trans bare
  retry _ _ := trivial

/-- Whatever has been asked for before, and wherever the collector stands, collecting
everything leaves in use what mutators can get to and nothing else, if and only if
what they can get to is usable, and what they cannot get to bears no lingering mark. -/
theorem run_purged_iff
    {capacity : Nat} {initial : Heap} {requests : List Request}
    (built : Heap.ofCapacity capacity = .ok initial) :
    let session := (ofHeap initial).run requests
    session.heap.Purged session.collection.stopTheWorld.heap ↔
      session.heap.Safe ∧
        ∀ ref, session.heap.Lingering ref → (session.heap.node ref).live = true →
          session.heap.MutatorReachable ref ∨ ref = Ref.freeRoot := by
  intro session
  have start : (ofHeap initial).heap.HeadBare := by
    obtain ⟨_, rfl⟩ := Heap.of_ofCapacity built
    exact Heap.fresh_headBare capacity
  obtain ⟨consistent, bare⟩ : session.collection.Consistent ∧ session.collection.heap.HeadBare :=
    headBare_invariant.preserves.run (obeys_anything _ requests) ⟨consistent_ofHeap built, start⟩
  constructor
  · exact fun purged =>
      ⟨consistent.safe_of_purged purged, fun _ => consistent.marks_of_purged purged⟩
  · exact fun ⟨safe, marks⟩ => consistent.purged_stopTheWorld bare safe marks

/-- A root is shaded behind the reclaim pass, which has released node 4 by then. -/
theorem run_purged_iff_shaded_root :
    let requests : List Request :=
      [.attach, .allocateChild 1 .left, .setChild 1 .left 0, .sweep, .step 2,
        .allocateChild 2 .left, .step 2, .shade 1]
    let session := (ofHeap (Heap.fresh 6)).run requests
    Heap.ofCapacity 6 = .ok (Heap.fresh 6) ∧ session.heap.Lingering 1 ∧
      session.heap.Purged session.collection.stopTheWorld.heap := by
  intro requests session
  have built : Heap.ofCapacity 6 = .ok (Heap.fresh 6) := rfl
  have first : ∀ heap : Heap, heap.MutatorReachable 1 := fun _ => .root (by decide)
  have second : ∀ heap : Heap, heap.MutatorReachable 2 := fun _ => .root (by decide)
  have disciplined : (ofHeap (Heap.fresh 6)).Obeys Heap.Disciplined requests :=
    ⟨trivial, first _, ⟨first _, .inl rfl⟩, trivial, trivial, second _, trivial, first _, trivial⟩
  have safe : session.heap.Safe :=
    (safe_invariant.preserves.run disciplined
      ⟨consistent_ofHeap built, Heap.fresh_safe (by decide)⟩).2
  have only : ∀ ref < 6, (session.heap.node ref).color = .grey → ref < session.heap.frontier →
      ref = 1 := by decide
  have lingering : session.heap.Lingering 1 := ⟨by decide, .inr (by decide)⟩
  refine ⟨built, lingering, (run_purged_iff built).mpr ⟨safe, fun ref lingers _ => .inl ?_⟩⟩
  have inside : ref < 6 := Heap.lt_capacity_of_grey lingers.1
  have passed : ref < session.heap.frontier := (lingers.2.resolve_left (by decide)).2
  exact only ref inside lingers.1 passed ▸ first _

/-- Node 4 is shaded while no cycle is in progress, and then it is lost.  Collecting
everything leaves it in use all the same. -/
theorem run_not_purged_shaded_at_rest :
    let requests : List Request :=
      [.attach, .allocateChild 1 .left, .shade 4, .setChild 1 .left 0]
    let session := (ofHeap (Heap.fresh 5)).run requests
    (ofHeap (Heap.fresh 5)).Obeys Heap.Disciplined requests ∧
      ¬ session.heap.Purged session.collection.stopTheWorld.heap := by
  intro requests session
  have first : ∀ heap : Heap, heap.MutatorReachable 1 := fun _ => .root (by decide)
  refine ⟨⟨trivial, first _, ?_, ⟨first _, .inl rfl⟩, trivial⟩, fun purged => ?_⟩
  · exact (first _).child .left
  · have live : (session.collection.stopTheWorld.heap.node 4).live = true := by decide
    have empty : ∀ ref < 3, ∀ side ∈ Side.both, (session.heap.node ref).child side = 0 := by
      decide
    have lost : ¬ session.heap.MutatorReachable 4 := by
      intro reachable
      have low : (4 : Ref) < 3 := reachable.closed (· < 3)
        (fun parent side here => by rw [empty parent here side side.mem_both]; decide)
        (by decide)
      exact absurd low (by decide)
    rcases (purged.live 4 (by decide) (by decide)).mp live with reachable | head
    · exact lost reachable
    · exact absurd head (by decide)

end Session

end Tricolor
