import Tricolor.Proofs.Handles
import Tricolor.Proofs.Transparency

/-!
# Collecting when memory has run out

A mutator with a background collector to turn to does not give up when no node is free.  It asks
for a cycle and tries again, and the second attempt fails only if the cycle had nothing to
release: all memory is in use and is led to by a root, or by a node that was marked before the
cycle began.  That the parent is still there after the cycle is the collector's promise to
whoever names only what can be got to.
-/

namespace Tricolor

namespace Heap

/-- No node is free, and a cycle would release none. -/
structure Full (heap : Heap) : Prop where
  exhausted : heap.freeList = []
  retained : ∀ ref, minCapacity ≤ ref → ref < heap.capacity → heap.Retained ref

/-- All that mutators could get to is still in use, and its slots lead to where they led, except
for those that have been written. -/
structure Keeps (before after : Heap) (written : Ref → Side → Prop) : Prop where
  live : ∀ ref, before.MutatorReachable ref → (after.node ref).live = true
  child : ∀ ref side, before.MutatorReachable ref → ¬ written ref side →
    (after.node ref).child side = (before.node ref).child side

/-- A node that mutators could not get to has become an empty child of `parent`, and no other
slot has been written. -/
structure Adopted (before : Heap) (parent : Ref) (side : Side) (ref : Ref) (after : Heap) :
    Prop where
  fresh : ¬ before.MutatorReachable ref
  live : (after.node ref).live = true
  empty : ∀ slot, (after.node ref).child slot = Ref.nil
  linked : (after.node parent).child side = ref
  kept : before.Keeps after fun other slot => other = parent ∧ slot = side

variable {before middle after heap : Heap} {free freeAfter : List Ref} {parent ref : Ref}
  {side : Side}

/-- As long as a node is free, it is adopted by any parent that mutators can get to. -/
theorem Safe.adopted_allocateChild (safe : heap.Safe) (ordered : heap.WellFormed free)
    (reachable : heap.MutatorReachable parent) (accepted : heap.Accepts parent)
    (available : heap.firstFree ≠ Ref.nil) (side : Side) :
    ∃ ref after, heap.allocateChild parent side = (.ok ref, after) ∧
      heap.Adopted parent side ref after := by
  have popped := ordered.popped_popFree available
  have linkable := accepted.linkable ordered.toShaped available
  have linked := (linkable.linked side).report
    (.liveNodes (heap.popFree.2.relink parent side heap.firstFree).liveCount)
  have different : ∀ other, heap.MutatorReachable other → other ≠ heap.firstFree :=
    fun _ reached => safe.ne_firstFree ordered available reached
  refine ⟨heap.firstFree, _,
    accepted.allocateChild_of_available ordered.toShaped available side, ?_⟩
  refine
    { fresh := fun reached => different _ reached rfl
      live := ?_
      empty := fun slot => ?_
      linked := ?_
      kept := ⟨fun other reached => ?_, fun other slot reached unwritten => ?_⟩ }
  · rw [Heap.reportLive, linked.live, popped.live, if_pos rfl]
  · have notParent := (different parent reachable).symm
    rw [Heap.reportLive, linked.child, if_neg (fun hit => notParent hit.1), popped.child,
      if_pos rfl]
  · rw [Heap.reportLive, linked.child, if_pos ⟨rfl, rfl⟩]
  · rw [Heap.reportLive, linked.live, popped.live, if_neg (different other reached)]
    exact (safe other reached).1
  · have notHead := ordered.ne_freeRoot_of_reachable reached
    rw [Heap.reportLive, linked.child, if_neg unwritten, popped.child,
      if_neg (different other reached), if_neg (fun head => notHead head.1)]

/-- A cycle spares what mutators can get to. -/
theorem Cycled.keeps {report : CycleReport} (cycled : before.Cycled after report)
    (advanced : before.Advanced after) (ordered : before.WellFormed free)
    (orderedAfter : after.WellFormed freeAfter) (safe : before.Safe) :
    before.Keeps after fun _ _ => False where
  live ref reachable := by
    exact (advanced.safe safe ref ((advanced.reachable safe ref).mpr reachable)).1
  child ref side reachable _ := by
    by_cases sentinel : ref = Ref.nil
    · rw [sentinel, orderedAfter.sentinelChild, ordered.sentinelChild]
    · have notHead := ordered.ne_freeRoot_of_reachable reachable
      exact cycled.child ref side ⟨sentinel, .inl (reachable.mono mutatorRoots_subset)⟩
        fun head => notHead head.1

/-- A node that is adopted after the collector's work is adopted all in all. -/
theorem Keeps.adopted (kept : before.Keeps middle fun _ _ => False)
    (same : ∀ ref, middle.MutatorReachable ref ↔ before.MutatorReachable ref)
    (adopted : middle.Adopted parent side ref after) :
    before.Adopted parent side ref after where
  fresh reachable := adopted.fresh ((same ref).mpr reachable)
  live := adopted.live
  empty := adopted.empty
  linked := adopted.linked
  kept :=
    { live := fun other reachable => adopted.kept.live other ((same other).mpr reachable)
      child := fun other slot reachable unwritten =>
        (adopted.kept.child other slot ((same other).mpr reachable) unwritten).trans
          (kept.child other slot reachable not_false) }

/-- Memory that is all in use is full if a cycle would discard nothing. -/
theorem WellFormed.full_iff (ordered : heap.WellFormed free) :
    heap.Full ↔ heap.freeList = [] ∧ heap.discarded = [] := by
  constructor
  · intro full
    refine ⟨full.exhausted, List.eq_nil_iff_forall_not_mem.mpr fun ref member => ?_⟩
    obtain ⟨inside, proper, _, lost⟩ := ordered.mem_discarded_iff.mp member
    apply lost
    by_cases isRoot : ref ∈ Ref.roots
    · exact .of_root isRoot
    · refine full.retained ref (minCapacity_le_of_not_isRoot (Nat.pos_of_ne_zero proper) ?_) inside
      exact fun root => isRoot (Ref.mem_roots_iff.mpr root)
  · rintro ⟨exhausted, nothing⟩
    refine ⟨exhausted, fun ref rooted inside => ?_⟩
    by_contra lost
    have live : (heap.node ref).live = true := by
      rw [ordered.freeList_eq] at exhausted
      apply Bool.of_not_eq_false
      rw [← ordered.mem_iff, exhausted]
      exact List.not_mem_nil
    have member := ordered.mem_discarded_iff.mpr ⟨inside, ne_nil_of_rooted rooted, live, lost⟩
    rw [nothing] at member
    cases member

end Heap

namespace Session

/-- How a mutator is answered that asks for a child of `parent` and has a collector to turn to. -/
structure Provided (before : Heap) (parent : Ref) (side : Side) (answer : Reply × Session) :
    Prop where
  refused : answer.1 = .fault .outOfMemory ↔ before.Full
  granted : ¬ before.Full → ∃ ref, answer.1 = .ref ref ∧
    before.Adopted parent side ref answer.2.heap
  kept : before.Full → before.Keeps answer.2.heap fun _ _ => False

variable {collection : Collection} {budget : Nat} {retired : List Handle} {parent : Ref}
  {side : Side}

theorem latest?_asleep : (asleep collection budget retired).latest? = some retired.length := by
  simp [asleep, latest?]

namespace Provided

variable {before : Heap} {after : Session} {ref : Ref}

theorem of_full (full : before.Full) (kept : before.Keeps after.heap fun _ _ => False) :
    Provided before parent side (.fault .outOfMemory, after) where
  refused := iff_of_true rfl full
  granted room := absurd full room
  kept _ := kept

theorem of_adopted (room : ¬ before.Full) (adopted : before.Adopted parent side ref after.heap) :
    Provided before parent side (.ref ref, after) where
  refused := iff_of_false Reply.noConfusion room
  granted _ := ⟨ref, rfl, adopted⟩
  kept full := absurd full room

end Provided

/-- Where no node was free before the cycle, the free nodes are those that it has released. -/
theorem provided_after_cycle (rest : collection.AtRest) (safe : collection.heap.Safe)
    (exhausted : collection.heap.freeList = [])
    (reachable : collection.heap.MutatorReachable parent) (proper : parent ≠ Ref.nil)
    (side : Side) :
    Provided collection.heap parent side
      ((asleep collection.runCycle.2 budget retired).apply (.allocateChild parent side)) := by
  obtain ⟨free, ordered⟩ := rest.consistent.ordered
  obtain ⟨report, after, ran, cycled⟩ :=
    Collection.runCycle_reports rest.consistent ordered rest.position
  obtain ⟨consistentAfter, advanced⟩ := (Collection.advanced_workStable collection.heap).reclaim
    ⟨rest.consistent, .refl collection.heap⟩
  change collection.runCycle = _ at ran
  change collection.runCycle.2.Consistent at consistentAfter
  change collection.heap.Advanced collection.runCycle.2.heap at advanced
  rw [ran] at consistentAfter advanced ⊢
  obtain ⟨freeAfter, orderedAfter⟩ := consistentAfter.ordered
  have same := advanced.reachable safe
  have safeAfter := advanced.safe safe
  have reachableAfter := (same parent).mpr reachable
  have accepted := Heap.Held.accepts (.inr reachableAfter) orderedAfter safeAfter proper
  have kept := cycled.keeps advanced ordered orderedAfter safe
  -- The nodes that are free afterwards are those that the cycle has discarded.
  have full : collection.heap.Full ↔ after.heap.firstFree = Ref.nil := by
    rw [ordered.full_iff, and_iff_right exhausted, orderedAfter.chain.eq_nil_iff,
      ← orderedAfter.freeList_eq, cycled.freeList, exhausted, List.append_nil]
  by_cases none : after.heap.firstFree = Ref.nil
  · rw [apply_allocateChild_of_error (accepted.allocateChild_of_exhausted none side)]
    exact .of_full (full.mpr none) kept
  · obtain ⟨ref, last, allocated, adopted⟩ :=
      safeAfter.adopted_allocateChild orderedAfter reachableAfter accepted none side
    rw [apply_allocateChild_of_ok allocated]
    exact .of_adopted (mt full.mp none) (kept.adopted same adopted)

theorem provided_asleep (rest : collection.AtRest) (positive : 0 < budget)
    (safe : collection.heap.Safe) (reachable : collection.heap.MutatorReachable parent)
    (proper : parent ≠ Ref.nil) (side : Side) :
    Provided collection.heap parent side
      ((asleep collection budget retired).apply
        (.allocateChildOrCollect parent side (some retired.length))) := by
  obtain ⟨free, ordered⟩ := rest.consistent.ordered
  have accepted := Heap.Held.accepts (.inr reachable) ordered safe proper
  have listed : collection.heap.firstFree = Ref.nil ↔ collection.heap.freeList = [] := by
    rw [ordered.chain.eq_nil_iff, ordered.freeList_eq]
  by_cases none : collection.heap.firstFree = Ref.nil
  · have refused : (asleep collection budget retired).apply (.allocateChild parent side) =
        (.fault .outOfMemory, asleep collection budget retired) :=
      apply_allocateChild_of_error (accepted.allocateChild_of_exhausted none side)
    rw [allocateChildOrCollect_of_exhausted refused, wake_asleep rest positive]
    exact provided_after_cycle rest safe (listed.mp none) reachable proper side
  · obtain ⟨ref, after, allocated, adopted⟩ :=
      safe.adopted_allocateChild ordered reachable accepted none side
    have granted : (asleep collection budget retired).apply (.allocateChild parent side) =
        (.ref ref, { asleep collection budget retired with heap := after }) :=
      apply_allocateChild_of_ok allocated
    have answered : ((asleep collection budget retired).apply (.allocateChild parent side)).1 ≠
        .fault .outOfMemory := by
      rw [granted]
      exact Reply.noConfusion
    rw [allocateChildOrCollect_of_answered answered, granted]
    exact .of_adopted (fun full => none (listed.mpr full.exhausted)) adopted

/-- A background collector runs next to a disciplined program, and all is quiet.  A mutator that
holds its handle and asks for a child of a node that it can get to is told that memory has run
out if and only if every node is in use and led to by a root or by a grey node.  Otherwise it
gets a new and empty node below the one that it has named, and either way it finds everything
else as it was. -/
theorem run_provided {capacity : Nat} {initial : Heap} {requests : List Request}
    {collector : Collector} {budget : Nat} {parent : Ref}
    (built : Heap.ofCapacity capacity = .ok initial)
    (disciplined : (ofHeap initial).Obeys Heap.Disciplined requests)
    (running : ((ofHeap initial).run requests).driver = .background collector budget)
    (reachable : ((ofHeap initial).run requests).heap.MutatorReachable parent)
    (proper : parent ≠ Ref.nil) (side : Side) :
    let session := (ofHeap initial).run requests
    Provided session.heap parent side
      (session.apply (.allocateChildOrCollect parent side session.latest?)) := by
  intro session
  have consistentStart := consistent_ofHeap built
  have safeStart : (ofHeap initial).heap.Safe := by
    obtain ⟨roomy, rfl⟩ := Heap.of_ofCapacity built
    exact Heap.fresh_safe roomy
  have safe : session.heap.Safe :=
    (safe_invariant.preserves.run disciplined ⟨consistentStart, safeStart⟩).2
  obtain ⟨retired, _, orderly⟩ := (orderly_ofHeap built).run requests
  obtain ⟨collection, budget, same, rest, positive⟩ := orderly.parked.exists_asleep running
  change session = asleep collection budget retired at same
  change session.heap.MutatorReachable parent at reachable
  rw [same] at safe reachable ⊢
  rw [latest?_asleep]
  exact provided_asleep rest positive safe reachable proper side

/-- Nodes 4 and 5 are lost, but node 5 has been shaded after the last cycle.  So the next one
releases node 4 only, which becomes a child of root 2. -/
theorem run_provided_half_released :
    let requests : List Request :=
      [.attach, .allocateChild 1 .left, .allocateChild 4 .left, .spawn 0, .shade 5,
        .setChild 1 .left 0]
    let session := (ofHeap (Heap.fresh 6)).run requests
    let answer := session.apply (.allocateChildOrCollect 2 .left session.latest?)
    Heap.ofCapacity 6 = .ok (Heap.fresh 6) ∧
      (ofHeap (Heap.fresh 6)).Obeys Heap.Disciplined requests ∧
      session.driver = .background session.collector 1 ∧ session.heap.MutatorReachable 2 ∧
      session.heap.freeList = [] ∧ ¬ session.heap.Full ∧ answer.1 = .ref 4 ∧
      (answer.2.heap.node 5).live = true ∧ Provided session.heap 2 .left answer := by
  intro requests session answer
  have built : Heap.ofCapacity 6 = .ok (Heap.fresh 6) := rfl
  have first : ∀ heap : Heap, heap.MutatorReachable 1 := fun _ => .root (by decide)
  have second : session.heap.MutatorReachable 2 := .root (by decide)
  have disciplined : (ofHeap (Heap.fresh 6)).Obeys Heap.Disciplined requests := by
    refine ⟨trivial, first _, ?_, trivial, ?_, ⟨first _, .inl rfl⟩, trivial⟩
    · exact (first _).child .left
    · exact ((first _).child .left).child .left
  have running : session.driver = .background session.collector 1 := by decide +kernel
  have granted : answer.1 = .ref 4 := by decide +kernel
  have provided := run_provided built disciplined running second (by decide) .left
  refine ⟨built, disciplined, running, second, by decide +kernel, fun full => ?_, granted,
    by decide +kernel, provided⟩
  cases granted.symm.trans (provided.refused.mpr full)

end Session

end Tricolor
