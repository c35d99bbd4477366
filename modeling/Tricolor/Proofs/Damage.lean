import Tricolor.Proofs.Completion
import Tricolor.Proofs.StaleReferences

/-!
# What damages a heap

Short of releasing nodes, mutators can damage a heap in two ways.  Shading a node
that the reclaim pass is about to release brings it back, but not the nodes that it
refers to.  Detaching the collector in the midst of the pass brings back everything
that the pass has yet to release, but not what it has released already.  The damage
is done if what has come back refers to what has not; otherwise the checker never
finds anything amiss, and neither will it later on.
-/

namespace Tricolor

namespace Heap

/-- If shading the node brings it back, it refers to usable nodes only. -/
def SafelyShaded (heap : Heap) (ref : Ref) : Prop :=
  (heap.node ref).live = true → heap.Condemned ref → ∀ side,
    (heap.node ref).child side = ref ∨ heap.Usable ((heap.node ref).child side)

/-- The nodes that the reclaim pass has yet to release refer to none that it has
released. -/
def SafelyDropped (heap : Heap) : Prop :=
  ∀ ref, (heap.node ref).live = true → heap.Condemned ref → ∀ side,
    (heap.node ((heap.node ref).child side)).live = true

instance decidableSafelyShaded (heap : Heap) (ref : Ref) : Decidable (heap.SafelyShaded ref) :=
  decidable_of_iff
    ((heap.node ref).live = true → heap.Condemned ref → ∀ side ∈ Side.both,
      (heap.node ref).child side = ref ∨ heap.Usable ((heap.node ref).child side))
    ⟨fun safe live condemned side => safe live condemned side side.mem_both,
      fun safe live condemned side _ => safe live condemned side⟩

/-- What is condemned is white, so there is nothing to examine beyond the heap. -/
instance decidableSafelyDropped (heap : Heap) : Decidable heap.SafelyDropped :=
  decidable_of_iff
    (∀ ref < heap.capacity, (heap.node ref).live = true → heap.Condemned ref →
      ∀ side ∈ Side.both, (heap.node ((heap.node ref).child side)).live = true)
    ⟨fun safe ref live condemned side =>
        safe ref (lt_capacity_of_color_ne_black (by simp [condemned.2.2])) live condemned side
          side.mem_both,
      fun safe ref _ live condemned side _ => safe ref live condemned side⟩

/-- A program that releases nothing and does no damage. -/
def Harmless (heap : Heap) : Request → Prop
  | .release _ => False
  | .shade ref => heap.SafelyShaded ref
  | .detach => heap.SafelyDropped
  | _ => True

section

variable {before after heap : Heap} {free : List Ref} {ref : Ref}

/-- Nothing happens beyond the heap. -/
theorem shadeNode_snd (heap : Heap) (ref : Ref) :
    (heap.shadeNode ref).2 = heap.shade ref := by
  unfold shadeNode checkRange
  by_cases inside : ref < heap.capacity
  · rw [if_pos inside]
  · rw [if_neg inside]
    have black := node_of_capacity_le (Nat.le_of_not_lt inside)
    refine (if_neg fun white => ?_).symm
    rw [black] at white
    exact Color.noConfusion white

theorem usable_shade_iff (heap : Heap) (ref other : Ref) :
    (heap.shade ref).Usable other ↔
      heap.Usable other ∨ other = ref ∧ (heap.node ref).live = true := by
  have shading := shade_shaded heap ref
  by_cases hit : other = ref
  · subst hit
    constructor
    · exact fun usable => .inr ⟨rfl, (shading.live other).symm.trans usable.1⟩
    · rintro (usable | ⟨_, live⟩)
      · exact shading.usable usable
      · exact ⟨(shading.live other).trans live, fun condemned =>
          shade_not_white condemned.2.2⟩
  · have kept : (heap.shade ref).Usable other ↔ heap.Usable other := by
      refine usable_congr (shading.live other) shading.phase shading.frontier fun _ => ?_
      rw [color_shade, if_neg (fun both => hit both.1)]
    rw [kept]
    exact ⟨.inl, fun either => either.resolve_right fun both => hit both.1⟩

theorem UsableClosed.shade (closed : heap.UsableClosed) (safe : heap.SafelyShaded ref) :
    (heap.shade ref).UsableClosed := by
  intro other usable notHead side
  rw [(shade_shaded heap ref).child]
  rw [usable_shade_iff] at usable ⊢
  rcases usable with usable | ⟨rfl, live⟩
  · exact .inl (closed other usable notHead side)
  · by_cases condemned : heap.Condemned other
    · rcases safe live condemned side with same | usable
      · exact .inr ⟨same, live⟩
      · exact .inl usable
    · exact .inl (closed other ⟨live, condemned⟩ notHead side)

theorem UsableClosed.safelyShaded (closed : (heap.shade ref).UsableClosed)
    (notHead : heap.Condemned ref → ref ≠ Ref.freeRoot) :
    heap.SafelyShaded ref := by
  intro live condemned side
  have brought := (usable_shade_iff heap ref ref).mpr (.inr ⟨rfl, live⟩)
  have usable := closed ref brought (notHead condemned) side
  rw [(shade_shaded heap ref).child, usable_shade_iff] at usable
  exact usable.symm.imp_left And.left

theorem UsableClosed.dropped (closed : before.UsableClosed) (safe : before.SafelyDropped)
    (same : SameShape before after) (resting : after.Resting) :
    after.UsableClosed := by
  have calm : after.phase ≠ .reclaiming := by simp [resting.phase]
  intro ref usable notHead side
  rw [usable_iff_live calm, same.live] at usable ⊢
  rw [same.child]
  by_cases condemned : before.Condemned ref
  · exact safe ref usable condemned side
  · exact (closed ref ⟨usable, condemned⟩ notHead side).1

theorem UsableClosed.safelyDropped (closed : after.UsableClosed)
    (same : SameShape before after) (resting : after.Resting)
    (notHead : ∀ ref, before.Condemned ref → ref ≠ Ref.freeRoot) :
    before.SafelyDropped := by
  have calm : after.phase ≠ .reclaiming := by simp [resting.phase]
  intro ref live condemned side
  have usable : after.Usable ref := (usable_iff_live calm ref).mpr ((same.live ref).trans live)
  have referred := (closed ref usable (notHead ref condemned) side).1
  rwa [same.child, same.live] at referred

/-- Outside of the reclaim pass the checker misses nothing. -/
theorem DanglingFree.usableClosed (danglingFree : heap.DanglingFree)
    (ordered : heap.WellFormed free) (calm : heap.phase ≠ .reclaiming) :
    heap.UsableClosed := by
  intro ref usable notHead side
  rcases danglingFree ref usable notHead side with empty | live
  · rw [empty]
    exact ordered.usable_nil
  · exact (usable_iff_live calm _).mpr live

/-- A heap at rest condemns nothing, so that there is nothing to bring back. -/
theorem Resting.safelyDropped (resting : heap.Resting) : heap.SafelyDropped := by
  intro ref live condemned side
  exact Phase.noConfusion (resting.phase.symm.trans condemned.1)

theorem UsableClosed.mutation {request : Request} {change : Heap → Heap}
    (closed : heap.UsableClosed) (ordered : heap.WellFormed free)
    (performs : request.mutation? = some change) (harmless : heap.Harmless request) :
    (change heap).UsableClosed := by
  have performed := ordered.performed performs
  cases request with
  | allocate => exact closed.performed ordered performed trivial
  | setChild parent side child => exact closed.performed ordered performed trivial
  | allocateChild parent side => exact closed.performed ordered performed trivial
  | release ref => exact harmless.elim
  | shade ref =>
      cases performs
      change (heap.shadeNode ref).2.UsableClosed
      rw [shadeNode_snd]
      exact closed.shade harmless
  | _ => cases performs

end

end Heap

namespace Collection.Consistent

variable {collection : Collection} {heap : Heap} {ref : Ref}

theorem ne_freeRoot_of_condemned (consistent : collection.Consistent)
    (condemned : collection.heap.Condemned ref) :
    ref ≠ Ref.freeRoot := by
  cases position : collection.collector.position with
  | idle =>
      exact Phase.noConfusion ((consistent.resting position).phase.symm.trans condemned.1)
  | sweeping cursor clean =>
      have marking := (consistent.sweeping position).1
      exact Phase.noConfusion (marking.phase.symm.trans condemned.1)
  | reclaiming cursor =>
      exact (consistent.reclaiming position).ne_freeRoot_of_condemned condemned

/-- A usable node that refers to one that is not goes unnoticed until the end of the
cycle.  By then its slot is as it was, and what it refers to has been released. -/
theorem usableClosed_of_danglingFree (consistent : collection.Consistent)
    (now : collection.heap.DanglingFree) (later : collection.runCycle.2.heap.DanglingFree) :
    collection.heap.UsableClosed := by
  by_cases pass : collection.heap.phase = .reclaiming
  · have active : collection.collector.position ≠ .idle :=
      mt consistent.phase_eq_idle_iff.mp (by simp [pass])
    obtain ⟨report, _, idle⟩ := consistent.runCycle_ends active
    obtain ⟨freeLater, orderedLater⟩ := (consistent_workStable.reclaim consistent).ordered
    have closedLater : collection.runCycle.2.heap.UsableClosed :=
      later.usableClosed orderedLater (by simp [idle])
    intro ref usable notHead side
    by_contra unusable
    generalize slot : (collection.heap.node ref).child side = child at unusable
    obtain ⟨usableLater, slotLater, unusableLater⟩ := consistent.runCycle_of_reclaiming pass
      (fun heap => heap.Usable ref ∧ (heap.node ref).child side = child ∧ ¬ heap.Usable child)
      (fun _ worked pass held =>
        ⟨(worked.usable_iff pass ref).mpr held.1,
          (worked.child_of_usable held.1 notHead side).trans held.2.1,
          fun usable => held.2.2 (worked.usable usable)⟩)
      ⟨usable, slot, unusable⟩
    have referred := closedLater ref usableLater notHead side
    rw [slotLater] at referred
    exact unusableLater referred
  · obtain ⟨free, ordered⟩ := consistent.ordered
    exact now.usableClosed ordered pass

end Collection.Consistent

namespace Session

variable {session : Session} {requests : List Request} {request : Request}

theorem usableClosed_preserved :
    Preserves Heap.Harmless fun collection =>
      collection.Consistent ∧ collection.heap.UsableClosed where
  toWorkStable := Collection.workStable_of_worked fun ordered worked closed =>
    closed.worked ordered worked
  mutation performs harmless held := by
    obtain ⟨free, ordered⟩ := held.1.ordered
    exact ⟨held.1.mutation performs, held.2.mutation ordered performs harmless⟩
  retry _ _ := trivial
  attach held := by
    rw [held.1.attach_eq]
    exact held
  detach harmless held := by
    obtain ⟨same, consistent⟩ := held.1.detach
    exact ⟨consistent, held.2.dropped harmless same consistent.inPhase⟩

/-- If the checker will not find anything amiss, whatever the collector does next, then
there is nothing amiss. -/
theorem usableClosed_of_undamaged (consistent : session.collection.Consistent)
    (undamaged : ∀ collection, session.Meets collection →
      collection.heap.checkInvariants = .ok ()) :
    session.heap.UsableClosed := by
  have danglingFree : ∀ {collection : Collection}, session.Meets collection →
      collection.heap.DanglingFree := by
    intro collection met
    obtain ⟨free, ordered⟩ :=
      (met.of_workStable Collection.consistent_workStable consistent).ordered
    exact ordered.checkInvariants_eq_ok_iff.mp (undamaged collection met)
  exact consistent.usableClosed_of_danglingFree (danglingFree .outset)
    (danglingFree ((meets_workStable session).reclaim .outset))

theorem undamaged_of_usableClosed (consistent : session.collection.Consistent)
    (closed : session.heap.UsableClosed) {collection : Collection}
    (met : session.Meets collection) :
    collection.heap.checkInvariants = .ok () := by
  obtain ⟨consistentMet, closedMet⟩ :=
    met.of_workStable usableClosed_preserved.toWorkStable ⟨consistent, closed⟩
  obtain ⟨free, ordered⟩ := consistentMet.ordered
  exact ordered.checkInvariants_eq_ok_iff.mpr closedMet.danglingFree

/-- A request that is not harmless leaves a usable node that refers to one that is
not. -/
theorem harmless_of_usableClosed (consistent : session.collection.Consistent)
    (unreleased : ∀ ref, request ≠ .release ref)
    (closed : (session.apply request).2.heap.UsableClosed) :
    session.heap.Harmless request := by
  have notHead : ∀ ref, session.heap.Condemned ref → ref ≠ Ref.freeRoot :=
    fun ref condemned => consistent.ne_freeRoot_of_condemned condemned
  cases request with
  | release ref => exact absurd rfl (unreleased ref)
  | shade ref =>
      have shaded : (session.apply (.shade ref)).2.heap = (session.heap.shadeNode ref).2 :=
        congrArg Session.heap (mutate_snd session .flag (·.shadeNode ref))
      rw [shaded, Heap.shadeNode_snd] at closed
      exact closed.safelyShaded (notHead ref)
  | detach =>
      obtain ⟨heap, driver, handles⟩ := session
      cases driver with
      | unattended => exact (consistent.resting rfl).safelyDropped
      | stepping collector =>
          obtain ⟨same, rested⟩ := consistent.detach
          exact closed.safelyDropped same rested.inPhase notHead
      | background collector budget =>
          obtain ⟨same, rested⟩ := consistent.detach
          exact closed.safelyDropped same rested.inPhase notHead
  | _ => trivial

/-- Nothing is amiss at any moment of the run, and the collector will bring nothing
amiss to light, if and only if each request is harmless when it is made. -/
theorem undamaged_iff_obeys (consistent : session.collection.Consistent)
    (closed : session.heap.UsableClosed)
    (unreleased : ∀ request ∈ requests, ∀ ref, request ≠ .release ref) :
    (∀ done, done <+: requests → ∀ collection, (session.run done).Meets collection →
      collection.heap.checkInvariants = .ok ()) ↔ session.Obeys Heap.Harmless requests := by
  constructor
  · intro undamaged
    induction requests generalizing session with
    | nil => trivial
    | cons request requests induction =>
        have consistentAfter : (session.apply request).2.collection.Consistent :=
          consistent_preserved.apply trivial consistent
        have closedAfter : (session.apply request).2.heap.UsableClosed :=
          usableClosed_of_undamaged consistentAfter
            (undamaged [request] (List.prefix_append [request] requests))
        refine ⟨harmless_of_usableClosed consistent (unreleased request List.mem_cons_self)
          closedAfter, induction consistentAfter closedAfter ?_ ?_⟩
        · exact fun other member => unreleased other (List.mem_cons_of_mem _ member)
        · intro done started
          exact undamaged (request :: done) (List.prefix_cons_inj request |>.mpr started)
  · rintro obeys done ⟨more, rfl⟩ collection met
    obtain ⟨consistentDone, closedDone⟩ :=
      usableClosed_preserved.run obeys.of_append ⟨consistent, closed⟩
    exact undamaged_of_usableClosed consistentDone closedDone met

section Runs

variable {capacity : Nat} {initial : Heap}

theorem usableClosed_ofHeap (built : Heap.ofCapacity capacity = .ok initial) :
    (ofHeap initial).heap.UsableClosed := by
  obtain ⟨roomy, rfl⟩ := Heap.of_ofCapacity built
  exact Heap.fresh_usableClosed roomy

/-- A program that shades nodes as it likes, but releases none and keeps its collector,
damages the heap if and only if it shades a node that was to be released and that
refers to a node that has been released or still will be. -/
theorem run_undamaged_iff_safelyShaded
    (built : Heap.ofCapacity capacity = .ok initial)
    (kept : ∀ request ∈ requests, request ≠ .detach ∧ ∀ ref, request ≠ .release ref) :
    (∀ done, done <+: requests → ∀ collection, ((ofHeap initial).run done).Meets collection →
      collection.heap.checkInvariants = .ok ()) ↔
    (ofHeap initial).Obeys
      (fun heap request => ∀ ref, request = .shade ref → heap.SafelyShaded ref) requests := by
  rw [undamaged_iff_obeys (consistent_ofHeap built) (usableClosed_ofHeap built)
    fun request member => (kept request member).2]
  apply Obeys.congr
  intro heap request member
  obtain ⟨attached, unreleased⟩ := kept request member
  cases request with
  | shade ref => simp [Heap.Harmless]
  | detach => exact absurd rfl attached
  | release ref => exact absurd rfl (unreleased ref)
  | _ => simp [Heap.Harmless]

/-- The nodes of a list that was to be released are brought back one by one, the last
one first. -/
theorem run_undamaged_iff_safelyShaded_last_first :
    let requests : List Request :=
      [.attach, .allocateChild 1 .left, .allocateChild 4 .left, .setChild 1 .left 0, .sweep,
        .shade 5, .shade 4, .setChild 2 .right 4, .runCycle]
    (∀ request ∈ requests, request ≠ .detach ∧ ∀ ref, request ≠ .release ref) ∧
      ∀ done, done <+: requests → ∀ collection,
        ((ofHeap (Heap.fresh 6)).run done).Meets collection →
        collection.heap.checkInvariants = .ok () := by
  intro requests
  have built : Heap.ofCapacity 6 = .ok (Heap.fresh 6) := rfl
  have kept : ∀ request ∈ requests, request ≠ .detach ∧ ∀ ref, request ≠ .release ref := by
    simp [requests]
  refine ⟨kept, (run_undamaged_iff_safelyShaded built kept).mpr ?_⟩
  refine ⟨nofun, nofun, nofun, nofun, nofun, fun ref same => ?_, fun ref same => ?_, nofun,
    nofun, trivial⟩
  · cases same
    decide
  · cases same
    decide

/-- Node 5 is brought back after node 4, which it refers to, has been released. -/
theorem run_damaged_by_shading :
    let requests : List Request :=
      [.attach, .allocate, .allocate, .setChild 5 .left 4, .sweep, .step 4, .shade 5]
    let heap := ((ofHeap (Heap.fresh 6)).run requests).heap
    heap.violation? = some (.danglingChild 5 .left 4) ∧ heap.checkInvariants ≠ .ok () := by
  intro requests heap
  have found : heap.violation? = some (.danglingChild 5 .left 4) := by decide
  refine ⟨found, ?_⟩
  rw [Heap.checkInvariants, found]
  exact nofun

/-- A program that neither releases nor shades nodes damages the heap if and only if it
detaches the collector from a reclaim pass that has released a node and has yet to
release another one that refers to it. -/
theorem run_undamaged_iff_safelyDropped
    (built : Heap.ofCapacity capacity = .ok initial)
    (unmarked : ∀ request ∈ requests, ∀ ref, request ≠ .release ref ∧ request ≠ .shade ref) :
    (∀ done, done <+: requests → ∀ collection, ((ofHeap initial).run done).Meets collection →
      collection.heap.checkInvariants = .ok ()) ↔
    (ofHeap initial).Obeys (fun heap request => request = .detach → heap.SafelyDropped)
      requests := by
  rw [undamaged_iff_obeys (consistent_ofHeap built) (usableClosed_ofHeap built)
    fun request member ref => (unmarked request member ref).1]
  apply Obeys.congr
  intro heap request member
  cases request with
  | shade ref => exact absurd rfl (unmarked _ member ref).2
  | detach => simp [Heap.Harmless]
  | release ref => exact absurd rfl (unmarked _ member ref).1
  | _ => simp [Heap.Harmless]

/-- The collector is detached after it has released node 4 and before it releases node
5, which node 4 referred to. -/
theorem run_undamaged_iff_safelyDropped_between_releases :
    let requests : List Request :=
      [.attach, .allocateChild 1 .left, .allocateChild 4 .left, .setChild 1 .left 0, .sweep,
        .step 4, .detach, .attach, .step 30]
    (∀ request ∈ requests, ∀ ref, request ≠ .release ref ∧ request ≠ .shade ref) ∧
      ∀ done, done <+: requests → ∀ collection,
        ((ofHeap (Heap.fresh 6)).run done).Meets collection →
        collection.heap.checkInvariants = .ok () := by
  intro requests
  have built : Heap.ofCapacity 6 = .ok (Heap.fresh 6) := rfl
  have unmarked : ∀ request ∈ requests, ∀ ref,
      request ≠ .release ref ∧ request ≠ .shade ref := by
    simp [requests]
  refine ⟨unmarked, (run_undamaged_iff_safelyDropped built unmarked).mpr ?_⟩
  have safe : ((ofHeap (Heap.fresh 6)).run (requests.take 6)).heap.SafelyDropped := by decide
  exact ⟨nofun, nofun, nofun, nofun, nofun, nofun, fun _ => safe, nofun, nofun, trivial⟩

/-- The collector is detached after it has released node 4 and before it releases node
5, which refers to node 4. -/
theorem run_damaged_by_detaching :
    let requests : List Request :=
      [.attach, .allocate, .allocate, .setChild 5 .left 4, .sweep, .step 4, .detach]
    let heap := ((ofHeap (Heap.fresh 6)).run requests).heap
    heap.violation? = some (.danglingChild 5 .left 4) ∧ heap.checkInvariants ≠ .ok () := by
  intro requests heap
  have found : heap.violation? = some (.danglingChild 5 .left 4) := by decide
  refine ⟨found, ?_⟩
  rw [Heap.checkInvariants, found]
  exact nofun

end Runs

end Session

end Tricolor
