import Tricolor.Proofs.FreeStack
import Tricolor.Proofs.ReleaseHistory

/-!
# What collectors leave alone

Slots and use flags belong to mutators.  Whatever a collector is asked for and however far it
gets, it writes them only where it releases garbage: the node is emptied and put on the free
list, and the root of that list leads to it.  Marks it darkens while marking and erases while
reclaiming, or when a cycle is abandoned.
-/

namespace Tricolor

/-- What a collector may do to the mark of a node in one move. -/
inductive Heap.Repainted (before : Heap) (move : Move) (after : Heap) (ref : Ref) : Prop where
  | kept (same : (after.node ref).color = (before.node ref).color)
  /-- Marking begins as the roots are shaded. -/
  | shaded (marking : after.phase = .marking) (white : (before.node ref).color = .white)
      (grey : (after.node ref).color = .grey)
  | blackened (marking : before.phase = .marking) (grey : (before.node ref).color = .grey)
      (black : (after.node ref).color = .black)
  | erased (reclaiming : before.phase = .reclaiming) (white : (after.node ref).color = .white)
  | abandoned (detached : move = .detach) (active : before.phase ≠ .idle)
      (white : (after.node ref).color = .white)

namespace Collection

/-- The move that follows the moves `done` takes the node out of use. -/
def ReleasedAfter (start : Collection) (moves done : List Move) (ref : Ref) : Prop :=
  ∃ move rest, moves = done ++ move :: rest ∧ (start.replay done).Frees move ref

/-- The moves lead from one collection to the other, and what mutators have written is still
there, except for what has been released. -/
structure LeavesData (start : Collection) (moves : List Move) (finish : Collection) : Prop
    extends start.Leads moves finish where
  capacity : finish.heap.capacity = start.heap.capacity
  sentinel : finish.heap.node Ref.nil = start.heap.node Ref.nil
  live : ∀ ref, (∀ done, ¬ start.ReleasedAfter moves done ref) →
    (finish.heap.node ref).live = (start.heap.node ref).live
  child : ∀ ref side, (∀ done, ¬ start.ReleasedAfter moves done ref) →
    ¬ (ref = Ref.freeRoot ∧ side = .right) →
    (finish.heap.node ref).child side = (start.heap.node ref).child side
  /-- A node that is released is garbage, and the next that the reclaim pass visits. -/
  garbage : ∀ done ref, start.ReleasedAfter moves done ref →
    (start.replay done).heap.phase = .reclaiming ∧
      (start.replay done).heap.frontier = ref ∧ (start.replay done).heap.Garbage ref
  released : ∀ done ref, start.ReleasedAfter moves done ref →
    (finish.heap.node ref).live = false ∧ (finish.heap.node ref).left = Ref.nil ∧
      (finish.heap.node ref).right = (start.replay done).heap.firstFree
  repainted : ∀ done move rest ref, moves = done ++ move :: rest →
    (start.replay done).heap.Repainted move (start.replay (done ++ [move])).heap ref

namespace Consistent

variable {collection start : Collection} {move : Move} {moves done : List Move} {ref : Ref}

theorem repainted_visit (consistent : collection.Consistent)
    (possible : collection.Possible .visit) (ref : Ref) :
    collection.heap.Repainted .visit collection.visit.heap ref := by
  cases consistent.visited possible.1 possible.2 with
  | @scanned cursor clean position pending scanned next =>
      have marking := (consistent.sweeping position).1.phase
      by_cases hit : ref = cursor
      · subst hit
        exact .blackened marking scanned.grey scanned.black
      · rcases scanned.color ref hit with same | ⟨white, grey⟩
        · exact .kept same
        · exact .shaded (scanned.phase.trans marking) white grey
  | passed position pending unmarked same next =>
      rw [same]
      exact .kept rfl
  | resumed position grey same next =>
      rw [same]
      exact .kept rfl
  | settled position settled same phase next => exact .kept (congrArg Node.color (same.node ref))
  | freed position inside garbage pushed next => exact .kept (pushed.color ref)
  | @spared cursor position inside spared whitened next =>
      have color := Heap.color_whiten (collection.heap.moveFrontier (cursor + 1)) cursor ref
      rw [← whitened] at color
      split at color
      · exact .erased (consistent.reclaiming position).phase color
      · exact .kept color

theorem repainted_detach (consistent : collection.Consistent) (ref : Ref) :
    collection.heap.Repainted .detach collection.detach ref := by
  unfold Collection.detach
  split
  · exact .kept rfl
  · rename_i attached
    have active := consistent.phase_ne_idle attached
    have color := Heap.color_whitenAll collection.heap ref
    rw [Heap.abandonCycle_of_active active]
    split at color
    · exact .abandoned rfl active color
    · exact .kept color

theorem repainted (consistent : collection.Consistent) (possible : collection.Possible move)
    (work : move.isWork = true) (ref : Ref) :
    collection.heap.Repainted move (collection.perform move).heap ref := by
  cases move with
  | mutate request => cases work
  | markRoots =>
      have started := started_markRoots possible
      have color := started.color ref
      split at color
      · rename_i white
        exact .shaded started.phase white.2 color
      · exact .kept color
  | visit => exact consistent.repainted_visit possible ref
  | finish => exact .kept rfl
  | attach =>
      obtain ⟨heap, collector⟩ := collection
      cases (possible : collector = {})
      have same : Collection.perform ⟨heap, {}⟩ .attach = ⟨heap, {}⟩ := consistent.attach_eq
      rw [same]
      exact .kept rfl
  | detach => exact consistent.repainted_detach ref

/-- One move leaves a node alone that it does not release, but for the head of the free list. -/
theorem kept_of_not_freed (consistent : collection.Consistent)
    (possible : collection.Possible move) (work : move.isWork = true)
    (unfreed : ¬ collection.Frees move ref) :
    ((collection.perform move).heap.node ref).live = (collection.heap.node ref).live ∧
      ∀ side, ¬ (ref = Ref.freeRoot ∧ side = .right) →
        ((collection.perform move).heap.node ref).child side =
          (collection.heap.node ref).child side := by
  rcases consistent.sameShape_or_pushed possible work with
    same | ⟨cursor, inside, garbage, pushed⟩
  · exact ⟨same.live ref, fun side _ => same.child ref side⟩
  · have different : ref ≠ cursor := by
      rintro rfl
      have dead := pushed.live ref
      rw [if_pos rfl] at dead
      exact unfreed ⟨garbage.2.1, dead⟩
    constructor
    · rw [pushed.live, if_neg different]
      rfl
    · intro side notHead
      rw [pushed.child, if_neg different, if_neg notHead]
      rfl

theorem kept_of_unreleased (consistent : start.Consistent) (legal : start.Legal moves)
    (work : moves.all Move.isWork = true)
    (unreleased : ∀ done, ¬ start.ReleasedAfter moves done ref) :
    ((start.replay moves).heap.node ref).live = (start.heap.node ref).live ∧
      ∀ side, ¬ (ref = Ref.freeRoot ∧ side = .right) →
        ((start.replay moves).heap.node ref).child side =
          (start.heap.node ref).child side := by
  induction moves generalizing start with
  | nil => exact ⟨rfl, fun _ _ => rfl⟩
  | cons move moves induction =>
      obtain ⟨now, later⟩ := Bool.and_eq_true_iff.mp work
      have unfreed : ¬ start.Frees move ref := fun freed =>
        unreleased [] ⟨move, moves, rfl, freed⟩
      have rest : ∀ done, ¬ (start.perform move).ReleasedAfter moves done ref := by
        rintro done ⟨next, more, rfl, freed⟩
        exact unreleased (move :: done) ⟨next, more, rfl, freed⟩
      have first := consistent.kept_of_not_freed legal.1 now unfreed
      have after := induction (consistent.perform legal.1) legal.2 later rest
      exact ⟨after.1.trans first.1, fun side notHead =>
        (after.2 side notHead).trans (first.2 side notHead)⟩

/-- Collectors take nothing into use, so they do not release what is not in use. -/
theorem dead_replay (consistent : start.Consistent) (legal : start.Legal moves)
    (work : moves.all Move.isWork = true) (dead : (start.heap.node ref).live = false) :
    ((start.replay moves).heap.node ref).live = false := by
  induction moves generalizing start with
  | nil => exact dead
  | cons move moves induction =>
      obtain ⟨now, later⟩ := Bool.and_eq_true_iff.mp work
      have unfreed : ¬ start.Frees move ref := fun freed =>
        Bool.noConfusion (dead.symm.trans freed.1)
      have first := (consistent.kept_of_not_freed legal.1 now unfreed).1
      exact induction (consistent.perform legal.1) legal.2 later (first.trans dead)

theorem unreleased_of_dead (consistent : start.Consistent) (legal : start.Legal moves)
    (work : moves.all Move.isWork = true) (dead : (start.heap.node ref).live = false)
    (done : List Move) :
    ¬ start.ReleasedAfter moves done ref := by
  rintro ⟨move, rest, rfl, freed⟩
  rw [List.all_append, Bool.and_eq_true] at work
  have still := consistent.dead_replay (legal_append.mp legal).1 work.1 dead
  exact Bool.noConfusion (still.symm.trans freed.1)

/-- A node that is released is emptied, put in front of the free list, and not touched again. -/
theorem released_of_releasedAfter (consistent : start.Consistent) (legal : start.Legal moves)
    (work : moves.all Move.isWork = true) (released : start.ReleasedAfter moves done ref) :
    ((start.replay done).heap.phase = .reclaiming ∧
      (start.replay done).heap.frontier = ref ∧ (start.replay done).heap.Garbage ref) ∧
    ((start.replay moves).heap.node ref).live = false ∧
      ((start.replay moves).heap.node ref).left = Ref.nil ∧
      ((start.replay moves).heap.node ref).right = (start.replay done).heap.firstFree := by
  obtain ⟨move, rest, rfl, freed⟩ := released
  obtain ⟨legalDone, possible, legalRest⟩ := legal_append.mp legal
  simp only [List.all_append, List.all_cons, Bool.and_eq_true] at work
  obtain ⟨_, now, later⟩ := work
  have consistentNow := consistent.replay legalDone
  have consistentAfter := consistentNow.perform possible
  obtain ⟨reclaiming, garbage, pushed⟩ := consistentNow.released_of_freed possible now freed
  have notHead : ref ≠ Ref.freeRoot :=
    Heap.ne_freeRoot_of_rooted (garbage.rooted reclaiming.started)
  have kept := consistentAfter.kept_of_unreleased legalRest later
    (consistentAfter.unreleased_of_dead legalRest later freed.2)
  have left := pushed.child ref .left
  have right := pushed.child ref .right
  simp only [if_true, reduceCtorEq, if_false] at left right
  rw [replay_append, replay_cons]
  refine ⟨⟨reclaiming.phase, reclaiming.frontier, garbage⟩, kept.1.trans freed.2, ?_, ?_⟩
  · exact (kept.2 .left (fun head => notHead head.1)).trans left
  · exact (kept.2 .right (fun head => notHead head.1)).trans right

theorem leavesData {finish : Collection} (consistent : start.Consistent)
    (leads : start.Leads moves finish) (work : moves.all Move.isWork = true) :
    start.LeavesData moves finish := by
  obtain ⟨legal, rfl⟩ := leads
  obtain ⟨free, ordered⟩ := consistent.ordered
  obtain ⟨freeAfter, orderedAfter⟩ := (consistent.replay legal).ordered
  refine
    { legal := legal
      replay := rfl
      capacity := consistent.capacity_replay legal
      sentinel := orderedAfter.sentinel.trans ordered.sentinel.symm
      live := fun ref unreleased =>
        (consistent.kept_of_unreleased legal work unreleased).1
      child := fun ref side unreleased =>
        (consistent.kept_of_unreleased legal work unreleased).2 side
      garbage := fun done ref released =>
        (consistent.released_of_releasedAfter legal work released).1
      released := fun done ref released =>
        (consistent.released_of_releasedAfter legal work released).2
      repainted := ?_ }
  rintro done move rest ref rfl
  obtain ⟨legalDone, possible, _⟩ := legal_append.mp legal
  simp only [List.all_append, List.all_cons, Bool.and_eq_true] at work
  rw [replay_append]
  exact (consistent.replay legalDone).repainted possible work.2.1 ref

end Consistent

theorem all_startMoves (collection : Collection) :
    collection.startMoves.all Move.isWork = true := by
  apply List.all_eq_true.mpr
  intro move member
  rw [mem_startMoves member]
  rfl

theorem all_stepMoves (collection : Collection) (budget : Nat) :
    (collection.stepMoves budget).all Move.isWork = true := by
  induction budget generalizing collection with
  | zero => rfl
  | succ budget induction =>
      rw [stepMoves, List.all_append, all_startMoves]
      split
      · rfl
      · exact induction collection.markRoots.visit

theorem all_sweepForMoves (collection : Collection) (limit : Nat) :
    (collection.sweepForMoves limit).all Move.isWork = true := by
  induction limit generalizing collection with
  | zero => rfl
  | succ limit induction =>
      unfold sweepForMoves
      split
      · exact induction collection.visit
      · rfl

theorem all_sweepMoves (collection : Collection) :
    collection.sweepMoves.all Move.isWork = true := by
  rw [sweepMoves, List.all_append, all_startMoves, all_sweepForMoves]
  rfl

theorem all_reclaimMoves (collection : Collection) :
    collection.reclaimMoves.all Move.isWork = true := by
  rw [reclaimMoves, List.all_append, all_sweepMoves, all_stepMoves]
  rfl

theorem all_stepUntilReportMoves (collection : Collection) (budget calls : Nat) :
    (collection.stepUntilReportMoves budget calls).all Move.isWork = true := by
  induction calls generalizing collection with
  | zero => rfl
  | succ calls induction =>
      rw [stepUntilReportMoves, List.all_append, all_stepMoves]
      split
      · rfl
      · rename_i stepped _
        exact induction stepped

end Collection

namespace Session

variable {session : Session} {request : Request}

theorem all_driveMoves {moves : Collection → List Move}
    (work : ∀ collection, (moves collection).all Move.isWork = true) :
    (session.driveMoves moves).all Move.isWork = true := by
  unfold driveMoves
  split
  · exact work _
  · rfl

theorem all_cycleMoves (session : Session) : session.cycleMoves.all Move.isWork = true := by
  unfold cycleMoves
  split
  · exact Collection.all_stepUntilReportMoves ..
  · rfl

theorem all_wakeMoves (session : Session) (handle : Nat) :
    (session.wakeMoves handle).all Move.isWork = true := by
  unfold wakeMoves
  split
  · exact session.all_cycleMoves
  · rfl

theorem all_moves (asked : request.isForCollector = true) :
    (session.moves request).all Move.isWork = true := by
  cases request with
  | attach =>
      obtain ⟨heap, driver, handles⟩ := session
      cases driver <;> rfl
  | detach =>
      obtain ⟨heap, driver, handles⟩ := session
      cases driver <;> rfl
  | markRoots => exact all_driveMoves Collection.all_startMoves
  | sweep => exact all_driveMoves Collection.all_sweepMoves
  | step budget => exact all_driveMoves (Collection.all_stepMoves · budget)
  | reclaim => exact all_driveMoves Collection.all_reclaimMoves
  | runCycle => exact all_driveMoves Collection.all_reclaimMoves
  | spawn budget =>
      exact all_driveMoves fun collection => Collection.all_stepUntilReportMoves collection ..
  | stop => rfl
  | requestCycle handle => exact session.all_wakeMoves handle
  | requestAndWait handle => exact session.all_wakeMoves handle
  | _ => cases asked

/-- Whatever has been asked for before, a request for a collector leaves alone what mutators
have written, except in the nodes that it releases, and these are garbage. -/
theorem run_leavesData {capacity : Nat} {initial : Heap} {requests : List Request}
    {request : Request} (built : Heap.ofCapacity capacity = .ok initial)
    (asked : request.isForCollector = true) :
    let session := (ofHeap initial).run requests
    session.collection.LeavesData (session.moves request)
      (session.apply request).2.collection :=
  (run_consistent built requests).leavesData (apply_leads _ request) (all_moves asked)

/-- Node 4 is lost, and node 5 is not.  The rest of a cycle in its midst leaves the slots of
node 5 alone, and it links node 4 to node 6, the head of the free list until then. -/
theorem run_leavesData_across_phases :
    let requests : List Request :=
      [.attach, .allocate, .allocateChild 1 .left, .setChild 5 .left 2, .step 3]
    let session := (ofHeap (Heap.fresh 7)).run requests
    let moves := session.moves .runCycle
    let finish := (session.apply .runCycle).2.collection
    Heap.ofCapacity 7 = .ok (Heap.fresh 7) ∧ Request.runCycle.isForCollector = true ∧
      session.heap.phase = .marking ∧ finish.heap.phase = .idle ∧
      session.collection.ReleasedAfter moves (moves.take 15) 4 ∧
      session.collection.LeavesData moves finish ∧ (finish.heap.node 4).right = 6 := by
  intro requests session moves finish
  have built : Heap.ofCapacity 7 = .ok (Heap.fresh 7) := rfl
  have phases : session.heap.phase = .marking ∧ finish.heap.phase = .idle := by decide +kernel
  have split : moves = moves.take 15 ++ .visit :: moves.drop 16 := by decide +kernel
  have freed : (session.collection.replay (moves.take 15)).Frees .visit 4 := by decide +kernel
  have head : (session.collection.replay (moves.take 15)).heap.firstFree = 6 := by
    decide +kernel
  have released : session.collection.ReleasedAfter moves (moves.take 15) 4 :=
    ⟨.visit, moves.drop 16, split, freed⟩
  have leaves : session.collection.LeavesData moves finish := run_leavesData built rfl
  have linked := (leaves.released _ _ released).2.2
  exact ⟨built, rfl, phases.1, phases.2, released, leaves, linked.trans head⟩

end Session

end Tricolor
