import Tricolor.Proofs.FreshHeap

/-!
# Runs taken apart

What a run does to a heap it does in moves: the operation of a mutator is one
move, and each single piece of collector work is another.  `Session.trace` lists
the moves of a run in order, so that one can speak of what happens in the midst
of a request and of what has happened since a cycle began.
-/

namespace Tricolor

/-- What happens to a heap and its collector in one go. -/
inductive Move where
  | mutate (request : Request)
  | markRoots
  | visit
  | finish
  | attach
  | detach
  deriving DecidableEq, Repr

/-- The move is not a mutator's. -/
def Move.isWork : Move → Bool
  | .mutate _ => false
  | _ => true

/-- What a request does to the heap on its own, without a collector. -/
def Request.change (request : Request) : Heap → Heap :=
  request.mutation?.getD id

namespace Collection

def perform (collection : Collection) : Move → Collection
  | .mutate request => ⟨request.change collection.heap, collection.collector⟩
  | .markRoots => collection.markRoots
  | .visit => collection.visit
  | .finish => collection.finish.2
  | .attach => attach collection.heap
  | .detach => ⟨collection.detach, {}⟩

@[simp] theorem perform_markRoots (collection : Collection) :
    collection.perform .markRoots = collection.markRoots :=
  rfl

@[simp] theorem perform_visit (collection : Collection) :
    collection.perform .visit = collection.visit :=
  rfl

/-- The move can be made as things stand. -/
def Possible (collection : Collection) : Move → Prop
  | .markRoots => collection.collector.position = .idle
  | .visit => collection.collector.position ≠ .idle ∧ collection.isSpent = false
  | .finish => collection.isSpent = true
  | .attach => collection.collector = {}
  | _ => True

def replay (collection : Collection) (moves : List Move) : Collection :=
  moves.foldl perform collection

/-- Every move can be made when its turn comes. -/
def Legal : Collection → List Move → Prop
  | _, [] => True
  | collection, move :: moves =>
      collection.Possible move ∧ Legal (collection.perform move) moves

/-- Every move is made with a cycle in progress. -/
def InCycle : Collection → List Move → Prop
  | _, [] => True
  | collection, move :: moves =>
      collection.collector.position ≠ .idle ∧ InCycle (collection.perform move) moves

instance decidableInCycle :
    (collection : Collection) → (moves : List Move) → Decidable (collection.InCycle moves)
  | _, [] => inferInstanceAs (Decidable True)
  | collection, move :: moves =>
      have := decidableInCycle (collection.perform move) moves
      inferInstanceAs (Decidable (_ ∧ _))

/-- The move takes the node out of use. -/
abbrev Frees (collection : Collection) (move : Move) (ref : Ref) : Prop :=
  (collection.heap.node ref).live = true ∧
    ((collection.perform move).heap.node ref).live = false

/-- The nodes that a note is taken of, move by move; the note looks at the move and at
the node before and after it. -/
def noted (note : Move → Node → Node → Bool) : Collection → List Move → List Ref
  | _, [] => []
  | collection, move :: moves =>
      let after := collection.perform move
      (List.range collection.capacity).filter
          (fun ref => note move (collection.heap.node ref) (after.heap.node ref)) ++
        noted note after moves

/-- The nodes that collector work takes out of use, in this order. -/
def collected : Collection → List Move → List Ref :=
  noted fun move before after => move.isWork && before.live && !after.live

/-- The moves are legal and lead from one collection to the other. -/
structure Leads (before : Collection) (moves : List Move) (after : Collection) :
    Prop where
  legal : before.Legal moves
  replay : before.replay moves = after

@[simp] theorem replay_nil (collection : Collection) : collection.replay [] = collection :=
  rfl

@[simp] theorem replay_cons (collection : Collection) (move : Move) (moves : List Move) :
    collection.replay (move :: moves) = (collection.perform move).replay moves :=
  rfl

@[simp] theorem replay_append (collection : Collection) (moves more : List Move) :
    collection.replay (moves ++ more) = (collection.replay moves).replay more := by
  simp [replay]

theorem legal_append {collection : Collection} {moves more : List Move} :
    collection.Legal (moves ++ more) ↔
      collection.Legal moves ∧ (collection.replay moves).Legal more := by
  induction moves generalizing collection with
  | nil => simp [Legal]
  | cons move moves induction =>
      simp only [List.cons_append, Legal, induction, replay_cons, and_assoc]

theorem inCycle_append {collection : Collection} {moves more : List Move} :
    collection.InCycle (moves ++ more) ↔
      collection.InCycle moves ∧ (collection.replay moves).InCycle more := by
  induction moves generalizing collection with
  | nil => simp [InCycle]
  | cons move moves induction =>
      simp only [List.cons_append, InCycle, induction, replay_cons, and_assoc]

theorem count_noted_cons
    (note : Move → Node → Node → Bool) (collection : Collection) (move : Move)
    (moves : List Move) (ref : Ref) :
    (collection.noted note (move :: moves)).count ref =
      (if ref < collection.capacity ∧
          note move (collection.heap.node ref) ((collection.perform move).heap.node ref)
        then 1 else 0) +
        ((collection.perform move).noted note moves).count ref := by
  have distinct := List.nodup_range.filter (l := List.range collection.capacity)
    fun ref => note move (collection.heap.node ref) ((collection.perform move).heap.node ref)
  rw [noted, List.count_append, distinct.count]
  simp

theorem exists_of_mem_noted
    {note : Move → Node → Node → Bool} {collection : Collection} {moves : List Move}
    {ref : Ref} (member : ref ∈ collection.noted note moves) :
    ∃ before move after, moves = before ++ move :: after ∧
      note move ((collection.replay before).heap.node ref)
        (((collection.replay before).perform move).heap.node ref) = true := by
  induction moves generalizing collection with
  | nil => cases member
  | cons move moves induction =>
      rcases List.mem_append.mp member with now | later
      · exact ⟨[], move, moves, rfl, (List.mem_filter.mp now).2⟩
      · obtain ⟨before, found, after, rfl, noted⟩ := induction later
        exact ⟨move :: before, found, after, rfl, noted⟩

namespace Leads

variable {before middle after : Collection} {moves more : List Move}

theorem nil (collection : Collection) : collection.Leads [] collection :=
  ⟨trivial, rfl⟩

theorem cons (move : Move) (possible : before.Possible move)
    (leads : (before.perform move).Leads moves after) :
    before.Leads (move :: moves) after :=
  ⟨⟨possible, leads.legal⟩, leads.replay⟩

theorem single (move : Move) (possible : before.Possible move) :
    before.Leads [move] (before.perform move) :=
  cons move possible (nil _)

theorem append (first : before.Leads moves middle) (second : middle.Leads more after) :
    before.Leads (moves ++ more) after := by
  have legal : (before.replay moves).Legal more := first.replay ▸ second.legal
  constructor
  · exact legal_append.mpr ⟨first.legal, legal⟩
  · rw [replay_append, first.replay, second.replay]

end Leads

/-- The moves of `Collection.markRoots`: none if a cycle is in progress. -/
def startMoves (collection : Collection) : List Move :=
  if collection.collector.position = .idle then [.markRoots] else []

/-- The moves of `Collection.step`. -/
def stepMoves : (budget : Nat) → Collection → List Move
  | 0, _ => []
  | budget + 1, collection =>
      let started := collection.markRoots
      collection.startMoves ++
        if started.isSpent then [.finish] else .visit :: stepMoves budget started.visit

/-- The moves of `Collection.sweepFor`. -/
def sweepForMoves : (limit : Nat) → Collection → List Move
  | 0, _ => []
  | limit + 1, collection =>
      match collection.collector.position with
      | .sweeping _ _ => .visit :: sweepForMoves limit collection.visit
      | _ => []

def sweepMoves (collection : Collection) : List Move :=
  let started := collection.markRoots
  collection.startMoves ++ started.sweepForMoves started.cycleBound

def reclaimMoves (collection : Collection) : List Move :=
  collection.sweepMoves ++ collection.sweep.stepMoves collection.sweep.cycleBound

/-- The moves of `Collection.stepUntilReport`. -/
def stepUntilReportMoves (budget : Nat) : (calls : Nat) → Collection → List Move
  | 0, _ => []
  | calls + 1, collection =>
      collection.stepMoves budget ++
        match collection.step budget with
        | (some _, _) => []
        | (none, stepped) => stepUntilReportMoves budget calls stepped

theorem position_markRoots (collection : Collection) :
    collection.markRoots.collector.position ≠ .idle := by
  by_cases idle : collection.collector.position = .idle
  · obtain ⟨heap, collector⟩ := collection
    rw [markRoots_of_idle idle]
    exact Position.noConfusion
  · rwa [markRoots_of_active idle]

theorem markRoots_leads (collection : Collection) :
    collection.Leads collection.startMoves collection.markRoots := by
  unfold startMoves
  split
  · rename_i idle
    exact .single .markRoots idle
  · rename_i active
    rw [markRoots_of_active active]
    exact .nil collection

theorem step_leads (collection : Collection) (budget : Nat) :
    collection.Leads (collection.stepMoves budget) (collection.step budget).2 := by
  induction budget generalizing collection with
  | zero => exact .nil collection
  | succ budget induction =>
      rw [stepMoves, step]
      apply collection.markRoots_leads.append
      cases spent : collection.markRoots.isSpent with
      | true => exact .single .finish spent
      | false => exact .cons .visit ⟨collection.position_markRoots, spent⟩ (induction _)

theorem sweepFor_leads (collection : Collection) (limit : Nat) :
    collection.Leads (collection.sweepForMoves limit) (collection.sweepFor limit) := by
  induction limit generalizing collection with
  | zero => exact .nil collection
  | succ limit induction =>
      unfold sweepForMoves sweepFor
      cases position : collection.collector.position with
      | idle => exact .nil collection
      | sweeping cursor clean =>
          have active : collection.collector.position ≠ .idle := by simp [position]
          exact .cons .visit ⟨active, isSpent_of_sweeping position⟩ (induction collection.visit)
      | reclaiming cursor => exact .nil collection

theorem sweep_leads (collection : Collection) :
    collection.Leads collection.sweepMoves collection.sweep :=
  collection.markRoots_leads.append (sweepFor_leads _ _)

theorem reclaim_leads (collection : Collection) :
    collection.Leads collection.reclaimMoves collection.reclaim.2 :=
  collection.sweep_leads.append (step_leads _ _)

theorem stepUntilReport_leads (collection : Collection) (budget calls : Nat) :
    collection.Leads (collection.stepUntilReportMoves budget calls)
      (collection.stepUntilReport budget calls).2 := by
  induction calls generalizing collection with
  | zero => exact .nil collection
  | succ calls induction =>
      have stepped := collection.step_leads budget
      unfold stepUntilReportMoves stepUntilReport
      rcases found : collection.step budget with ⟨report | _, after⟩
      · rw [found] at stepped
        exact stepped.append (induction after)
      · rw [found] at stepped
        exact stepped.append (.nil after)

end Collection

/-- What a move does to the heap: each of them is one of three kinds. -/
inductive Heap.Moved (before : Heap) : Move → Heap → Prop where
  | mutated {request : Request} {after : Heap}
      (performed : before.Performed request after) : Moved before (.mutate request) after
  | worked {move : Move} {after : Heap} (work : move.isWork = true)
      (worked : before.Worked after) : Moved before move after
  | dropped {after : Heap} (same : SameShape before after) (resting : after.Resting) :
      Moved before .detach after

theorem Heap.WellFormed.performed_change
    {heap : Heap} {free : List Ref} (ordered : heap.WellFormed free) (request : Request) :
    heap.Performed request (request.change heap) := by
  unfold Request.change
  cases performs : request.mutation? with
  | none => exact .refused
  | some change => exact ordered.performed performs

theorem Heap.Worked.capacity {before after : Heap} (worked : before.Worked after) :
    after.capacity = before.capacity := by
  cases worked with
  | rest same => rw [same]
  | start resting marking same => exact same.capacity
  | scan marking scanned => exact scanned.capacity
  | settle marking settled same reclaiming => exact same.capacity
  | free reclaiming garbage pushed => exact pushed.capacity
  | spare reclaiming spared whitened =>
      exact whitened ▸ (whiten_moveFrontier_sameShape ..).capacity
  | finish reclaiming passed same resting => exact same.capacity

/-- No move changes the size of a heap. -/
theorem Heap.Moved.capacity
    {before after : Heap} {free : List Ref} {move : Move} (moved : before.Moved move after)
    (ordered : before.WellFormed free) :
    after.capacity = before.capacity := by
  cases moved with
  | mutated performed => exact (performed.kept ordered).1.capacity
  | worked work worked => exact worked.capacity
  | dropped same resting => exact same.capacity

namespace Collection

namespace Consistent

variable {collection : Collection} {move : Move} {moves : List Move}

theorem perform (consistent : collection.Consistent) (possible : collection.Possible move) :
    (collection.perform move).Consistent := by
  cases move with
  | mutate request =>
      obtain ⟨⟨free, ordered⟩, inPhase⟩ := consistent
      obtain ⟨kept, orderedAfter⟩ := (ordered.performed_change request).kept ordered
      exact ⟨orderedAfter, kept.inPhase inPhase⟩
  | markRoots => exact consistent.markRoots.consistent
  | visit => exact (consistent.visit possible.2).consistent
  | finish => exact (consistent.finish possible).consistent
  | attach =>
      obtain ⟨heap, collector⟩ := collection
      cases (possible : collector = {})
      exact consistent.attach
  | detach => exact consistent.detach.2

theorem moved (consistent : collection.Consistent) (possible : collection.Possible move) :
    collection.heap.Moved move (collection.perform move).heap := by
  cases move with
  | mutate request =>
      obtain ⟨free, ordered⟩ := consistent.ordered
      exact .mutated (ordered.performed_change request)
  | markRoots => exact .worked rfl consistent.markRoots.worked
  | visit => exact .worked rfl (consistent.visit possible.2).worked
  | finish => exact .worked rfl (consistent.finish possible).worked
  | attach =>
      obtain ⟨heap, collector⟩ := collection
      cases (possible : collector = {})
      exact .worked rfl (.rest (congrArg Collection.heap consistent.attach_eq))
  | detach => exact .dropped consistent.detach.1 consistent.detach.2.inPhase

theorem replay (consistent : collection.Consistent) (legal : collection.Legal moves) :
    (collection.replay moves).Consistent := by
  induction moves generalizing collection with
  | nil => exact consistent
  | cons move moves induction => exact induction (consistent.perform legal.1) legal.2

theorem capacity_replay (consistent : collection.Consistent) (legal : collection.Legal moves) :
    (collection.replay moves).heap.capacity = collection.heap.capacity := by
  induction moves generalizing collection with
  | nil => rfl
  | cons move moves induction =>
      obtain ⟨free, ordered⟩ := consistent.ordered
      have rest := induction (consistent.perform legal.1) legal.2
      exact rest.trans ((consistent.moved legal.1).capacity ordered)

theorem phase_ne_idle (consistent : collection.Consistent)
    (active : collection.collector.position ≠ .idle) :
    collection.heap.phase ≠ .idle :=
  fun idle => active (consistent.phase_eq_idle_iff.mpr idle)

/-- A property that survives each move of a cycle survives any number of them. -/
theorem replay_inCycle {property : Heap → Prop}
    (stable : ∀ {before after : Heap} {free : List Ref} {move : Move},
      before.Moved move after → before.WellFormed free → before.phase ≠ .idle →
        property before → property after)
    (consistent : collection.Consistent) (legal : collection.Legal moves)
    (inCycle : collection.InCycle moves) (holds : property collection.heap) :
    property (collection.replay moves).heap := by
  induction moves generalizing collection with
  | nil => exact holds
  | cons move moves induction =>
      obtain ⟨free, ordered⟩ := consistent.ordered
      have active := consistent.phase_ne_idle inCycle.1
      exact induction (consistent.perform legal.1) legal.2 inCycle.2
        (stable (consistent.moved legal.1) ordered active holds)

end Consistent

end Collection

namespace Session

/-- The moves of a stepping collector. -/
def driveMoves (session : Session) (moves : Collection → List Move) : List Move :=
  match session.driver with
  | .stepping collector => moves ⟨session.heap, collector⟩
  | _ => []

/-- The moves in which the background collector completes a cycle. -/
def cycleMoves (session : Session) : List Move :=
  match session.driver with
  | .background collector budget =>
      let collection : Collection := ⟨session.heap, collector⟩
      collection.stepUntilReportMoves budget collection.cycleBound
  | _ => []

/-- The moves of the collector that is woken through a handle. -/
def wakeMoves (session : Session) (handle : Nat) : List Move :=
  if session.serves handle then session.cycleMoves else []

/-- The moves of `Session.allocateChildOrCollect`. -/
def allocateChildOrCollectMoves (session : Session) (parent : Ref) (side : Side)
    (handle : Option Nat) : List Move :=
  let attempt := Move.mutate (.allocateChild parent side)
  match session.mutate .ref (·.allocateChild parent side) with
  | (.fault .outOfMemory, session) =>
      match handle with
      | none => [attempt]
      | some handle => [attempt] ++ session.wakeMoves handle ++ [attempt]
  | _ => [attempt]

/-- The moves in which a request is answered. -/
def moves (session : Session) : Request → List Move
  | .allocateChildOrCollect parent side handle =>
      session.allocateChildOrCollectMoves parent side handle
  | .attach =>
      match session.driver with
      | .unattended => [.attach]
      | _ => []
  | .detach =>
      match session.driver with
      | .unattended => []
      | _ => [.detach]
  | .markRoots => session.driveMoves Collection.startMoves
  | .sweep => session.driveMoves Collection.sweepMoves
  | .step budget => session.driveMoves (Collection.stepMoves budget)
  | .reclaim => session.driveMoves Collection.reclaimMoves
  | .runCycle => session.driveMoves Collection.reclaimMoves
  | .spawn budget =>
      session.driveMoves fun collection =>
        collection.stepUntilReportMoves (max 1 budget) collection.cycleBound
  | .stop => []
  | .requestCycle handle => session.wakeMoves handle
  | .requestAndWait handle => session.wakeMoves handle
  | request => [.mutate request]

/-- The moves of a run. -/
def trace : Session → List Request → List Move
  | _, [] => []
  | session, request :: requests =>
      session.moves request ++ trace (session.apply request).2 requests

variable {session : Session}

theorem mutate_leads (session : Session) {α : Type} (reply : α → Reply)
    {operation : Heap → Outcome α} {request : Request}
    (performs : request.mutation? = some fun heap => (operation heap).2) :
    session.collection.Leads [.mutate request]
      (session.mutate reply operation).2.collection := by
  have same : (session.mutate reply operation).2.collection =
      session.collection.perform (.mutate request) := by
    rw [mutate_snd, Collection.perform, Request.change, performs]
    rfl
  rw [same]
  exact .single (.mutate request) trivial

theorem drive_leads (session : Session) {moves : Collection → List Move}
    {work : Collection → Reply × Collection}
    (leads : ∀ collection : Collection,
      collection.Leads (moves collection) (work collection).2) :
    session.collection.Leads (session.driveMoves moves) (session.drive work).2.collection := by
  obtain ⟨heap, driver, handles⟩ := session
  cases driver with
  | unattended => exact .nil _
  | stepping collector => exact leads ⟨heap, collector⟩
  | background collector budget => exact .nil _

theorem completeCycle_leads (session : Session) :
    session.collection.Leads session.cycleMoves session.completeCycle.collection := by
  obtain ⟨heap, driver, handles⟩ := session
  cases driver with
  | unattended => exact .nil _
  | stepping collector => exact .nil _
  | background collector budget => exact Collection.stepUntilReport_leads ..

theorem wake_leads (session : Session) (handle : Nat) :
    session.collection.Leads (session.wakeMoves handle) (session.wake handle).collection := by
  unfold wakeMoves wake
  split
  · exact session.completeCycle_leads
  · exact .nil _

section AllocateChildOrCollect

variable {parent : Ref} {side : Side} {handle : Option Nat}

theorem allocateChildOrCollectMoves_of_exhausted {exhausted : Session}
    (found : session.mutate .ref (·.allocateChild parent side) =
      (.fault .outOfMemory, exhausted)) :
    session.allocateChildOrCollectMoves parent side handle =
      match handle with
      | none => [.mutate (.allocateChild parent side)]
      | some handle => [.mutate (.allocateChild parent side)] ++ exhausted.wakeMoves handle ++
          [.mutate (.allocateChild parent side)] := by
  simp only [allocateChildOrCollectMoves, found]

theorem allocateChildOrCollectMoves_of_answered
    (answered : ∀ exhausted, session.mutate .ref (·.allocateChild parent side) ≠
      (.fault .outOfMemory, exhausted)) :
    session.allocateChildOrCollectMoves parent side handle =
      [.mutate (.allocateChild parent side)] := by
  unfold allocateChildOrCollectMoves
  split
  · rename_i exhausted found
    exact absurd found (answered exhausted)
  · rfl

theorem allocateChildOrCollect_leads (session : Session) (parent : Ref) (side : Side)
    (handle : Option Nat) :
    session.collection.Leads (session.allocateChildOrCollectMoves parent side handle)
      (session.allocateChildOrCollect parent side handle).2.collection := by
  have performs : (Request.allocateChild parent side).mutation? =
      some fun heap => (heap.allocateChild parent side).2 := rfl
  have first := session.mutate_leads .ref performs
  unfold allocateChildOrCollect
  split
  · rename_i exhausted found
    rw [found] at first
    rw [allocateChildOrCollectMoves_of_exhausted found]
    cases handle with
    | none => exact first
    | some handle =>
        exact (first.append (exhausted.wake_leads handle)).append (mutate_leads _ .ref performs)
  · rename_i answered
    rw [allocateChildOrCollectMoves_of_answered answered]
    exact first

end AllocateChildOrCollect

theorem apply_leads (session : Session) (request : Request) :
    session.collection.Leads (session.moves request) (session.apply request).2.collection := by
  cases request with
  | allocate => exact session.mutate_leads _ rfl
  | release ref => exact session.mutate_leads _ rfl
  | setChild parent side child => exact session.mutate_leads _ rfl
  | allocateChild parent side => exact session.mutate_leads _ rfl
  | allocateChildOrCollect parent side handle =>
      exact session.allocateChildOrCollect_leads parent side handle
  | shade ref => exact session.mutate_leads _ rfl
  | attach =>
      obtain ⟨heap, driver, handles⟩ := session
      cases driver with
      | unattended => exact .single .attach rfl
      | stepping collector => exact .nil _
      | background collector budget => exact .nil _
  | detach =>
      obtain ⟨heap, driver, handles⟩ := session
      cases driver with
      | unattended => exact .nil _
      | stepping collector => exact .single .detach trivial
      | background collector budget => exact .single .detach trivial
  | markRoots =>
      apply drive_leads
      exact Collection.markRoots_leads
  | sweep =>
      apply drive_leads
      exact Collection.sweep_leads
  | step budget =>
      apply drive_leads
      exact fun collection => collection.step_leads budget
  | reclaim =>
      apply drive_leads
      exact Collection.reclaim_leads
  | runCycle =>
      apply drive_leads
      exact Collection.reclaim_leads
  | spawn budget =>
      obtain ⟨heap, driver, handles⟩ := session
      cases driver with
      | unattended => exact .nil _
      | stepping collector => exact Collection.stepUntilReport_leads ..
      | background collector budget => exact .nil _
  | stop =>
      obtain ⟨heap, driver, handles⟩ := session
      cases driver <;> exact .nil _
  | requestCycle handle => exact session.wake_leads handle
  | requestAndWait handle =>
      change session.collection.Leads _ (session.requestAndWait handle).2.collection
      rw [requestAndWait_snd]
      exact session.wake_leads handle

/-- The moves of a run are legal, and they are all that happens in it. -/
theorem run_leads (session : Session) (requests : List Request) :
    session.collection.Leads (session.trace requests) (session.run requests).collection := by
  induction requests generalizing session with
  | nil => exact .nil _
  | cons request requests induction =>
      exact (session.apply_leads request).append (induction _)

/-- So are those made up to any moment of it. -/
theorem legal_of_made
    {session : Session} {requests : List Request} {moves : List Move}
    (made : moves <+: session.trace requests) :
    session.collection.Legal moves := by
  obtain ⟨rest, split⟩ := made
  have legal := (session.run_leads requests).legal
  rw [← split] at legal
  exact (Collection.legal_append.mp legal).1

theorem run_capacity
    {capacity : Nat} {initial : Heap} (built : Heap.ofCapacity capacity = .ok initial)
    (requests : List Request) :
    ((ofHeap initial).run requests).heap.capacity = capacity := by
  have leads := (ofHeap initial).run_leads requests
  have same := (consistent_ofHeap built).capacity_replay leads.legal
  rw [leads.replay] at same
  obtain ⟨_, rfl⟩ := Heap.of_ofCapacity built
  exact same.trans (Heap.capacity_fresh capacity)

end Session

end Tricolor
