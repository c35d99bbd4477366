import Tricolor.Proofs.Isomorphism

/-!
# Programs do not notice the collector

A program that names nodes only by the ways to them is run twice: on one heap
together with a collector that is driven, dropped and replaced in between at will, and
on another heap without any collector.  As long as memory does not run out, the answers
and what the program can get to are the same in both runs but for the names of nodes.
-/

namespace Tricolor

/-- A way from one of the mutators' roots along child slots. -/
structure Route where
  root : Ref
  isRoot : root ∈ Ref.mutatorRoots
  hops : List Side

/-- The next node on a route.  From the sentinel there is no way on. -/
def Heap.descend (heap : Heap) (ref : Ref) (side : Side) : Ref :=
  if ref = Ref.nil then Ref.nil else (heap.node ref).child side

/-- The node at the end of a route; the sentinel if the route runs into it. -/
def Heap.follow (heap : Heap) (route : Route) : Ref :=
  route.hops.foldl heap.descend route.root

/-- What a program can do with the nodes that it can get to. -/
inductive Instruction where
  | allocateChild (parent : Route) (side : Side)
  /-- Without a route the child is the sentinel. -/
  | setChild (parent : Route) (side : Side) (child : Option Route)
  | shade (target : Route)

/-- The request that an instruction amounts to as things stand. -/
def Instruction.request (heap : Heap) : Instruction → Request
  | .allocateChild parent side => .allocateChild (heap.follow parent) side
  | .setChild parent side child =>
      .setChild (heap.follow parent) side (child.elim Ref.nil heap.follow)
  | .shade target => .shade (heap.follow target)

/-- An instruction, and what is done with the collector before it. -/
structure Turn where
  work : List Request
  attended : ∀ request ∈ work, request.isForCollector = true
  instruction : Instruction

/-- The same instruction with the collector left out. -/
def Turn.alone (turn : Turn) : Turn where
  work := []
  attended := by simp
  instruction := turn.instruction

/-- Why a request failed, if it did. -/
def Reply.fault? : Reply → Option Fault
  | .fault reason => some reason
  | _ => none

/-- Why an operation failed, if it did. -/
def Outcome.fault? {α : Type} (outcome : Outcome α) : Option Fault :=
  match outcome.1 with
  | .ok _ => none
  | .error reason => some reason

theorem Reply.eq_fault_of_fault? {reply : Reply} {reason : Fault}
    (failed : reply.fault? = some reason) :
    reply = .fault reason := by
  cases reply with
  | fault found => exact congrArg Reply.fault (Option.some.inj failed)
  | _ => cases failed

namespace Session

def execute (session : Session) (instruction : Instruction) : Reply × Session :=
  session.apply (instruction.request session.heap)

def take (session : Session) (turn : Turn) : Reply × Session :=
  (session.run turn.work).execute turn.instruction

/-- The session after a program. -/
def play (session : Session) (turns : List Turn) : Session :=
  turns.foldl (fun session turn => (session.take turn).2) session

/-- The answers to the instructions of a program. -/
def replies : Session → List Turn → List Reply
  | _, [] => []
  | session, turn :: turns =>
      (session.take turn).1 :: replies (session.take turn).2 turns

end Session

namespace Heap

variable {heap first second : Heap} {free freeSecond : List Ref} {rename : Ref → Ref}
  {parent child ref : Ref} {side : Side}

theorem reachable_follow (heap : Heap) (route : Route) :
    heap.MutatorReachable (heap.follow route) := by
  have along : ∀ (hops : List Side) {ref : Ref}, heap.MutatorReachable ref →
      heap.MutatorReachable (hops.foldl heap.descend ref) := by
    intro hops
    induction hops with
    | nil => exact fun reachable => reachable
    | cons side hops induction =>
        intro ref reachable
        apply induction
        unfold descend
        split
        · rename_i empty
          exact empty ▸ reachable
        · exact reachable.child side
  exact along route.hops (.root route.isRoot)

theorem held_follow (heap : Heap) (route : Route) : heap.Held (heap.follow route) :=
  .inr (heap.reachable_follow route)

theorem held_target (heap : Heap) (child : Option Route) :
    heap.Held (child.elim Ref.nil heap.follow) := by
  cases child with
  | none => exact .nil heap
  | some route => exact heap.held_follow route

/-- Instructions name only what mutators can get to. -/
theorem disciplined_request (heap : Heap) (instruction : Instruction) :
    heap.Disciplined (instruction.request heap) := by
  cases instruction with
  | allocateChild parent side => exact heap.reachable_follow parent
  | setChild parent side child =>
      refine ⟨heap.reachable_follow parent, ?_⟩
      exact heap.held_target child
  | shade target => exact heap.reachable_follow target

namespace Renaming

theorem descend (alike : Renaming first second rename) (held : first.Held ref) (side : Side) :
    rename (first.descend ref side) = second.descend (rename ref) side := by
  unfold Heap.descend
  by_cases empty : ref = Ref.nil
  · rw [if_pos empty, if_pos ((alike.eq_nil_iff held).mpr empty)]
    exact alike.nil
  · rw [if_neg empty, if_neg (fun hit => empty ((alike.eq_nil_iff held).mp hit))]
    exact alike.child ref held side

/-- The same route leads to the same node. -/
theorem follow (alike : Renaming first second rename) (ordered : first.WellFormed free)
    (route : Route) :
    rename (first.follow route) = second.follow route := by
  have along : ∀ (hops : List Side) {ref : Ref}, first.Held ref →
      rename (hops.foldl first.descend ref) = hops.foldl second.descend (rename ref) := by
    intro hops
    induction hops with
    | nil => exact fun _ => rfl
    | cons side hops induction =>
        intro ref held
        have next : first.Held (first.descend ref side) := by
          unfold Heap.descend
          split
          · exact .nil first
          · exact held.child ordered.sentinelChild side
        rw [List.foldl_cons, List.foldl_cons, induction next, alike.descend held]
  have reached := along route.hops (.root route.isRoot)
  rwa [alike.root route.root route.isRoot] at reached

theorem target (alike : Renaming first second rename) (ordered : first.WellFormed free)
    (child : Option Route) :
    rename (child.elim Ref.nil first.follow) = child.elim Ref.nil second.follow := by
  cases child with
  | none => exact alike.nil
  | some route => exact alike.follow ordered route

end Renaming

theorem checkWritable_nil (ordered : heap.WellFormed free) :
    heap.checkWritable Ref.nil = .error (.reserved Ref.nil) := by
  have inside : Ref.nil < heap.capacity := Nat.lt_of_lt_of_le (by decide) ordered.roomy
  simp [checkWritable, checkRange, inside]

theorem Held.checkWritable (held : heap.Held ref) (ordered : heap.WellFormed free)
    (proper : ref ≠ Ref.nil) :
    heap.checkWritable ref = .ok () := by
  simp [Heap.checkWritable, checkRange, held.lt_capacity ordered, proper,
    held.ne_freeRoot ordered]

theorem Held.accepts (held : heap.Held ref) (ordered : heap.WellFormed free)
    (safe : heap.Safe) (proper : ref ≠ Ref.nil) :
    heap.Accepts ref where
  writable := held.checkWritable ordered proper
  usable := if_pos (held.usable ordered safe)

/-- A program's allocation fails only for want of memory, or for want of a parent. -/
theorem allocateChild_of_held (ordered : heap.WellFormed free) (safe : heap.Safe)
    (held : heap.Held parent) (side : Side) :
    parent = Ref.nil ∧ heap.allocateChild parent side = (.error (.reserved Ref.nil), heap) ∨
      heap.allocateChild parent side = (.error .outOfMemory, heap) ∨
      parent ≠ Ref.nil ∧ heap.firstFree ≠ Ref.nil ∧
        ∃ middle after rest, heap.allocateChild parent side = (.ok heap.firstFree, after) ∧
          Popped heap heap.firstFree middle ∧
          Linked middle parent side heap.firstFree after ∧ after.WellFormed rest := by
  by_cases empty : parent = Ref.nil
  · subst empty
    exact .inl ⟨rfl, by simp [Heap.allocateChild, checkWritable_nil ordered]⟩
  · have accepted := held.accepts ordered safe empty
    by_cases exhausted : heap.firstFree = Ref.nil
    · exact .inr (.inl (accepted.allocateChild_of_exhausted exhausted side))
    · have popped := ordered.popped_popFree exhausted
      have linkable := accepted.linkable ordered.toShaped exhausted
      have linked := (linkable.linked side).report
        (.liveNodes (heap.popFree.2.relink parent side heap.firstFree).liveCount)
      have allocated := accepted.allocateChild_of_available ordered.toShaped exhausted side
      obtain ⟨_, rest, orderedMiddle⟩ := ordered.exists_popped exhausted popped
      exact .inr (.inr ⟨empty, exhausted, heap.popFree.2, _, rest, allocated, popped, linked,
        orderedMiddle.linked linkable linked⟩)

/-- A program's link fails only for want of a parent. -/
theorem setChild_of_held (ordered : heap.WellFormed free) (safe : heap.Safe)
    (held : heap.Held parent) (childHeld : heap.Held child) (side : Side) :
    parent = Ref.nil ∧ heap.setChild parent side child = (.error (.reserved Ref.nil), heap) ∨
      parent ≠ Ref.nil ∧ ∃ after, heap.setChild parent side child = (.ok (), after) ∧
        Linked heap parent side child after ∧ after.WellFormed free := by
  by_cases empty : parent = Ref.nil
  · subst empty
    exact .inl ⟨rfl, by simp [Heap.setChild, checkWritable_nil ordered]⟩
  · have linkable : heap.Linkable parent child :=
      ⟨held.lt_capacity ordered, empty, held.ne_freeRoot ordered, held.usable ordered safe,
        childHeld.lt_capacity ordered, childHeld.ne_freeRoot ordered,
        .inr (childHeld.usable ordered safe)⟩
    have linked := linkable.linked side
    exact .inr ⟨empty, heap.relink parent side child, linkable.setChild_eq_ok side, linked,
      ordered.linked linkable linked⟩

theorem shadeNode_of_held (ordered : heap.WellFormed free) (held : heap.Held ref) :
    ∃ marked, heap.shadeNode ref = (.ok marked, heap.shade ref) := by
  have ranged : heap.checkRange ref = .ok () := if_pos (held.lt_capacity ordered)
  exact ⟨(heap.node ref).color == .white, by simp only [Heap.shadeNode, ranged]⟩

/-- Two outcomes that a program cannot tell apart. -/
structure Alike {α : Type} (first second : Outcome α) : Prop where
  fault : first.fault? = second.fault?
  isomorphic : first.2.Isomorphic second.2

namespace Renaming

theorem allocateChild (alike : Renaming first second rename)
    (ordered : first.WellFormed free) (orderedSecond : second.WellFormed freeSecond)
    (safe : first.Safe) (safeSecond : second.Safe) (held : first.Held parent) (side : Side)
    (enough : (first.allocateChild parent side).fault? ≠ some .outOfMemory)
    (enoughSecond : (second.allocateChild (rename parent) side).fault? ≠ some .outOfMemory) :
    Alike (first.allocateChild parent side) (second.allocateChild (rename parent) side) := by
  have heldSecond := alike.held held
  have same := alike.eq_nil_iff held
  rcases allocateChild_of_held ordered safe held side with
    ⟨empty, failed⟩ | exhausted | ⟨proper, available, _, _, _, allocated, popped, linked, _⟩
  · rcases allocateChild_of_held orderedSecond safeSecond heldSecond side with
      ⟨_, failedSecond⟩ | exhausted | ⟨properSecond, _⟩
    · rw [failed, failedSecond]
      exact ⟨rfl, rename, alike⟩
    · rw [exhausted] at enoughSecond
      exact absurd rfl enoughSecond
    · exact absurd (same.mpr empty) properSecond
  · rw [exhausted] at enough
    exact absurd rfl enough
  · rcases allocateChild_of_held orderedSecond safeSecond heldSecond side with
      ⟨emptySecond, _⟩ | exhausted |
        ⟨_, availableSecond, _, _, _, allocatedSecond, poppedSecond, linkedSecond, orderedAfter⟩
    · exact absurd (same.mp emptySecond) proper
    · rw [exhausted] at enoughSecond
      exact absurd rfl enoughSecond
    · rw [allocated, allocatedSecond]
      exact ⟨rfl, _, alike.grown ordered orderedSecond safe safeSecond orderedAfter held
        available availableSecond popped linked poppedSecond linkedSecond⟩

theorem setChild (alike : Renaming first second rename)
    (ordered : first.WellFormed free) (orderedSecond : second.WellFormed freeSecond)
    (safe : first.Safe) (safeSecond : second.Safe) (held : first.Held parent) (side : Side)
    (childHeld : first.Held child) :
    Alike (first.setChild parent side child)
      (second.setChild (rename parent) side (rename child)) := by
  have heldSecond := alike.held held
  have same := alike.eq_nil_iff held
  rcases setChild_of_held ordered safe held childHeld side with
    ⟨empty, failed⟩ | ⟨proper, _, changed, linked, _⟩
  · rcases setChild_of_held orderedSecond safeSecond heldSecond (alike.held childHeld) side with
      ⟨_, failedSecond⟩ | ⟨properSecond, _⟩
    · rw [failed, failedSecond]
      exact ⟨rfl, rename, alike⟩
    · exact absurd (same.mpr empty) properSecond
  · rcases setChild_of_held orderedSecond safeSecond heldSecond (alike.held childHeld) side with
      ⟨emptySecond, _⟩ | ⟨_, _, changedSecond, linkedSecond, orderedAfter⟩
    · exact absurd (same.mp emptySecond) proper
    · rw [changed, changedSecond]
      exact ⟨rfl, rename, alike.linked ordered orderedAfter held childHeld linked linkedSecond⟩

theorem shadeNode (alike : Renaming first second rename)
    (ordered : first.WellFormed free) (orderedSecond : second.WellFormed freeSecond)
    (held : first.Held ref) :
    Alike (first.shadeNode ref) (second.shadeNode (rename ref)) := by
  obtain ⟨_, shaded⟩ := shadeNode_of_held ordered held
  obtain ⟨_, shadedSecond⟩ := shadeNode_of_held orderedSecond (alike.held held)
  have shading := shade_shaded first ref
  have shadingSecond := shade_shaded second (rename ref)
  rw [shaded, shadedSecond]
  refine ⟨rfl, rename, ?_⟩
  apply alike.frame ordered.sentinelChild (orderedSecond.shaded shadingSecond)
  · intro ref side _
    exact shading.child ref side
  · intro ref side _
    exact shadingSecond.child ref side

end Renaming

end Heap

namespace Session

theorem fault?_mutate
    {α : Type} (session : Session) {reply : α → Reply}
    (plain : ∀ value, (reply value).fault? = none) (operation : Heap → Outcome α) :
    (session.mutate reply operation).1.fault? = (operation session.heap).fault? := by
  obtain ⟨heap, driver, handles⟩ := session
  unfold mutate
  rcases found : operation heap with ⟨value | reason, after⟩
  · simp [found, Reply.fault?, Outcome.fault?]
  · simp [found, plain, Outcome.fault?]

theorem alike_mutate
    {α : Type} {first second : Session} {reply replySecond : α → Reply}
    {operation operationSecond : Heap → Outcome α}
    (plain : ∀ value, (reply value).fault? = none)
    (plainSecond : ∀ value, (replySecond value).fault? = none)
    (alike : Heap.Alike (operation first.heap) (operationSecond second.heap)) :
    (first.mutate reply operation).1.fault? =
        (second.mutate replySecond operationSecond).1.fault? ∧
      (first.mutate reply operation).2.heap.Isomorphic
        (second.mutate replySecond operationSecond).2.heap := by
  rw [fault?_mutate first plain, fault?_mutate second plainSecond, mutate_snd, mutate_snd]
  exact ⟨alike.fault, alike.isomorphic⟩

/-- Two sessions that a program cannot tell apart. -/
structure Matched (first second : Session) : Prop where
  consistent : first.collection.Consistent
  safe : first.heap.Safe
  consistentSecond : second.collection.Consistent
  safeSecond : second.heap.Safe
  isomorphic : first.heap.Isomorphic second.heap

/-- Collector work on one heap does not make it any different from another. -/
theorem isomorphic_invariant
    {other : Heap} {free : List Ref} (ordered : other.WellFormed free) :
    HeapInvariant (fun _ request => request.isForCollector = true) fun heap =>
      (∀ side, (heap.node Ref.nil).child side = Ref.nil) ∧ heap.Safe ∧ heap.Isomorphic other where
  worked := by
    rintro before after free orderedBefore worked ⟨sentinel, safe, rename, alike⟩
    have spared : ∀ ref side, before.Held ref →
        (after.node ref).child side = (before.node ref).child side :=
      fun ref side held => safe.child_worked orderedBefore worked held side
    refine ⟨fun side => ?_, safe.worked orderedBefore worked, rename, ?_⟩
    · exact (spared Ref.nil side (.nil before)).trans (sentinel side)
    · exact alike.frame sentinel ordered spared fun _ _ _ => rfl
  performed := by
    intro before after free request _ performed admitted held
    cases performed with
    | refused => exact held
    | _ => cases admitted
  dropped := by
    rintro before after _ same resting ⟨sentinel, safe, rename, alike⟩
    refine ⟨fun side => (same.child Ref.nil side).trans (sentinel side),
      safe.calm same (by simp [resting.phase]), rename, ?_⟩
    exact alike.frame sentinel ordered (fun ref side _ => same.child ref side) fun _ _ _ => rfl
  retry admitted := by cases admitted

theorem obeys_of_forall {admits : Request → Prop} {requests : List Request}
    (admitted : ∀ request ∈ requests, admits request) (session : Session) :
    session.Obeys (fun _ request => admits request) requests := by
  induction requests generalizing session with
  | nil => trivial
  | cons request requests induction =>
      obtain ⟨first, rest⟩ := List.forall_mem_cons.mp admitted
      exact ⟨first, induction rest _⟩

namespace Matched

variable {first second : Session}

/-- The collector works in one of the sessions. -/
theorem work (matched : Matched first second) {requests : List Request}
    (work : ∀ request ∈ requests, request.isForCollector = true) :
    Matched (first.run requests) second := by
  obtain ⟨free, ordered⟩ := matched.consistent.ordered
  obtain ⟨freeSecond, orderedSecond⟩ := matched.consistentSecond.ordered
  have obeys := obeys_of_forall work first
  obtain ⟨consistent, _, safe, isomorphic⟩ :=
    (isomorphic_invariant orderedSecond).preserves.run obeys
      ⟨matched.consistent, ordered.sentinelChild, matched.safe, matched.isomorphic⟩
  exact ⟨consistent, safe, matched.consistentSecond, matched.safeSecond, isomorphic⟩

/-- Both sessions answer an instruction alike, unless one of them is out of memory. -/
theorem alike_execute (matched : Matched first second) (instruction : Instruction)
    (enough : (first.execute instruction).1.fault? ≠ some .outOfMemory)
    (enoughSecond : (second.execute instruction).1.fault? ≠ some .outOfMemory) :
    (first.execute instruction).1.fault? = (second.execute instruction).1.fault? ∧
      (first.execute instruction).2.heap.Isomorphic (second.execute instruction).2.heap := by
  obtain ⟨free, ordered⟩ := matched.consistent.ordered
  obtain ⟨freeSecond, orderedSecond⟩ := matched.consistentSecond.ordered
  obtain ⟨rename, alike⟩ := matched.isomorphic
  have safe := matched.safe
  have safeSecond := matched.safeSecond
  cases instruction with
  | allocateChild parent side =>
      have same := alike.follow ordered parent
      change ((first.mutate .ref (·.allocateChild (first.heap.follow parent) side)).1.fault?
        ≠ some .outOfMemory) at enough
      change ((second.mutate .ref (·.allocateChild (second.heap.follow parent) side)).1.fault?
        ≠ some .outOfMemory) at enoughSecond
      rw [fault?_mutate first (fun _ => rfl)] at enough
      rw [fault?_mutate second (fun _ => rfl)] at enoughSecond
      rw [← same] at enoughSecond
      have outcomes := alike.allocateChild ordered orderedSecond safe safeSecond
        (first.heap.held_follow parent) side enough enoughSecond
      rw [same] at outcomes
      exact alike_mutate (fun _ => rfl) (fun _ => rfl) outcomes
  | setChild parent side child =>
      have outcomes := alike.setChild ordered orderedSecond safe safeSecond
        (first.heap.held_follow parent) side (first.heap.held_target child)
      rw [alike.follow ordered parent, alike.target ordered child] at outcomes
      exact alike_mutate (fun _ => rfl) (fun _ => rfl) outcomes
  | shade target =>
      have outcomes := alike.shadeNode ordered orderedSecond (first.heap.held_follow target)
      rw [alike.follow ordered target] at outcomes
      exact alike_mutate (fun _ => rfl) (fun _ => rfl) outcomes

theorem execute (matched : Matched first second) (instruction : Instruction)
    (isomorphic : (first.execute instruction).2.heap.Isomorphic
      (second.execute instruction).2.heap) :
    Matched (first.execute instruction).2 (second.execute instruction).2 := by
  have discipline := first.heap.disciplined_request instruction
  have disciplineSecond := second.heap.disciplined_request instruction
  obtain ⟨consistent, safe⟩ := safe_invariant.preserves.apply discipline
    ⟨matched.consistent, matched.safe⟩
  obtain ⟨consistentSecond, safeSecond⟩ := safe_invariant.preserves.apply disciplineSecond
    ⟨matched.consistentSecond, matched.safeSecond⟩
  exact ⟨consistent, safe, consistentSecond, safeSecond, isomorphic⟩

theorem take (matched : Matched first second) (turn : Turn)
    (enough : (first.take turn).1 ≠ .fault .outOfMemory)
    (enoughSecond : (second.take turn.alone).1 ≠ .fault .outOfMemory) :
    (first.take turn).1.fault? = (second.take turn.alone).1.fault? ∧
      Matched (first.take turn).2 (second.take turn.alone).2 := by
  have worked := matched.work turn.attended
  obtain ⟨same, isomorphic⟩ := worked.alike_execute turn.instruction
    (fun exhausted => enough (Reply.eq_fault_of_fault? exhausted))
    (fun exhausted => enoughSecond (Reply.eq_fault_of_fault? exhausted))
  exact ⟨same, worked.execute turn.instruction isomorphic⟩

theorem play (matched : Matched first second) {turns : List Turn}
    (enough : .fault .outOfMemory ∉ first.replies turns)
    (enoughSecond : .fault .outOfMemory ∉ second.replies (turns.map Turn.alone)) :
    (first.replies turns).map Reply.fault? =
        (second.replies (turns.map Turn.alone)).map Reply.fault? ∧
      Matched (first.play turns) (second.play (turns.map Turn.alone)) := by
  induction turns generalizing first second with
  | nil => exact ⟨rfl, matched⟩
  | cons turn turns induction =>
      rw [replies, List.mem_cons, not_or] at enough
      rw [List.map_cons, replies, List.mem_cons, not_or] at enoughSecond
      obtain ⟨now, later⟩ := enough
      obtain ⟨nowSecond, laterSecond⟩ := enoughSecond
      obtain ⟨same, matchedAfter⟩ := matched.take turn (Ne.symm now) (Ne.symm nowSecond)
      obtain ⟨sameRest, matchedEnd⟩ := induction matchedAfter later laterSecond
      refine ⟨?_, matchedEnd⟩
      rw [List.map_cons, replies, replies, List.map_cons, List.map_cons, same, sameRest]

end Matched

theorem replies_append (session : Session) (done rest : List Turn) :
    session.replies (done ++ rest) =
      session.replies done ++ (session.play done).replies rest := by
  induction done generalizing session with
  | nil => rfl
  | cons turn done induction =>
      rw [List.cons_append, replies, replies, induction, List.cons_append]
      rfl

/-- A program is run with a collector that is driven, dropped and replaced at will, and
it is run on another heap, of any size, without one.  If no allocation of either run
finds memory exhausted, each instruction succeeds or fails in both runs alike, and after
each instruction what the program can get to has the same shape in both. -/
theorem play_transparent
    {capacity other : Nat} {initial bare : Heap} {turns : List Turn}
    (built : Heap.ofCapacity capacity = .ok initial)
    (builtOther : Heap.ofCapacity other = .ok bare)
    (enough : .fault .outOfMemory ∉ (ofHeap initial).replies turns)
    (enoughOther : .fault .outOfMemory ∉ (ofHeap bare).replies (turns.map Turn.alone)) :
    ((ofHeap initial).replies turns).map Reply.fault? =
        ((ofHeap bare).replies (turns.map Turn.alone)).map Reply.fault? ∧
      ∀ done rest, turns = done ++ rest → ∀ more : List Request,
        (∀ request ∈ more, request.isForCollector = true) →
        (((ofHeap initial).play done).run more).heap.Isomorphic
          ((ofHeap bare).play (done.map Turn.alone)).heap := by
  have consistent := consistent_ofHeap built
  have consistentOther := consistent_ofHeap builtOther
  obtain ⟨roomy, rfl⟩ := Heap.of_ofCapacity built
  obtain ⟨roomyOther, rfl⟩ := Heap.of_ofCapacity builtOther
  have start : Matched (ofHeap (Heap.fresh capacity)) (ofHeap (Heap.fresh other)) :=
    ⟨consistent, Heap.fresh_safe roomy, consistentOther, Heap.fresh_safe roomyOther,
      Heap.fresh_isomorphic capacity roomyOther⟩
  refine ⟨(start.play enough enoughOther).1, ?_⟩
  rintro done rest rfl more work
  rw [replies_append, List.mem_append, not_or] at enough
  rw [List.map_append, replies_append, List.mem_append, not_or] at enoughOther
  have matched := (start.play enough.1 enoughOther.1).2
  exact (matched.work work).isomorphic

/-- Collected nodes are used again, so that the left child of node 2 has another name
in the other heap.  The last instruction names the sentinel as a parent. -/
theorem play_transparent_after_reuse :
    let first : Route := ⟨1, by decide, []⟩
    let second : Route := ⟨2, by decide, []⟩
    let firstLeft : Route := ⟨1, by decide, [.left]⟩
    let secondLeft : Route := ⟨2, by decide, [.left]⟩
    let turns : List Turn :=
      [⟨[.attach], by decide, .allocateChild first .left⟩,
        ⟨[.step 2], by decide, .allocateChild firstLeft .right⟩,
        ⟨[.step 3, .detach, .attach, .step 1], by decide, .setChild first .left none⟩,
        ⟨[.runCycle, .runCycle, .step 9], by decide, .allocateChild second .left⟩,
        ⟨[.step 4], by decide, .setChild secondLeft .right (some secondLeft)⟩,
        ⟨[.runCycle], by decide, .allocateChild firstLeft .left⟩]
    let attended := (ofHeap (Heap.fresh 6)).play turns
    let alone := (ofHeap (Heap.fresh 9)).play (turns.map Turn.alone)
    .fault .outOfMemory ∉ (ofHeap (Heap.fresh 6)).replies turns ∧
      .fault .outOfMemory ∉ (ofHeap (Heap.fresh 9)).replies (turns.map Turn.alone) ∧
      ((ofHeap (Heap.fresh 6)).replies turns).map Reply.fault? =
        ((ofHeap (Heap.fresh 9)).replies (turns.map Turn.alone)).map Reply.fault? ∧
      (attended.heap.node 2).left = 5 ∧ (alone.heap.node 2).left = 6 ∧
      (attended.run [.step 3, .detach]).heap.Isomorphic alone.heap := by
  intro first second firstLeft secondLeft turns attended alone
  have built : Heap.ofCapacity 6 = .ok (Heap.fresh 6) := rfl
  have builtOther : Heap.ofCapacity 9 = .ok (Heap.fresh 9) := rfl
  have enough : .fault .outOfMemory ∉ (ofHeap (Heap.fresh 6)).replies turns := by decide
  have enoughOther :
      .fault .outOfMemory ∉ (ofHeap (Heap.fresh 9)).replies (turns.map Turn.alone) := by
    decide
  obtain ⟨same, isomorphic⟩ := play_transparent built builtOther enough enoughOther
  exact ⟨enough, enoughOther, same, by decide, by decide,
    isomorphic turns [] (List.append_nil turns).symm [.step 3, .detach] (by decide)⟩

end Session

end Tricolor
