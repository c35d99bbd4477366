import Tricolor.Proofs.CycleNumbers
import Tricolor.Proofs.GuardedMoves

/-!
# Nothing can go wrong

Guarded moves are what happens to a heap; there is more that relies on references and counters
to be in order.  A step takes each unit of work off its budget, a collector that goes into the
background works out how many cycles have ended, and whoever inspects a heap walks along its
free list and follows its links.  All of this is guarded here as well.  With the moves of
every run it comes to one statement: no guard ever has anything to object to.
-/

namespace Tricolor

namespace Guarded

/-- Takes off the budget for every unit of work, before it is done. -/
def step (budget : Nat) (collection : Collection) :
    Except Crash (Option CycleReport × Collection) :=
  if budget = 0 then .ok (none, collection)
  else do
    let collection ← markRoots collection
    if collection.isSpent then
      let (report, collection) := collection.finish
      return (some report, collection)
    else
      let ⟨remaining, _⟩ ← Counter.budget.lower budget 1
      step remaining (← visit collection)
termination_by budget

def cyclesEnded (heap : Heap) : Except Crash Nat :=
  if heap.phase = .idle then .ok heap.cyclesStarted
  else do
    let ⟨ended, _⟩ ← Counter.cycles.lower heap.cyclesStarted 1
    return ended

def rightChain (heap : Heap) : (limit : Nat) → Ref → Except Crash (List Ref)
  | 0, _ => .ok []
  | limit + 1, ref =>
      if ref = Ref.nil then .ok []
      else do
        let next := (← node heap ref).right
        return ref :: (← rightChain heap limit next)

def freeList (heap : Heap) : Except Crash (List Ref) := do
  rightChain heap (heap.capacity + 1) (← firstFree heap)

/-- Follows a link, unless it leads to the sentinel, and looks at the node there. -/
def examine {α : Type} (heap : Heap) (ref : Ref) (side : Side)
    (finding : Ref → Node → Option α) : Except Crash (Option α) := do
  let child := (← node heap ref).child side
  if child = Ref.nil then return none
  else return finding child (← node heap child)

def whiteChildren (heap : Heap) (parent : Ref) : Except Crash (List (Ref × Ref)) := do
  let node ← node heap parent
  if parent ≠ Ref.nil ∧ node.color = .black then
    let edges ← Side.both.mapM fun side => examine heap parent side fun child node =>
      if node.color = .white then some (parent, child) else none
    return edges.filterMap id
  else return []

def blackToWhiteEdges (heap : Heap) : Except Crash (List (Ref × Ref)) := do
  return (← (List.range heap.capacity).mapM (whiteChildren heap)).flatten

def sentinelViolation? (heap : Heap) : Except Crash (Option Violation) := do
  let _ ← node heap Ref.nil
  return heap.sentinelViolation?

def flagFree : List Ref → Array Bool → Except Crash (Except Violation (Array Bool))
  | [], flags => .ok (.ok flags)
  | ref :: chain, flags =>
      if ref < flags.size then
        if flags.getD ref false then .ok (.error (.repeatedFreeNode ref))
        else flagFree chain (flags.setIfInBounds ref true)
      else .error (.astray ref)

def misplacement? (heap : Heap) (flags : Array Bool) (ref : Ref) :
    Except Crash (Option Violation) := do
  let node ← node heap ref
  if ref < flags.size then
    let onFreeList := flags.getD ref false
    if node.live = onFreeList then return some (.misfiled ref node.live onFreeList)
    else if node.live = false ∨ ref = Ref.freeRoot ∨ heap.Condemned ref then return none
    else
      Side.both.findSomeM? fun side => examine heap ref side fun child node =>
        if node.live = false then some (.danglingChild ref side child) else none
  else .error (.astray ref)

def violation? (heap : Heap) : Except Crash (Option Violation) := do
  match ← sentinelViolation? heap with
  | some violation => return some violation
  | none =>
      match (List.range heap.capacity).findSome? heap.escape? with
      | some violation => return some violation
      | none =>
          let chain ← freeList heap
          match heap.lengthViolation? chain with
          | some violation => return some violation
          | none =>
              match ← flagFree chain (Array.replicate heap.capacity false) with
              | .error violation => return some violation
              | .ok flags => heap.properRefs.findSomeM? (misplacement? heap flags)

section Lists

variable {α β : Type} {checked : α → Except Crash β} {plain : α → β} {items : List α}

theorem mapM_eq_ok (each : ∀ item ∈ items, checked item = .ok (plain item)) :
    items.mapM checked = .ok (items.map plain) := by
  induction items with
  | nil => rfl
  | cons item items induction =>
      have rest := induction fun other member => each other (List.mem_cons_of_mem item member)
      rw [List.mapM_cons, each item List.mem_cons_self, ok_bind, rest]
      rfl

theorem findSomeM?_eq_ok {checked : α → Except Crash (Option β)} {plain : α → Option β}
    (each : ∀ item ∈ items, checked item = .ok (plain item)) :
    items.findSomeM? checked = .ok (items.findSome? plain) := by
  induction items with
  | nil => rfl
  | cons item items induction =>
      have rest := induction fun other member => each other (List.mem_cons_of_mem item member)
      rw [List.findSomeM?, each item List.mem_cons_self, ok_bind, List.findSome?_cons]
      cases plain item with
      | none => exact rest
      | some found => rfl

end Lists

theorem step_eq_ok {collection : Collection} (consistent : collection.Consistent) (budget : Nat) :
    step budget collection = .ok (collection.step budget) := by
  induction budget generalizing collection with
  | zero =>
      rw [step]
      rfl
  | succ budget induction =>
      have started := consistent.markRoots.consistent
      rw [step, if_neg (Nat.succ_ne_zero budget), markRoots_eq_ok consistent, ok_bind,
        Collection.step]
      cases spent : collection.markRoots.isSpent with
      | true => rfl
      | false =>
          have visited := (started.visit spent).consistent
          rw [lower_eq_ok (Nat.le_add_left 1 budget) .budget, ok_bind]
          dsimp only
          rw [visit_eq_ok started spent, ok_bind]
          exact induction visited

/-- A cycle in progress has been counted. -/
theorem cyclesEnded_eq_ok {collection : Collection} (consistent : collection.Consistent)
    (numbered : collection.Numbered) :
    cyclesEnded collection.heap = .ok collection.heap.cyclesEnded := by
  unfold cyclesEnded Heap.cyclesEnded
  split
  · rfl
  · rename_i active
    have counted := numbered fun idle => active (consistent.phase_eq_idle_iff.mp idle)
    rw [lower_eq_ok counted.1, ok_bind]
    rfl

section Inspection

variable {heap : Heap} {free : List Ref} {ref : Ref}

theorem rightChain_eq_ok (closed : ∀ ref side, (heap.node ref).child side < heap.capacity)
    (inside : ref < heap.capacity) (limit : Nat) :
    rightChain heap limit ref = .ok (heap.rightChain limit ref) := by
  induction limit generalizing ref with
  | zero => rfl
  | succ limit induction =>
      unfold rightChain Heap.rightChain
      split
      · rfl
      · have nextInside : (heap.node ref).right < heap.capacity := closed ref .right
        rw [node_eq_ok inside, ok_bind]
        dsimp only
        rw [induction nextInside, ok_bind]
        rfl

theorem freeList_eq_ok (roomy : Ref.freeRoot < heap.capacity)
    (closed : ∀ ref side, (heap.node ref).child side < heap.capacity) :
    freeList heap = .ok heap.freeList := by
  rw [freeList, firstFree_eq_ok roomy, ok_bind]
  exact rightChain_eq_ok closed (closed Ref.freeRoot .right) (heap.capacity + 1)

theorem examine_eq_ok {α : Type}
    (closed : ∀ ref side, (heap.node ref).child side < heap.capacity)
    (inside : ref < heap.capacity) (side : Side) (wanted : Ref → Node → Prop)
    [∀ ref node, Decidable (wanted ref node)] (finding : Ref → α) :
    (examine heap ref side fun child node =>
        if wanted child node then some (finding child) else none) =
      .ok (let child := (heap.node ref).child side
        if child ≠ Ref.nil ∧ wanted child (heap.node child) then some (finding child)
        else none) := by
  rw [examine, node_eq_ok inside, ok_bind]
  by_cases sentinel : (heap.node ref).child side = Ref.nil
  · simp only [if_pos sentinel]
    rw [if_neg (fun found => found.1 sentinel)]
    rfl
  · simp only [if_neg sentinel]
    rw [node_eq_ok (closed ref side), ok_bind]
    simp only [ne_eq, sentinel, not_false_eq_true, true_and]
    rfl

theorem whiteChildren_eq_ok (ordered : heap.WellFormed free) (inside : ref < heap.capacity) :
    whiteChildren heap ref =
      .ok (if ref ≠ Ref.nil ∧ (heap.node ref).color = .black then
        Side.both.filterMap fun side =>
          let child := (heap.node ref).child side
          if child ≠ Ref.nil ∧ (heap.node child).color = .white then some (ref, child) else none
      else []) := by
  have each := fun side => examine_eq_ok ordered.closed inside side
    (fun _ node => node.color = .white) (Prod.mk ref)
  rw [whiteChildren, node_eq_ok inside, ok_bind]
  split
  · rw [mapM_eq_ok fun side _ => each side, ok_bind, List.filterMap_map]
    rfl
  · rfl

theorem blackToWhiteEdges_eq_ok (ordered : heap.WellFormed free) :
    blackToWhiteEdges heap = .ok heap.blackToWhiteEdges := by
  have each := fun (ref : Ref) (member : ref ∈ List.range heap.capacity) =>
    whiteChildren_eq_ok ordered (List.mem_range.mp member)
  rw [blackToWhiteEdges, mapM_eq_ok each, ok_bind, Heap.blackToWhiteEdges, List.flatMap_def]
  rfl

theorem flagFree_eq_ok {chain : List Ref} {flags : Array Bool}
    (inside : ∀ ref ∈ chain, ref < flags.size) :
    flagFree chain flags = .ok (Heap.flagFree chain flags) := by
  induction chain generalizing flags with
  | nil => rfl
  | cons ref chain induction =>
      unfold flagFree Heap.flagFree
      rw [if_pos (inside ref List.mem_cons_self)]
      split
      · rfl
      · apply induction
        intro other member
        rw [Array.size_setIfInBounds]
        exact inside other (List.mem_cons_of_mem ref member)

theorem size_flagFree {chain : List Ref} {flags flagged : Array Bool}
    (succeeded : Heap.flagFree chain flags = .ok flagged) :
    flagged.size = flags.size := by
  induction chain generalizing flags with
  | nil =>
      cases succeeded
      rfl
  | cons ref chain induction =>
      unfold Heap.flagFree at succeeded
      split at succeeded
      · cases succeeded
      · rw [induction succeeded, Array.size_setIfInBounds]

theorem misplacement?_eq_ok
    (closed : ∀ ref side, (heap.node ref).child side < heap.capacity) {flags : Array Bool}
    (sized : flags.size = heap.capacity) (inside : ref < heap.capacity) :
    misplacement? heap flags ref = .ok (heap.misplacement? flags ref) := by
  unfold misplacement? Heap.misplacement?
  rw [node_eq_ok inside, ok_bind]
  simp only [if_pos (sized ▸ inside)]
  split
  · rfl
  · split
    · rfl
    · apply findSomeM?_eq_ok
      intro side _
      exact examine_eq_ok closed inside side (fun _ node => node.live = false)
        (Violation.danglingChild ref side)

theorem mem_rightChain_lt (closed : ∀ ref side, (heap.node ref).child side < heap.capacity)
    (inside : ref < heap.capacity) (limit : Nat) :
    ∀ member ∈ heap.rightChain limit ref, member < heap.capacity := by
  induction limit generalizing ref with
  | zero => simp [Heap.rightChain]
  | succ limit induction =>
      unfold Heap.rightChain
      split
      · simp
      · simpa [inside] using induction (closed ref .right)

/-- The checks come in such an order that it does not matter how badly the heap is damaged:
no slot is followed before all slots have been found to lead to a node. -/
theorem violation?_eq_ok (roomy : Heap.minCapacity ≤ heap.capacity) :
    violation? heap = .ok heap.violation? := by
  have sentinelInside : Ref.nil < heap.capacity := Nat.lt_of_lt_of_le (by decide) roomy
  unfold violation? Heap.violation?
  rw [sentinelViolation?, node_eq_ok sentinelInside, ok_bind, pure_bind]
  cases heap.sentinelViolation? with
  | some violation => rfl
  | none =>
      cases escaped : (List.range heap.capacity).findSome? heap.escape? with
      | some violation => rfl
      | none =>
          have closed := Heap.child_lt_of_inside sentinelInside
            (heap.findSome?_escape?_eq_none_iff.mp escaped)
          have listedInside : ∀ ref ∈ heap.freeList, ref < heap.capacity :=
            mem_rightChain_lt closed (closed Ref.freeRoot .right) (heap.capacity + 1)
          dsimp only
          rw [freeList_eq_ok roomy closed, ok_bind]
          cases heap.lengthViolation? heap.freeList with
          | some violation => rfl
          | none =>
              dsimp only
              rw [flagFree_eq_ok (by simpa using listedInside), ok_bind]
              cases flagged : Heap.flagFree heap.freeList (.replicate heap.capacity false) with
              | error violation => rfl
              | ok flags =>
                  have sized := (size_flagFree flagged).trans Array.size_replicate
                  exact findSomeM?_eq_ok fun ref member =>
                    misplacement?_eq_ok closed sized (Heap.mem_properRefs_iff.mp member).2

end Inspection

end Guarded

namespace Collection

/-- In a heap of `size` nodes there is no cause to crash, whatever comes next: a single move,
a step with any budget, a move into the background, or an inspection. -/
structure Faultless (collection : Collection) (size : Nat) : Prop where
  closed : ∀ ref side, (collection.heap.node ref).child side < size
  scan : ∀ cursor clean, collection.collector.position = .sweeping cursor clean → cursor < size
  pass : ∀ cursor, collection.collector.position = .reclaiming cursor →
    collection.isSpent = false → cursor < size
  moves : ∀ move, collection.Possible move →
    Guarded.perform collection move = .ok (collection.perform move)
  steps : ∀ budget, Guarded.step budget collection = .ok (collection.step budget)
  ended : Guarded.cyclesEnded collection.heap = .ok collection.heap.cyclesEnded
  live : Guarded.liveCount collection.heap = .ok collection.heap.liveCount
  free : Guarded.freeList collection.heap = .ok collection.heap.freeList
  edges : Guarded.blackToWhiteEdges collection.heap = .ok collection.heap.blackToWhiteEdges
  violation : Guarded.violation? collection.heap = .ok collection.heap.violation?

theorem Consistent.faultless {collection : Collection} (consistent : collection.Consistent)
    (numbered : collection.Numbered) :
    collection.Faultless collection.heap.capacity := by
  obtain ⟨free, ordered⟩ := consistent.ordered
  exact
    { closed := ordered.closed
      scan := fun _ _ position => (consistent.sweeping position).2.1
      pass := fun _ position pending => inside_of_pending pending position
      moves := fun _ possible => Guarded.perform_eq_ok consistent possible
      steps := Guarded.step_eq_ok consistent
      ended := Guarded.cyclesEnded_eq_ok consistent numbered
      live := Guarded.liveCount_eq_ok ordered
      free := Guarded.freeList_eq_ok ordered.freeRoot_lt ordered.closed
      edges := Guarded.blackToWhiteEdges_eq_ok ordered
      violation := Guarded.violation?_eq_ok ordered.roomy }

end Collection

namespace Session

/-- No run comes to a crash, whatever is asked for and in whatever order: all its moves can be
made under guard, and at no moment does the guard object to anything that may come next. -/
theorem run_faultless {capacity : Nat} {initial : Heap} (requests : List Request)
    (built : Heap.ofCapacity capacity = .ok initial) :
    let session := (ofHeap initial).run requests
    Guarded.replay (ofHeap initial).collection ((ofHeap initial).trace requests) =
        .ok session.collection ∧
      ∀ collection, session.Meets collection → collection.Faultless capacity := by
  intro session
  have consistent : session.collection.Consistent := run_consistent built requests
  constructor
  · have leads := (ofHeap initial).run_leads requests
    have replayed := Guarded.replay_eq_ok (consistent_ofHeap built) leads.legal
    rwa [leads.replay] at replayed
  · intro collection met
    obtain ⟨consistentMet, numberedMet⟩ := met.of_workStable Collection.numbered_workStable
      ⟨consistent, run_numbered built requests⟩
    have size := met.capacity consistent
    rw [run_capacity built] at size
    exact size ▸ consistentMet.faultless numberedMet

/-- Memory runs out under a background collector that has taken over a cycle, and what is
named does not exist. -/
theorem run_faultless_out_of_memory :
    let requests : List Request :=
      [.attach, .allocate, .step 2, .spawn 0, .allocateChild 4 .left, .shade 99,
        .setChild 1 .left (2 ^ 64 - 1), .allocateChildOrCollect 1 .right (some 0), .stop, .step 5,
        .release 4]
    let session := (ofHeap (Heap.fresh 5)).run requests
    Heap.ofCapacity 5 = .ok (Heap.fresh 5) ∧
      Guarded.replay (ofHeap (Heap.fresh 5)).collection
        ((ofHeap (Heap.fresh 5)).trace requests) = .ok session.collection ∧
      ∀ collection, session.Meets collection → collection.Faultless 5 := by
  intro requests session
  have built : Heap.ofCapacity 5 = .ok (Heap.fresh 5) := rfl
  exact ⟨built, run_faultless requests built⟩

end Session

end Tricolor
