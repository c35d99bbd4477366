import Tricolor.Proofs.Accounting

/-!
# Moves under guard

Most references that an operation follows, and most counters that it lowers, are not looked
at first: that the heap has such a node, and that the counter is not zero, is known from what
all operations keep up.  The guarded operations do look, each time, and crash where there is
cause to.  They never have cause to: on a heap in order they come to the same as the
operations that do not look.
-/

namespace Tricolor

/-- The counters that are lowered. -/
inductive Counter where
  | free
  | grey
  | live
  | clean
  | budget
  | cycles
  deriving DecidableEq, Repr

/-- What goes wrong in a step that was not thought to need a check. -/
inductive Crash where
  /-- A reference is followed that leads out of the heap. -/
  | astray (ref : Ref)
  /-- More is taken off a counter than it holds. -/
  | underflow (counter : Counter)
  /-- The cursor is to go round in a heap without nodes. -/
  | noRound
  deriving DecidableEq, Repr

/-- Takes an amount off a counter that stands at `value`. -/
def Counter.lower (counter : Counter) (value amount : Nat) :
    Except Crash { rest : Nat // rest + amount = value } :=
  if enough : amount ≤ value then .ok ⟨value - amount, Nat.sub_add_cancel enough⟩
  else .error (.underflow counter)

namespace Guarded

/-- Follows a reference. -/
def node (heap : Heap) (ref : Ref) : Except Crash Node :=
  if ref < heap.capacity then .ok (heap.node ref) else .error (.astray ref)

def liveCount (heap : Heap) : Except Crash Nat := do
  let ⟨proper, _⟩ ← Counter.live.lower heap.capacity 1
  let ⟨live, _⟩ ← Counter.live.lower proper heap.freeCount
  return live

def reportLive (heap : Heap) : Except Crash Heap := do
  return heap.report (.liveNodes (← liveCount heap))

def shade (heap : Heap) (ref : Ref) : Except Crash Heap := do
  if (← node heap ref).color = .white then
    return heap.repaint ref .grey (heap.greyCount + 1)
  else return heap

/-- Gives a grey node another mark. -/
def erase (heap : Heap) (ref : Ref) (color : Color) : Except Crash Heap := do
  let ⟨greyCount, _⟩ ← Counter.grey.lower heap.greyCount 1
  return heap.repaint ref color greyCount

def blacken (heap : Heap) (ref : Ref) : Except Crash Heap := do
  if (← node heap ref).color = .grey then erase heap ref .black else return heap

def whiten (heap : Heap) (ref : Ref) : Except Crash Heap := do
  let node ← node heap ref
  if ref = Ref.nil then return heap
  else if node.color = .grey then erase heap ref .white
  else return heap.repaint ref .white heap.greyCount

def abandonCycle (heap : Heap) : Except Crash Heap :=
  if heap.phase.isActive then do
    let heap ← (List.range heap.capacity).foldlM whiten heap
    return { heap with frontier := heap.capacity, phase := .idle }
  else .ok heap

def insertionBarrier (heap : Heap) (parent child : Ref) : Except Crash Heap := do
  let parent ← node heap parent
  if child ≠ Ref.nil ∧ heap.phase = .marking ∧ parent.color = .black then shade heap child
  else return heap

def relink (heap : Heap) (parent : Ref) (side : Side) (target : Ref) : Except Crash Heap := do
  let heap ← insertionBarrier heap parent target
  return heap.writeChild parent side target

def protectNew (heap : Heap) (ref : Ref) : Except Crash Heap :=
  if heap.phase = .marking ∨ heap.Condemned ref then shade heap ref else .ok heap

def firstFree (heap : Heap) : Except Crash Ref := do
  return (← node heap Ref.freeRoot).right

def popFree (heap : Heap) : Except Crash (Ref × Heap) := do
  let first ← firstFree heap
  let next := (← node heap first).right
  let heap ← relink heap Ref.freeRoot .right next
  let ⟨freeCount, _⟩ ← Counter.free.lower heap.freeCount 1
  let heap := { heap with freeCount }.update first fun node =>
    { node with left := Ref.nil, right := Ref.nil, live := true }
  let heap ← whiten heap first
  return (first, ← protectNew heap first)

def pushFree (heap : Heap) (ref : Ref) : Except Crash Heap := do
  let _ ← firstFree heap
  let _ ← node heap ref
  return heap.pushFree ref

def checkUsable (heap : Heap) (ref : Ref) : Except Crash (Except Fault Unit) := do
  let _ ← node heap ref
  return heap.checkUsable ref

/-- The sentinel can be linked to. -/
def checkTarget (heap : Heap) (child : Ref) : Except Crash (Except Fault Unit) :=
  if child = Ref.nil then .ok (.ok ()) else checkUsable heap child

def link (heap : Heap) (parent : Ref) (side : Side) (child : Ref) :
    Except Crash (Outcome Unit) := do
  match ← checkUsable heap parent with
  | .error fault => return (.error fault, heap)
  | .ok () =>
      match ← checkTarget heap child with
      | .error fault => return (.error fault, heap)
      | .ok () => return (.ok (), ← relink heap parent side child)

def setChild (heap : Heap) (parent : Ref) (side : Side) (child : Ref) :
    Except Crash (Outcome Unit) :=
  match heap.checkWritable parent with
  | .error fault => .ok (.error fault, heap)
  | .ok () =>
      match heap.checkRange child with
      | .error fault => .ok (.error fault, heap)
      | .ok () =>
          if child = Ref.freeRoot then .ok (.error (.reserved child), heap)
          else link heap parent side child

def allocate (heap : Heap) : Except Crash (Outcome Ref) := do
  if (← firstFree heap) = Ref.nil then return (.error .outOfMemory, heap)
  else
    let (ref, heap) ← popFree heap
    return (.ok ref, ← reportLive heap)

def allocateChild (heap : Heap) (parent : Ref) (side : Side) :
    Except Crash (Outcome Ref) :=
  match heap.checkWritable parent with
  | .error fault => .ok (.error fault, heap)
  | .ok () => do
      match ← checkUsable heap parent with
      | .error fault => return (.error fault, heap)
      | .ok () =>
          if (← firstFree heap) = Ref.nil then return (.error .outOfMemory, heap)
          else
            let (ref, heap) ← popFree heap
            match ← link heap parent side ref with
            | (.error fault, heap) => return (.error fault, heap)
            | (.ok (), heap) => return (.ok ref, ← reportLive heap)

def shadeNode (heap : Heap) (ref : Ref) : Except Crash (Outcome Bool) :=
  match heap.checkRange ref with
  | .error fault => .ok (.error fault, heap)
  | .ok () => do
      let marked ← shade heap ref
      return (.ok ((← node heap ref).color == .white), marked)

def release (heap : Heap) (ref : Ref) : Except Crash (Outcome Unit) :=
  match heap.checkReleasable ref with
  | .error fault => .ok (.error fault, heap)
  | .ok () => do
      let heap ← insertionBarrier heap Ref.freeRoot ref
      let heap ← pushFree heap ref
      return (.ok (), ← reportLive heap)

/-- What a request does to the heap on its own, without a collector. -/
def change (heap : Heap) : Request → Except Crash Heap
  | .allocate => (·.2) <$> allocate heap
  | .release ref => (·.2) <$> release heap ref
  | .setChild parent side child => (·.2) <$> setChild heap parent side child
  | .allocateChild parent side => (·.2) <$> allocateChild heap parent side
  | .shade ref => (·.2) <$> shadeNode heap ref
  | _ => .ok heap

def markRoots : Collection → Except Crash Collection
  | ⟨heap, collector⟩ =>
      if collector.position = .idle then do
        let heap ← Ref.roots.foldlM shade heap
        let cycle := heap.cyclesStarted + 1
        return {
          heap := { heap with phase := .marking, cyclesStarted := cycle }
          collector :=
            { collector with
              current := { cycle }
              position := .sweeping 0 heap.capacity } }
      else .ok ⟨heap, collector⟩

/-- Where a cursor goes next. -/
def next (cursor capacity : Nat) : Except Crash Nat :=
  if capacity = 0 then .error .noRound else .ok ((cursor + 1) % capacity)

def scan (heap : Heap) (cursor : Ref) : Except Crash Heap := do
  let node ← node heap cursor
  let heap ← shade heap node.left
  let heap ← shade heap node.right
  blacken heap cursor

def sweepVisit : Collection → (cursor clean : Nat) → Except Crash Collection
  | ⟨heap, collector⟩, cursor, clean => do
      let node ← node heap cursor
      let next ← next cursor heap.capacity
      let passes := collector.current.passes + if next = 0 then 1 else 0
      if node.color = .grey then
        return {
          heap := ← scan heap cursor
          collector :=
            { collector with
              current :=
                { collector.current with
                  blackened := collector.current.blackened + 1
                  passes }
              position := .sweeping next heap.capacity } }
      else
        let ⟨clean, _⟩ ← Counter.clean.lower clean 1
        return {
          heap
          collector :=
            { collector with
              current := { collector.current with passes }
              position := .sweeping next clean } }

def reclaimVisit : Collection → (cursor : Nat) → Except Crash Collection
  | ⟨heap, collector⟩, cursor => do
      let node ← node heap cursor
      let heap := { heap with frontier := cursor + 1 }
      let position := Position.reclaiming (cursor + 1)
      if node.color = .white ∧ node.live = true ∧ ¬ Ref.IsRoot cursor then
        let heap ← pushFree heap cursor
        let heap ← reportLive heap
        return {
          heap
          collector :=
            { collector with
              current :=
                { collector.current with reclaimed := collector.current.reclaimed + 1 }
              position } }
      else
        let heap ← whiten heap cursor
        return ⟨heap, { collector with position }⟩

def visit (collection : Collection) : Except Crash Collection :=
  match collection.collector.position with
  | .idle => .ok collection
  | .sweeping cursor clean =>
      if clean = 0 then .ok (collection.tryQuiesce cursor)
      else sweepVisit collection cursor clean
  | .reclaiming cursor => reclaimVisit collection cursor

def attach (heap : Heap) : Except Crash Collection := do
  return ⟨← abandonCycle heap, {}⟩

def detach (collection : Collection) : Except Crash Heap :=
  if collection.collector.position = .idle then .ok collection.heap
  else abandonCycle collection.heap

def perform (collection : Collection) : Move → Except Crash Collection
  | .mutate request => do
      return ⟨← change collection.heap request, collection.collector⟩
  | .markRoots => markRoots collection
  | .visit => visit collection
  | .finish => .ok collection.finish.2
  | .attach => attach collection.heap
  | .detach => do return ⟨← detach collection, {}⟩

def replay (collection : Collection) (moves : List Move) : Except Crash Collection :=
  moves.foldlM perform collection

theorem ok_bind {α β : Type} (value : α) (next : α → Except Crash β) :
    (Except.ok value >>= next) = next value :=
  rfl

theorem lower_eq_ok {value amount : Nat} (enough : amount ≤ value) (counter : Counter) :
    counter.lower value amount = .ok ⟨value - amount, Nat.sub_add_cancel enough⟩ :=
  dif_pos enough

section Heap

variable {heap : Heap} {free : List Ref} {ref parent child : Ref}

theorem node_eq_ok (inside : ref < heap.capacity) : node heap ref = .ok (heap.node ref) :=
  if_pos inside

theorem shade_eq_ok (inside : ref < heap.capacity) : shade heap ref = .ok (heap.shade ref) := by
  unfold shade Heap.shade
  rw [node_eq_ok inside, ok_bind]
  split <;> rfl

/-- The sentinel and the nodes on the free list are not live. -/
theorem liveCount_eq_ok (ordered : heap.WellFormed free) :
    liveCount heap = .ok heap.liveCount := by
  have split := ordered.card_liveNodes
  have nonempty : 1 ≤ heap.capacity := Nat.le_trans (by decide) ordered.roomy
  have fits : heap.freeCount ≤ heap.capacity - 1 := by
    rw [ordered.counted]
    omega
  unfold liveCount
  rw [lower_eq_ok nonempty, ok_bind]
  dsimp only
  rw [lower_eq_ok fits, ok_bind]
  rfl

theorem reportLive_eq_ok (ordered : heap.WellFormed free) :
    reportLive heap = .ok heap.reportLive := by
  rw [reportLive, liveCount_eq_ok ordered, ok_bind]
  rfl

/-- A grey node counts, so the counter is not zero. -/
theorem erase_eq_ok (counted : heap.GreyCounted) (grey : (heap.node ref).color = .grey)
    (color : Color) :
    erase heap ref color = .ok (heap.repaint ref color (heap.greyCount - 1)) := by
  have positive : 1 ≤ heap.greyCount :=
    Nat.pos_of_ne_zero fun zero => counted.eq_zero_iff.mp zero ref grey
  rw [erase, lower_eq_ok positive, ok_bind]
  rfl

theorem blacken_eq_ok (counted : heap.GreyCounted) (inside : ref < heap.capacity) :
    blacken heap ref = .ok (heap.blacken ref) := by
  unfold blacken Heap.blacken
  rw [node_eq_ok inside, ok_bind]
  split
  · exact erase_eq_ok counted ‹_› .black
  · rfl

theorem whiten_eq_ok (counted : heap.GreyCounted) (inside : ref < heap.capacity) :
    whiten heap ref = .ok (heap.whiten ref) := by
  unfold whiten Heap.whiten
  rw [node_eq_ok inside, ok_bind]
  by_cases sentinel : ref = Ref.nil
  · simp only [if_pos sentinel]
    rfl
  · by_cases grey : (heap.node ref).color = .grey
    · simp only [if_neg sentinel, grey, if_true]
      exact erase_eq_ok counted grey .white
    · simp only [if_neg sentinel, grey, if_false]
      rfl

theorem whitenEach_eq_ok {refs : List Ref} (counted : heap.GreyCounted)
    (inside : ∀ ref ∈ refs, ref < heap.capacity) :
    refs.foldlM whiten heap = .ok (refs.foldl Heap.whiten heap) := by
  induction refs generalizing heap with
  | nil => rfl
  | cons ref refs induction =>
      rw [List.foldlM_cons, whiten_eq_ok counted (inside ref List.mem_cons_self), ok_bind]
      apply induction (counted.whiten ref)
      intro other member
      rw [(Heap.whiten_recolored heap ref).capacity]
      exact inside other (List.mem_cons_of_mem ref member)

theorem abandonCycle_eq_ok (counted : heap.GreyCounted) :
    abandonCycle heap = .ok heap.abandonCycle := by
  unfold abandonCycle Heap.abandonCycle
  split
  · rw [whitenEach_eq_ok counted fun ref member => List.mem_range.mp member, ok_bind]
    rfl
  · rfl

theorem insertionBarrier_eq_ok (parentInside : parent < heap.capacity)
    (childInside : child < heap.capacity) :
    insertionBarrier heap parent child = .ok (heap.insertionBarrier parent child) := by
  unfold insertionBarrier Heap.insertionBarrier
  rw [node_eq_ok parentInside, ok_bind]
  split
  · exact shade_eq_ok childInside
  · rfl

theorem relink_eq_ok (parentInside : parent < heap.capacity) (childInside : child < heap.capacity)
    (side : Side) :
    relink heap parent side child = .ok (heap.relink parent side child) := by
  rw [relink, insertionBarrier_eq_ok parentInside childInside, ok_bind]
  rfl

theorem protectNew_eq_ok (inside : ref < heap.capacity) :
    protectNew heap ref = .ok (heap.protectNew ref) := by
  unfold protectNew Heap.protectNew
  split
  · exact shade_eq_ok inside
  · rfl

theorem firstFree_eq_ok (roomy : Ref.freeRoot < heap.capacity) :
    firstFree heap = .ok heap.firstFree := by
  rw [firstFree, node_eq_ok roomy, ok_bind]
  rfl

/-- A list with a first node is not empty, so there is a free node to count off. -/
theorem popFree_eq_ok (ordered : heap.WellFormed free) (available : heap.firstFree ≠ Ref.nil) :
    popFree heap = .ok heap.popFree := by
  have roomy := ordered.freeRoot_lt
  have inside := ordered.firstFree_lt
  have nextInside : (heap.node heap.firstFree).right < heap.capacity :=
    ordered.closed heap.firstFree .right
  obtain ⟨rest, listed⟩ := ordered.exists_cons available
  have head := Heap.linked_relink roomy .right (heap.node heap.firstFree).right
  have counted : 1 ≤ heap.freeCount := by
    rw [ordered.counted, listed]
    exact Nat.le_add_left 1 rest.length
  unfold popFree
  rw [firstFree_eq_ok roomy, ok_bind, node_eq_ok inside, ok_bind]
  dsimp only
  rw [relink_eq_ok roomy nextInside, ok_bind, Heap.popFree_eq]
  generalize heap.relink Ref.freeRoot .right (heap.node heap.firstFree).right = headed at *
  have taken := Heap.taken_enlist inside head
  have enlisted : (headed.enlist heap.firstFree).GreyCounted :=
    (head.greyCounted ordered.greyCounted).congr (Heap.color_enlist headed _) rfl
  have whitened := Heap.whiten_recolored (headed.enlist heap.firstFree) heap.firstFree
  rw [lower_eq_ok (head.freeCount ▸ counted), ok_bind]
  change (whiten (headed.enlist heap.firstFree) heap.firstFree >>= _) = _
  rw [whiten_eq_ok enlisted (taken.capacity ▸ inside), ok_bind,
    protectNew_eq_ok (whitened.capacity.trans taken.capacity ▸ inside)]
  rfl

theorem pushFree_eq_ok (roomy : Ref.freeRoot < heap.capacity) (inside : ref < heap.capacity) :
    pushFree heap ref = .ok (heap.pushFree ref) := by
  rw [pushFree, firstFree_eq_ok roomy, ok_bind, node_eq_ok inside, ok_bind]
  rfl

theorem checkUsable_eq_ok (inside : ref < heap.capacity) :
    checkUsable heap ref = .ok (heap.checkUsable ref) := by
  rw [checkUsable, node_eq_ok inside, ok_bind]
  rfl

theorem checkTarget_eq_ok (inside : child < heap.capacity) :
    checkTarget heap child =
      .ok (if child = Ref.nil then .ok () else heap.checkUsable child) := by
  unfold checkTarget
  split
  · rfl
  · exact checkUsable_eq_ok inside

theorem link_eq_ok (parentInside : parent < heap.capacity) (childInside : child < heap.capacity)
    (side : Side) :
    link heap parent side child = .ok (heap.link parent side child) := by
  unfold link Heap.link
  rw [checkUsable_eq_ok parentInside, ok_bind]
  cases heap.checkUsable parent with
  | error fault => rfl
  | ok =>
      dsimp only
      rw [checkTarget_eq_ok childInside, ok_bind]
      cases if child = Ref.nil then .ok () else heap.checkUsable child with
      | error fault => rfl
      | ok =>
          dsimp only
          rw [relink_eq_ok parentInside childInside, ok_bind]
          rfl

theorem setChild_eq_ok (heap : Heap) (parent : Ref) (side : Side) (child : Ref) :
    setChild heap parent side child = .ok (heap.setChild parent side child) := by
  unfold setChild Heap.setChild
  cases writable : heap.checkWritable parent with
  | error fault => rfl
  | ok =>
      cases ranged : heap.checkRange child with
      | error fault => rfl
      | ok =>
          dsimp only
          split
          · rfl
          · exact link_eq_ok (Heap.of_checkWritable writable).1 (Heap.lt_of_checkRange ranged) side

theorem allocate_eq_ok (ordered : heap.WellFormed free) :
    allocate heap = .ok heap.allocate := by
  unfold allocate
  rw [firstFree_eq_ok ordered.freeRoot_lt, ok_bind]
  rcases heap.allocate_cases with ⟨exhausted, refused⟩ | ⟨available, allocated⟩
  · rw [if_pos exhausted, refused]
    rfl
  · obtain ⟨_, rest, orderedPopped⟩ :=
      ordered.exists_popped available (ordered.popped_popFree available)
    rw [if_neg available, popFree_eq_ok ordered available, ok_bind, allocated]
    dsimp only
    rw [reportLive_eq_ok orderedPopped, ok_bind]
    rfl

theorem allocateChild_eq_ok (ordered : heap.WellFormed free) (parent : Ref) (side : Side) :
    allocateChild heap parent side = .ok (heap.allocateChild parent side) := by
  unfold allocateChild Heap.allocateChild
  cases writable : heap.checkWritable parent with
  | error fault => rfl
  | ok =>
      obtain ⟨inside, proper, notHead⟩ := Heap.of_checkWritable writable
      dsimp only
      rw [checkUsable_eq_ok inside, ok_bind]
      cases checked : heap.checkUsable parent with
      | error fault => rfl
      | ok =>
          have usable := Heap.usable_of_checkUsable checked
          dsimp only
          rw [firstFree_eq_ok ordered.freeRoot_lt, ok_bind]
          by_cases exhausted : heap.firstFree = Ref.nil
          · rw [if_pos exhausted, if_pos exhausted]
            rfl
          · have popped := ordered.popped_popFree exhausted
            obtain ⟨_, rest, orderedPopped⟩ := ordered.exists_popped exhausted popped
            have linkable := ordered.linkable_popFree exhausted inside proper notHead usable
            have linked := linkable.link_eq_ok side
            have orderedLinked := orderedPopped.linked linkable (linkable.linked side)
            rw [if_neg exhausted, if_neg exhausted, popFree_eq_ok ordered exhausted, ok_bind,
              show heap.popFree = (heap.firstFree, heap.popFree.2) from rfl]
            dsimp only
            rw [link_eq_ok linkable.parentInside linkable.childInside, linked, ok_bind]
            dsimp only
            rw [reportLive_eq_ok orderedLinked, ok_bind]
            rfl

theorem shadeNode_eq_ok (heap : Heap) (ref : Ref) :
    shadeNode heap ref = .ok (heap.shadeNode ref) := by
  unfold shadeNode Heap.shadeNode
  cases ranged : heap.checkRange ref with
  | error fault => rfl
  | ok =>
      have inside := Heap.lt_of_checkRange ranged
      dsimp only
      rw [shade_eq_ok inside, ok_bind, node_eq_ok inside, ok_bind]
      rfl

theorem release_eq_ok (ordered : heap.WellFormed free) (ref : Ref) :
    release heap ref = .ok (heap.release ref) := by
  unfold release Heap.release
  cases checked : heap.checkReleasable ref with
  | error fault => rfl
  | ok =>
      have releasable := Heap.releasable_of_checkReleasable checked
      have roomy := ordered.freeRoot_lt
      have shading := Heap.insertionBarrier_shaded heap Ref.freeRoot ref
      dsimp only
      rw [insertionBarrier_eq_ok roomy releasable.inside, ok_bind]
      generalize heap.insertionBarrier Ref.freeRoot ref = barred at *
      have orderedBarred := ordered.shaded shading
      have inside : ref < barred.capacity := shading.capacity ▸ releasable.inside
      have live := (shading.live ref).trans releasable.live
      have pushed := orderedBarred.pushed_pushFree releasable.rooted inside
      rw [pushFree_eq_ok orderedBarred.freeRoot_lt inside, ok_bind,
        reportLive_eq_ok (orderedBarred.pushed live releasable.rooted inside pushed), ok_bind]
      rfl

theorem change_eq_ok (ordered : heap.WellFormed free) (request : Request) :
    change heap request = .ok (request.change heap) := by
  cases request with
  | allocate => rw [change, allocate_eq_ok ordered]; rfl
  | release ref => rw [change, release_eq_ok ordered]; rfl
  | setChild parent side child => rw [change, setChild_eq_ok]; rfl
  | allocateChild parent side => rw [change, allocateChild_eq_ok ordered]; rfl
  | shade ref => rw [change, shadeNode_eq_ok]; rfl
  | _ => rfl

end Heap

section Collection

variable {heap : Heap} {collector : Collector} {collection : Collection}

theorem shadeEach_eq_ok {refs : List Ref} (inside : ∀ ref ∈ refs, ref < heap.capacity) :
    refs.foldlM shade heap = .ok (heap.shadeAll refs) := by
  induction refs generalizing heap with
  | nil => rfl
  | cons ref refs induction =>
      rw [List.foldlM_cons, shade_eq_ok (inside ref List.mem_cons_self), ok_bind]
      apply induction
      intro other member
      rw [(Heap.shade_recolored heap ref).capacity]
      exact inside other (List.mem_cons_of_mem ref member)

theorem markRoots_eq_ok (consistent : collection.Consistent) :
    markRoots collection = .ok collection.markRoots := by
  obtain ⟨free, ordered⟩ := consistent.ordered
  have inside : ∀ root ∈ Ref.roots, root < collection.heap.capacity := fun root isRoot =>
    Nat.lt_of_lt_of_le (Ref.lt_of_mem_roots isRoot) ordered.roomy
  unfold markRoots Collection.markRoots
  dsimp only
  split
  · rw [shadeEach_eq_ok inside, ok_bind]
    rfl
  · rfl

theorem scan_eq_ok {free : List Ref} {cursor : Ref} (ordered : heap.WellFormed free)
    (inside : cursor < heap.capacity) :
    scan heap cursor = .ok (heap.scan cursor) := by
  have leftShaded := Heap.shade_shaded heap (heap.node cursor).left
  have rightShaded := Heap.shade_shaded (heap.shade (heap.node cursor).left)
    (heap.node cursor).right
  have leftInside : (heap.node cursor).left < heap.capacity := ordered.closed cursor .left
  have rightInside : (heap.node cursor).right < (heap.shade (heap.node cursor).left).capacity :=
    leftShaded.capacity ▸ ordered.closed cursor .right
  have counted := rightShaded.greyCounted (leftShaded.greyCounted ordered.greyCounted)
  have cursorInside := (rightShaded.capacity.trans leftShaded.capacity) ▸ inside
  rw [scan, node_eq_ok inside, ok_bind, shade_eq_ok leftInside, ok_bind,
    shade_eq_ok rightInside, ok_bind, blacken_eq_ok counted cursorInside]
  rfl

theorem next_eq_ok {cursor capacity : Nat} (inside : cursor < capacity) :
    next cursor capacity = .ok ((cursor + 1) % capacity) :=
  if_neg (Nat.ne_zero_of_lt inside)

/-- The cursor of a scan stands at a node, and a clean node is only counted off while there
are some left to count. -/
theorem sweepVisit_eq_ok {cursor clean : Nat}
    (consistent : Collection.Consistent ⟨heap, collector⟩)
    (position : collector.position = .sweeping cursor clean) (pending : clean ≠ 0) :
    sweepVisit ⟨heap, collector⟩ cursor clean =
      .ok (Collection.sweepVisit ⟨heap, collector⟩ cursor clean) := by
  obtain ⟨free, ordered⟩ := consistent.ordered
  have inside : cursor < heap.capacity := (consistent.sweeping position).2.1
  unfold sweepVisit
  dsimp only
  rw [node_eq_ok inside, ok_bind, next_eq_ok inside, ok_bind]
  by_cases grey : (heap.node cursor).color = .grey
  · rw [Collection.sweepVisit_of_grey grey]
    simp only [if_pos grey]
    rw [scan_eq_ok ordered inside, ok_bind]
    rfl
  · rw [Collection.sweepVisit_of_not_grey grey]
    simp only [if_neg grey]
    rw [lower_eq_ok (Nat.pos_of_ne_zero pending), ok_bind]
    rfl

theorem reclaimVisit_eq_ok {cursor : Nat} (consistent : Collection.Consistent ⟨heap, collector⟩)
    (position : collector.position = .reclaiming cursor) (inside : cursor < heap.capacity) :
    reclaimVisit ⟨heap, collector⟩ cursor =
      .ok (Collection.reclaimVisit ⟨heap, collector⟩ cursor) := by
  have reclaiming : heap.Reclaiming cursor := consistent.reclaiming position
  obtain ⟨free, ordered⟩ := consistent.ordered
  have orderedMoved : (heap.moveFrontier (cursor + 1)).WellFormed free :=
    ordered.republished ⟨rfl, rfl, rfl⟩
  unfold reclaimVisit
  dsimp only
  rw [node_eq_ok inside, ok_bind]
  by_cases garbage : heap.Garbage cursor
  · have rooted := garbage.rooted reclaiming.started
    have pushed := orderedMoved.pushed_pushFree rooted inside
    have orderedPushed := orderedMoved.pushed garbage.2.1 rooted inside pushed
    rw [if_pos garbage, Collection.reclaimVisit_of_garbage garbage]
    change (pushFree (heap.moveFrontier (cursor + 1)) cursor >>= _) = _
    rw [pushFree_eq_ok orderedMoved.freeRoot_lt inside, ok_bind,
      reportLive_eq_ok orderedPushed, ok_bind]
    rfl
  · rw [if_neg garbage, Collection.reclaimVisit_of_not_garbage garbage]
    change (whiten (heap.moveFrontier (cursor + 1)) cursor >>= _) = _
    rw [whiten_eq_ok orderedMoved.greyCounted inside, ok_bind]
    rfl

theorem visit_eq_ok (consistent : collection.Consistent) (pending : collection.isSpent = false) :
    visit collection = .ok collection.visit := by
  obtain ⟨heap, collector⟩ := collection
  unfold visit Collection.visit
  cases position : collector.position with
  | idle => rfl
  | sweeping cursor clean =>
      by_cases expired : clean = 0
      · simp only [if_pos expired]
      · simp only [if_neg expired]
        exact sweepVisit_eq_ok consistent position expired
  | reclaiming cursor =>
      exact reclaimVisit_eq_ok consistent position (Collection.inside_of_pending pending position)

theorem detach_eq_ok (consistent : collection.Consistent) :
    detach collection = .ok collection.detach := by
  obtain ⟨free, ordered⟩ := consistent.ordered
  unfold detach Collection.detach
  split
  · rfl
  · exact abandonCycle_eq_ok ordered.greyCounted

theorem perform_eq_ok {move : Move} (consistent : collection.Consistent)
    (possible : collection.Possible move) :
    perform collection move = .ok (collection.perform move) := by
  obtain ⟨free, ordered⟩ := consistent.ordered
  cases move with
  | mutate request => rw [perform, change_eq_ok ordered, ok_bind]; rfl
  | markRoots => exact markRoots_eq_ok consistent
  | visit => exact visit_eq_ok consistent possible.2
  | finish => rfl
  | attach => rw [perform, attach, abandonCycle_eq_ok ordered.greyCounted, ok_bind]; rfl
  | detach => rw [perform, detach_eq_ok consistent, ok_bind]; rfl

/-- No move of a run has cause to crash. -/
theorem replay_eq_ok {moves : List Move} (consistent : collection.Consistent)
    (legal : collection.Legal moves) :
    replay collection moves = .ok (collection.replay moves) := by
  induction moves generalizing collection with
  | nil => rfl
  | cons move moves induction =>
      change (perform collection move >>= fun after => replay after moves) = _
      rw [perform_eq_ok consistent legal.1, ok_bind]
      exact induction (consistent.perform legal.1) legal.2

end Collection

end Guarded

end Tricolor
