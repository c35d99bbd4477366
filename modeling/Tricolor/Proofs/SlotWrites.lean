import Tricolor.Proofs.FreeChain

/-!
# The three ways of writing slots

Slots are written when a mutator links two nodes, when a node is taken off the
free list, and when a node is put back.  Each way has a relation that tells the
whole effect, so that what a heap promises can be checked against three
relations in place of the operations that use them.
-/

namespace Tricolor.Heap

/-- What no mutator changes: the size of the heap and what the collector
publishes. -/
structure SameCycle (before after : Heap) : Prop where
  capacity : after.capacity = before.capacity
  phase : after.phase = before.phase
  frontier : after.frontier = before.frontier
  cyclesStarted : after.cyclesStarted = before.cyclesStarted

theorem Recolored.sameCycle
    {before after : Heap} (recolored : Recolored before after) :
    SameCycle before after :=
  ⟨recolored.capacity, recolored.phase, recolored.frontier, recolored.cyclesStarted⟩

/-- `target` has been linked below `parent`. -/
structure Linked (before : Heap) (parent : Ref) (side : Side) (target : Ref)
    (after : Heap) : Prop extends SameCycle before after where
  freeCount : after.freeCount = before.freeCount
  child : ∀ ref other, (after.node ref).child other =
    if ref = parent ∧ other = side then target else (before.node ref).child other
  live : ∀ ref, (after.node ref).live = (before.node ref).live
  color : ∀ ref, KeptOrShaded before after ref
  /-- Marks change only while marking. -/
  quiet : before.phase ≠ .marking →
    ∀ ref, (after.node ref).color = (before.node ref).color
  guarded : before.phase = .marking → (before.node parent).color = .black →
    target ≠ Ref.nil → (after.node target).color ≠ .white
  greyCounted : before.GreyCounted → after.GreyCounted

theorem Linked.report
    {before after : Heap} {parent target : Ref} {side : Side}
    (linked : Linked before parent side target after) (event : Event) :
    Linked before parent side target (after.report event) :=
  { linked with }

/-- The link that a mutator makes, the barrier first. -/
def relink (heap : Heap) (parent : Ref) (side : Side) (target : Ref) : Heap :=
  (heap.insertionBarrier parent target).writeChild parent side target

theorem linked_relink
    {heap : Heap} {parent : Ref} (inside : parent < heap.capacity)
    (side : Side) (target : Ref) :
    Linked heap parent side target (heap.relink parent side target) := by
  have shaded := insertionBarrier_shaded heap parent target
  unfold relink
  refine
    { capacity := (capacity_writeChild ..).trans shaded.capacity
      phase := shaded.phase
      frontier := shaded.frontier
      cyclesStarted := shaded.cyclesStarted
      freeCount := shaded.freeCount
      child := fun ref other => ?_
      live := fun ref => (live_writeChild ..).trans (shaded.live ref)
      color := fun ref => ?_
      quiet := fun quiet ref => ?_
      guarded := fun marking black proper => ?_
      greyCounted := fun counted => ?_ }
  · rw [child_writeChild, shaded.child, shaded.capacity]
    by_cases hit : ref = parent ∧ other = side
    · simp [hit.1, hit.2, inside]
    · rw [if_neg hit, if_neg (fun all => hit ⟨all.1, all.2.1⟩)]
  · rw [KeptOrShaded, color_writeChild]
    exact shaded.color ref
  · rw [color_writeChild, insertionBarrier_of_not_marking quiet]
  · rw [color_writeChild]
    exact insertionBarrier_not_white proper marking black
  · exact (shaded.greyCounted counted).congr (fun _ => color_writeChild ..) rfl

/-- `first`, the head of the free list, has been unlinked and emptied; nothing
is said about marks. -/
structure Taken (before : Heap) (first : Ref) (after : Heap) : Prop
    extends SameCycle before after where
  freeCount : after.freeCount = before.freeCount - 1
  child : ∀ ref side, (after.node ref).child side =
    if ref = first then Ref.nil
    else if ref = Ref.freeRoot ∧ side = .right then (before.node first).right
    else (before.node ref).child side
  live : ∀ ref, (after.node ref).live =
    if ref = first then true else (before.node ref).live

theorem Recolored.taken
    {before middle after : Heap} {first : Ref}
    (recolored : Recolored middle after) (taken : Taken before first middle) :
    Taken before first after where
  capacity := recolored.capacity.trans taken.capacity
  phase := recolored.phase.trans taken.phase
  frontier := recolored.frontier.trans taken.frontier
  cyclesStarted := recolored.cyclesStarted.trans taken.cyclesStarted
  freeCount := recolored.freeCount.trans taken.freeCount
  child ref side := (recolored.child ref side).trans (taken.child ref side)
  live ref := (recolored.live ref).trans (taken.live ref)

/-- Takes the node `first` off a chain whose head already leads past it. -/
def enlist (heap : Heap) (first : Ref) : Heap :=
  { heap with freeCount := heap.freeCount - 1 }.update first fun node =>
    { node with left := Ref.nil, right := Ref.nil, live := true }

theorem popFree_eq (heap : Heap) :
    heap.popFree =
      let headed := heap.relink Ref.freeRoot .right (heap.node heap.firstFree).right
      (heap.firstFree,
        ((headed.enlist heap.firstFree).whiten heap.firstFree).protectNew heap.firstFree) :=
  rfl

theorem color_enlist (heap : Heap) (first ref : Ref) :
    ((heap.enlist first).node ref).color = (heap.node ref).color := by
  unfold enlist
  rw [node_update]
  split <;> rfl

theorem taken_enlist
    {before headed : Heap} {first : Ref} (inside : first < before.capacity)
    (head : Linked before Ref.freeRoot .right (before.node first).right headed) :
    Taken before first (headed.enlist first) := by
  have insideCounted :
      first < { headed with freeCount := headed.freeCount - 1 }.capacity :=
    head.capacity ▸ inside
  unfold enlist
  refine
    { capacity := (capacity_update ..).trans head.capacity
      phase := head.phase
      frontier := head.frontier
      cyclesStarted := head.cyclesStarted
      freeCount := congrArg (· - 1) head.freeCount
      child := fun ref side => ?_
      live := fun ref => ?_ }
  · by_cases hit : ref = first
    · subst hit
      rw [if_pos rfl, node_update_self insideCounted]
      cases side <;> rfl
    · rw [if_neg hit, node_update_of_ne hit]
      exact head.child ref side
  · by_cases hit : ref = first
    · subst hit
      rw [if_pos rfl, node_update_self insideCounted]
    · rw [if_neg hit, node_update_of_ne hit]
      exact head.live ref

/-- `first`, the head of the free list, has been taken into use. -/
structure Popped (before : Heap) (first : Ref) (after : Heap) : Prop
    extends Taken before first after where
  firstColor : (after.node first).color =
    if before.phase = .marking ∨ before.phase = .reclaiming ∧ before.frontier ≤ first
    then .grey else .white
  color : ∀ ref, ref ≠ first → KeptOrShaded before after ref
  quiet : before.phase ≠ .marking →
    ∀ ref, ref ≠ first → (after.node ref).color = (before.node ref).color
  guarded : before.phase = .marking → (before.node Ref.freeRoot).color = .black →
    (before.node first).right ≠ Ref.nil →
    (after.node (before.node first).right).color ≠ .white
  greyCounted : before.GreyCounted → after.GreyCounted

theorem Popped.report
    {before after : Heap} {first : Ref} (popped : Popped before first after)
    (event : Event) :
    Popped before first (after.report event) :=
  { popped with }

theorem color_protectNew_of_ne
    {heap : Heap} {ref other : Ref} (different : other ≠ ref) :
    ((heap.protectNew ref).node other).color = (heap.node other).color := by
  unfold protectNew
  split
  · rw [color_shade, if_neg (fun hit => different hit.1)]
  · rfl

theorem color_protectNew_self
    {heap : Heap} {ref : Ref} (white : (heap.node ref).color = .white) :
    ((heap.protectNew ref).node ref).color =
      if heap.phase = .marking ∨ heap.phase = .reclaiming ∧ heap.frontier ≤ ref
      then .grey else .white := by
  unfold protectNew
  simp only [Condemned, white, and_true]
  split
  · rw [color_shade, if_pos ⟨rfl, white⟩]
  · exact white

theorem popped_protectNew
    {before headed : Heap} {first : Ref}
    (inside : first < before.capacity) (proper : first ≠ Ref.nil)
    (head : Linked before Ref.freeRoot .right (before.node first).right headed) :
    Popped before first (((headed.enlist first).whiten first).protectNew first) := by
  have taken := taken_enlist inside head
  have whitened := whiten_recolored (headed.enlist first) first
  have shielded := protectNew_shaded ((headed.enlist first).whiten first) first
  have recolored := whitened.trans shielded.toRecolored
  have white : (((headed.enlist first).whiten first).node first).color = .white := by
    rw [color_whiten, if_pos ⟨rfl, proper, taken.capacity ▸ inside⟩]
  have firstColor := color_protectNew_self white
  rw [whitened.phase, whitened.frontier, taken.phase, taken.frontier] at firstColor
  -- away from the new node only the link of the chain has touched marks
  have kept : ∀ ref, ref ≠ first →
      ((((headed.enlist first).whiten first).protectNew first).node ref).color =
        (headed.node ref).color := by
    intro ref different
    rw [color_protectNew_of_ne different, color_whiten,
      if_neg (fun hit => different hit.1), color_enlist]
  refine
    { toTaken := recolored.taken taken
      firstColor := firstColor
      color := fun ref different => ?_
      quiet := fun quiet ref different => (kept ref different).trans (head.quiet quiet ref)
      guarded := fun marking black linkedOn => ?_
      greyCounted := fun counted => ?_ }
  · rw [KeptOrShaded, kept ref different]
    exact head.color ref
  · by_cases hit : (before.node first).right = first
    · rw [hit, firstColor, if_pos (.inl marking)]
      exact Color.noConfusion
    · rw [kept _ hit]
      exact head.guarded marking black linkedOn
  · have enlisted : (headed.enlist first).GreyCounted :=
      (head.greyCounted counted).congr (color_enlist headed first) rfl
    exact shielded.greyCounted (enlisted.whiten first)

theorem popped_popFree
    {heap : Heap} (roomy : Ref.freeRoot < heap.capacity)
    (inside : heap.firstFree < heap.capacity)
    (available : heap.firstFree ≠ Ref.nil) :
    Popped heap heap.firstFree heap.popFree.2 := by
  rw [popFree_eq]
  exact popped_protectNew inside available (linked_relink roomy .right _)

theorem Shaped.popped_popFree {heap : Heap} {free : List Ref} (shaped : heap.Shaped free)
    (available : heap.firstFree ≠ Ref.nil) :
    Popped heap heap.firstFree heap.popFree.2 :=
  Heap.popped_popFree shaped.freeRoot_lt shaped.firstFree_lt available

/-- `ref` has been put in front of the free list. -/
structure Pushed (before : Heap) (ref : Ref) (after : Heap) : Prop
    extends SameCycle before after where
  freeCount : after.freeCount = before.freeCount + 1
  greyCount : after.greyCount = before.greyCount
  child : ∀ other side, (after.node other).child side =
    if other = ref then (if side = .right then before.firstFree else Ref.nil)
    else if other = Ref.freeRoot ∧ side = .right then ref
    else (before.node other).child side
  live : ∀ other, (after.node other).live =
    if other = ref then false else (before.node other).live
  color : ∀ other, (after.node other).color = (before.node other).color

theorem pushed_pushFree
    {heap : Heap} {ref : Ref} (roomy : Ref.freeRoot < heap.capacity)
    (inside : ref < heap.capacity) (notHead : ref ≠ Ref.freeRoot) :
    Pushed heap ref (heap.pushFree ref) := by
  unfold pushFree
  refine
    { capacity := (capacity_writeChild ..).trans (capacity_update ..)
      phase := rfl
      frontier := rfl
      cyclesStarted := rfl
      freeCount := rfl
      greyCount := rfl
      child := fun other side => (child_writeChild ..).trans ?_
      live := fun other => (live_writeChild ..).trans ?_
      color := fun other => (color_writeChild ..).trans ?_ }
  · rw [capacity_update]
    by_cases hit : other = ref
    · subst hit
      rw [if_neg (fun all => notHead all.1), if_pos rfl, node_update_self inside]
      cases side <;> rfl
    · rw [if_neg hit, node_update_of_ne hit]
      by_cases head : other = Ref.freeRoot ∧ side = .right
      · rw [if_pos ⟨head.1, head.2, head.1 ▸ roomy⟩, if_pos head]
      · rw [if_neg head, if_neg (fun all => head ⟨all.1, all.2.1⟩)]
  · by_cases hit : other = ref
    · subst hit
      rw [if_pos rfl, node_update_self inside]
    · rw [if_neg hit, node_update_of_ne hit]
  · rw [node_update]
    split <;> rfl

theorem Pushed.report
    {before after : Heap} {ref : Ref} (pushed : Pushed before ref after) (event : Event) :
    Pushed before ref (after.report event) :=
  { pushed with }

theorem Pushed.greyCounted
    {before after : Heap} {ref : Ref} (pushed : Pushed before ref after)
    (counted : before.GreyCounted) :
    after.GreyCounted :=
  counted.congr pushed.color pushed.greyCount

theorem Linked.shaped
    {before after : Heap} {parent target : Ref} {side : Side} {free : List Ref}
    (linked : Linked before parent side target after) (shaped : before.Shaped free)
    (proper : parent ≠ Ref.nil) (notHead : parent ≠ Ref.freeRoot)
    (live : (before.node parent).live = true)
    (inside : target < before.capacity) (targetNotHead : target ≠ Ref.freeRoot) :
    after.Shaped free := by
  have spared : ∀ ref, ref ≠ parent → ∀ other,
      (after.node ref).child other = (before.node ref).child other := by
    intro ref different other
    rw [linked.child, if_neg (fun hit => different hit.1)]
  have memberSpared : ∀ ref ∈ free, ref ≠ parent := by
    intro ref member hit
    subst hit
    exact shaped.not_mem_of_live live member
  refine
    { roomy := linked.capacity ▸ shaped.roomy
      sentinelChild := fun other =>
        (spared _ proper.symm other).trans (shaped.sentinelChild other)
      closed := fun ref other => ?_
      headUnlinked := fun ref other => ?_
      chain := ?_
      distinct := shaped.distinct
      mem_iff := fun ref => by rw [linked.live, shaped.mem_iff]
      rootFree := shaped.rootFree
      emptyLeft := fun ref member =>
        (spared ref (memberSpared ref member) .left).trans (shaped.emptyLeft ref member)
      counted := linked.freeCount.trans shaped.counted }
  · rw [linked.child, linked.capacity]
    split
    · exact inside
    · exact shaped.closed ref other
  · rw [linked.child]
    split
    · exact targetNotHead
    · exact shaped.headUnlinked ref other
  · have head : after.firstFree = before.firstFree := spared _ notHead.symm .right
    rw [head]
    exact shaped.chain.frame fun ref member => spared ref (memberSpared ref member) .right

namespace Popped

variable {before after : Heap} {first : Ref} {rest : List Ref}

theorem child_of_mem (popped : Popped before first after)
    (shaped : before.Shaped (first :: rest)) {ref : Ref} (member : ref ∈ rest)
    (side : Side) :
    (after.node ref).child side = (before.node ref).child side := by
  have different : ref ≠ first := by
    intro hit
    subst hit
    exact (List.nodup_cons.mp shaped.distinct).1 member
  have notHead : ref ≠ Ref.freeRoot := shaped.ne_freeRoot (by simp [member])
  rw [popped.child, if_neg different, if_neg (fun head => notHead head.1)]

theorem firstFree (popped : Popped before first after) (rooted : minCapacity ≤ first) :
    after.firstFree = (before.node first).right := by
  have written := popped.child Ref.freeRoot .right
  rwa [if_neg (ne_freeRoot_of_rooted rooted).symm, if_pos ⟨rfl, rfl⟩] at written

theorem shaped (popped : Popped before first after)
    (shaped : before.Shaped (first :: rest)) :
    after.Shaped rest := by
  have rooted : minCapacity ≤ first := shaped.rootFree first (by simp)
  have proper := (ne_nil_of_rooted rooted).symm
  have spared : ∀ ref ∈ rest, ∀ side,
      (after.node ref).child side = (before.node ref).child side :=
    fun ref member side => popped.child_of_mem shaped member side
  refine
    { roomy := popped.capacity ▸ shaped.roomy
      sentinelChild := fun side => ?_
      closed := fun ref side => ?_
      headUnlinked := fun ref side => ?_
      chain := ?_
      distinct := (List.nodup_cons.mp shaped.distinct).2
      mem_iff := fun ref => ?_
      rootFree := fun ref member => shaped.rootFree ref (by simp [member])
      emptyLeft := fun ref member =>
        (spared ref member .left).trans (shaped.emptyLeft ref (by simp [member]))
      counted := ?_ }
  · rw [popped.child, if_neg proper, if_neg (fun head => absurd head.1 (by decide))]
    exact shaped.sentinelChild side
  · rw [popped.child, popped.capacity]
    split
    · exact Nat.zero_lt_of_lt shaped.roomy
    · split
      · exact shaped.closed first .right
      · exact shaped.closed ref side
  · rw [popped.child]
    split
    · decide
    · split
      · exact shaped.headUnlinked first .right
      · exact shaped.headUnlinked ref side
  · rw [popped.firstFree rooted]
    exact shaped.chain.uncons.2.frame fun ref member => spared ref member .right
  · rw [popped.live]
    by_cases hit : ref = first
    · subst hit
      simpa using (List.nodup_cons.mp shaped.distinct).1
    · rw [if_neg hit, ← shaped.mem_iff]
      simp [hit]
  · rw [popped.freeCount, shaped.counted]
    simp

end Popped

namespace Pushed

variable {before after : Heap} {ref : Ref} {free : List Ref}

theorem child_of_mem (pushed : Pushed before ref after) (shaped : before.Shaped free)
    (live : (before.node ref).live = true) {member : Ref} (inFree : member ∈ free)
    (side : Side) :
    (after.node member).child side = (before.node member).child side := by
  have different : member ≠ ref := by
    intro hit
    subst hit
    exact shaped.not_mem_of_live live inFree
  have notHead : member ≠ Ref.freeRoot := shaped.ne_freeRoot inFree
  rw [pushed.child, if_neg different, if_neg (fun head => notHead head.1)]

theorem firstFree (pushed : Pushed before ref after) (rooted : minCapacity ≤ ref) :
    after.firstFree = ref := by
  have written := pushed.child Ref.freeRoot .right
  rwa [if_neg (ne_freeRoot_of_rooted rooted).symm, if_pos ⟨rfl, rfl⟩] at written

theorem shaped (pushed : Pushed before ref after) (shaped : before.Shaped free)
    (live : (before.node ref).live = true) (rooted : minCapacity ≤ ref)
    (inside : ref < before.capacity) :
    after.Shaped (ref :: free) := by
  have proper := (ne_nil_of_rooted rooted).symm
  have notHead := ne_freeRoot_of_rooted rooted
  have spared : ∀ member ∈ free, ∀ side,
      (after.node member).child side = (before.node member).child side :=
    fun member inFree side => pushed.child_of_mem shaped live inFree side
  have rightOfRef : (after.node ref).right = before.firstFree := by
    simpa using pushed.child ref .right
  have leftOfRef : (after.node ref).left = Ref.nil := by
    simpa using pushed.child ref .left
  refine
    { roomy := pushed.capacity ▸ shaped.roomy
      sentinelChild := fun side => ?_
      closed := fun other side => ?_
      headUnlinked := fun other side => ?_
      chain := ?_
      distinct := List.nodup_cons.mpr ⟨shaped.not_mem_of_live live, shaped.distinct⟩
      mem_iff := fun other => ?_
      rootFree := by
        simpa [rooted] using shaped.rootFree
      emptyLeft := ?_
      counted := by rw [pushed.freeCount, shaped.counted, List.length_cons] }
  · rw [pushed.child, if_neg proper, if_neg (fun head => absurd head.1 (by decide))]
    exact shaped.sentinelChild side
  · rw [pushed.child, pushed.capacity]
    split
    · split
      · exact shaped.closed Ref.freeRoot .right
      · exact Nat.zero_lt_of_lt shaped.roomy
    · split
      · exact inside
      · exact shaped.closed other side
  · rw [pushed.child]
    split
    · split
      · exact shaped.headUnlinked Ref.freeRoot .right
      · decide
    · split
      · exact notHead
      · exact shaped.headUnlinked other side
  · rw [pushed.firstFree rooted]
    refine .cons proper.symm ?_
    rw [rightOfRef]
    exact shaped.chain.frame fun member inFree => spared member inFree .right
  · rw [pushed.live]
    by_cases hit : other = ref
    · simp [hit]
    · simp [hit, shaped.mem_iff]
  · intro member inCons
    rcases List.mem_cons.mp inCons with rfl | inFree
    · exact leftOfRef
    · exact (spared member inFree .left).trans (shaped.emptyLeft member inFree)

end Pushed

theorem usable_iff_live
    {heap : Heap} (calm : heap.phase ≠ .reclaiming) (ref : Ref) :
    heap.Usable ref ↔ (heap.node ref).live = true :=
  and_iff_left fun condemned => calm condemned.1

theorem usable_congr
    {before after : Heap} {ref : Ref}
    (live : (after.node ref).live = (before.node ref).live)
    (phase : after.phase = before.phase) (frontier : after.frontier = before.frontier)
    (color : before.phase = .reclaiming →
      (after.node ref).color = (before.node ref).color) :
    after.Usable ref ↔ before.Usable ref := by
  by_cases reclaiming : before.phase = .reclaiming
  · simp only [Usable, Condemned, live, phase, frontier, color reclaiming]
  · rw [usable_iff_live reclaiming, usable_iff_live (phase ▸ reclaiming), live]

theorem ne_marking_of_reclaiming
    {heap : Heap} (reclaiming : heap.phase = .reclaiming) :
    heap.phase ≠ .marking := by
  rw [reclaiming]
  exact Phase.noConfusion

theorem Linked.usable_iff
    {before after : Heap} {parent target : Ref} {side : Side}
    (linked : Linked before parent side target after) (ref : Ref) :
    after.Usable ref ↔ before.Usable ref :=
  usable_congr (linked.live ref) linked.phase linked.frontier fun reclaiming =>
    linked.quiet (ne_marking_of_reclaiming reclaiming) ref

theorem Popped.usable_iff
    {before after : Heap} {first ref : Ref} (popped : Popped before first after)
    (different : ref ≠ first) :
    after.Usable ref ↔ before.Usable ref := by
  refine usable_congr ?_ popped.phase popped.frontier fun reclaiming =>
    popped.quiet (ne_marking_of_reclaiming reclaiming) ref different
  rw [popped.live, if_neg different]

/-- A node that has just been taken into use is out of reach of the cycle in
progress. -/
theorem Popped.usable_first
    {before after : Heap} {first : Ref} (popped : Popped before first after) :
    after.Usable first := by
  refine ⟨by rw [popped.live, if_pos rfl], fun condemned => ?_⟩
  rw [Condemned, popped.phase, popped.frontier, popped.firstColor] at condemned
  rw [if_pos (.inr ⟨condemned.1, condemned.2.1⟩)] at condemned
  exact Color.noConfusion condemned.2.2

end Tricolor.Heap
