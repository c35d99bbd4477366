import Tricolor.Proofs.CyclePhases

/-!
# Collector work keeps the promises of its phase

`Collection.Consistent` joins the two sides of a cycle: the heap is in order,
and its marks and published position agree with where the collector stands.
Every piece of collector work leads from one consistent collection to another.
-/

namespace Tricolor

namespace Heap

theorem Resting.black_iff
    {heap : Heap} {free : List Ref} (resting : heap.Resting)
    (ordered : heap.WellFormed free) (ref : Ref) :
    (heap.node ref).color = .black ↔ ref = Ref.nil ∨ heap.capacity ≤ ref := by
  constructor
  · intro black
    by_cases proper : ref = Ref.nil
    · exact .inl proper
    · exact .inr (resting.unmarked ref proper black)
  · rintro (rfl | beyond)
    · exact ordered.sentinelBlack
    · rw [node_of_capacity_le beyond]
      rfl

/-- Only the sentinel and what lies beyond the heap is black, so there is no
black node with a child to speak of. -/
theorem Resting.tricolored
    {heap : Heap} {free : List Ref} (resting : heap.Resting)
    (ordered : heap.WellFormed free) :
    heap.Tricolored := by
  intro parent side black
  have empty : (heap.node parent).child side = Ref.nil := by
    rcases (resting.black_iff ordered parent).mp black with rfl | beyond
    · exact ordered.sentinelChild side
    · rw [node_of_capacity_le beyond, Node.sentinel_child]
  rw [empty, ordered.sentinelBlack]
  exact Color.noConfusion

theorem Tricolored.republished
    {before after : Heap} (tricolored : before.Tricolored)
    (same : Republished before after) :
    after.Tricolored := by
  intro parent side black
  rw [same.node] at black ⊢
  rw [same.node]
  exact tricolored parent side black

/-- A cycle starts: the roots have been shaded, and marking is announced. -/
theorem Resting.startMarking
    {before shaded after : Heap} {free : List Ref} (resting : before.Resting)
    (ordered : before.WellFormed free) (shading : Shaded before shaded)
    (rootsMarked : ∀ root ∈ Ref.roots, (shaded.node root).color ≠ .white)
    (same : Republished shaded after) (phase : after.phase = .marking)
    (frontier : after.frontier = shaded.frontier) :
    after.Marking where
  phase := phase
  frontier := by
    rw [frontier, same.capacity, shading.frontier, shading.capacity, resting.frontier]
  rootsMarked root isRoot := by
    rw [same.node]
    exact rootsMarked root isRoot
  tricolored := (shading.tricolored (resting.tricolored ordered)).republished same

/-- Marking comes to rest: nothing is grey, and reclaiming is announced. -/
theorem Marking.startReclaiming
    {before after : Heap} {free : List Ref} (marking : before.Marking)
    (ordered : before.WellFormed free) (settled : before.greyCount = 0)
    (same : Republished before after) (phase : after.phase = .reclaiming)
    (frontier : after.frontier = 1) :
    after.Reclaiming 1 where
  phase := phase
  frontier := frontier
  started := Nat.le_refl 1
  bounded := by
    rw [same.capacity]
    exact Nat.le_trans (by decide) ordered.roomy
  blackAhead ref proper _ := Nat.pos_of_ne_zero proper
  rootsBlack root isRoot _ := by
    have marked := marking.rootsMarked root isRoot
    have notGrey := ordered.greyCounted.eq_zero_iff.mp settled root
    rw [same.node]
    exact Color.eq_black_of_ne marked notGrey

/-- A grey node has been scanned: its children are marked, and it is black. -/
structure Scanned (before : Heap) (cursor : Ref) (after : Heap) : Prop
    extends Recolored before after where
  grey : (before.node cursor).color = .grey
  black : (after.node cursor).color = .black
  color : ∀ ref, ref ≠ cursor → KeptOrShaded before after ref
  childMarked : ∀ side, (after.node ((before.node cursor).child side)).color ≠ .white
  /-- No other node is marked than a child of the node scanned. -/
  shadedChild : ∀ ref, (before.node ref).color = .white →
    (after.node ref).color ≠ .white → ∃ side, (before.node cursor).child side = ref
  greyCounted : before.GreyCounted → after.GreyCounted

/-- The heap after the scan of `cursor`. -/
def scan (heap : Heap) (cursor : Ref) : Heap :=
  ((heap.shade (heap.node cursor).left).shade (heap.node cursor).right).blacken cursor

theorem color_scan
    {heap : Heap} {cursor : Ref} (grey : (heap.node cursor).color = .grey) (ref : Ref) :
    ((heap.scan cursor).node ref).color =
      if ref = cursor then .black
      else if (ref = (heap.node cursor).left ∨ ref = (heap.node cursor).right) ∧
        (heap.node ref).color = .white then .grey
      else (heap.node ref).color := by
  unfold scan
  rw [color_blacken, color_shade, color_shade]
  by_cases hit : ref = cursor
  · subst hit
    simp [grey]
  · by_cases white : (heap.node ref).color = .white
    · by_cases isLeft : ref = (heap.node cursor).left
      · subst isLeft
        simp [hit, white]
      · simp [hit, white, isLeft]
    · simp [hit, white]

theorem scanned_scan
    {heap : Heap} {cursor : Ref} (grey : (heap.node cursor).color = .grey) :
    Scanned heap cursor (heap.scan cursor) := by
  have shading := (shade_shaded heap (heap.node cursor).left).trans
    (shade_shaded _ (heap.node cursor).right)
  refine
    { toRecolored := shading.toRecolored.trans (blacken_recolored _ cursor)
      grey := grey
      black := by rw [color_scan grey, if_pos rfl]
      color := fun ref different => ?_
      childMarked := fun side => ?_
      shadedChild := fun ref white marked => ?_
      greyCounted := fun counted => (shading.greyCounted counted).blacken cursor }
  · rw [KeptOrShaded, color_scan grey, if_neg different]
    split
    · exact .inr ⟨And.right ‹_›, rfl⟩
    · exact .inl rfl
  · rw [color_scan grey]
    split
    · exact Color.noConfusion
    · split
      · exact Color.noConfusion
      · rename_i untouched
        cases side with
        | left => exact fun white => untouched ⟨.inl rfl, white⟩
        | right => exact fun white => untouched ⟨.inr rfl, white⟩
  · have different : ref ≠ cursor := by
      intro hit
      subst hit
      exact Color.noConfusion (grey.symm.trans white)
    rw [color_scan grey, if_neg different] at marked
    by_cases isChild : ref = (heap.node cursor).left ∨ ref = (heap.node cursor).right
    · rcases isChild with rfl | rfl
      · exact ⟨.left, rfl⟩
      · exact ⟨.right, rfl⟩
    · rw [if_neg (fun shaded => isChild shaded.1)] at marked
      exact absurd white marked

namespace Scanned

variable {before after : Heap} {cursor : Ref}

theorem not_white (scanned : Scanned before cursor after) {ref : Ref}
    (marked : (before.node ref).color ≠ .white) :
    (after.node ref).color ≠ .white := by
  by_cases hit : ref = cursor
  · rw [hit, scanned.black]
    exact Color.noConfusion
  · exact (scanned.color ref hit).not_white marked

theorem black_of_ne (scanned : Scanned before cursor after) {ref : Ref}
    (different : ref ≠ cursor) (black : (after.node ref).color = .black) :
    (before.node ref).color = .black :=
  (scanned.color ref different).black_iff.mp black

theorem wellFormed {free : List Ref} (scanned : Scanned before cursor after)
    (ordered : before.WellFormed free) :
    after.WellFormed free where
  toShaped := scanned.shaped ordered.toShaped
  sentinelBlack := by
    have different := (ordered.ne_nil_of_grey scanned.grey).symm
    exact (scanned.color Ref.nil different).black_iff.mpr ordered.sentinelBlack
  greyCounted := scanned.greyCounted ordered.greyCounted

theorem tricolored (scanned : Scanned before cursor after)
    (tricolored : before.Tricolored) :
    after.Tricolored := by
  intro parent side black
  rw [scanned.child]
  by_cases hit : parent = cursor
  · exact hit ▸ scanned.childMarked side
  · exact scanned.not_white (tricolored parent side (scanned.black_of_ne hit black))

theorem marking (scanned : Scanned before cursor after) (marking : before.Marking) :
    after.Marking where
  phase := scanned.phase.trans marking.phase
  frontier := by rw [scanned.frontier, scanned.capacity, marking.frontier]
  rootsMarked root isRoot := scanned.not_white (marking.rootsMarked root isRoot)
  tricolored := scanned.tricolored marking.tricolored

end Scanned

/-- The collector has visited the node at its cursor: `passed` announces that,
and at most that node's mark is erased. -/
theorem Reclaiming.advance
    {before after : Heap} {cursor : Nat} (reclaiming : before.Reclaiming cursor)
    (inside : cursor < before.capacity) (capacity : after.capacity = before.capacity)
    (phase : after.phase = .reclaiming) (frontier : after.frontier = cursor + 1)
    (erased : (after.node cursor).color ≠ .black)
    (color : ∀ ref, ref ≠ cursor → (after.node ref).color = (before.node ref).color) :
    after.Reclaiming (cursor + 1) where
  phase := phase
  frontier := frontier
  started := Nat.le_add_left 1 cursor
  bounded := capacity ▸ inside
  blackAhead ref proper black := by
    have different : ref ≠ cursor := by
      intro hit
      subst hit
      exact erased black
    rw [color ref different] at black
    exact Nat.lt_of_le_of_ne (reclaiming.blackAhead ref proper black) different.symm
  rootsBlack root isRoot ahead := by
    have different : root ≠ cursor := Nat.ne_of_gt ahead
    rw [color root different]
    exact reclaiming.rootsBlack root isRoot (Nat.le_of_succ_le ahead)

/-- The collector has visited every node. -/
theorem Reclaiming.finish
    {before after : Heap} {cursor : Nat} (reclaiming : before.Reclaiming cursor)
    (spent : before.capacity ≤ cursor) (same : Republished before after)
    (phase : after.phase = .idle) (frontier : after.frontier = before.capacity) :
    after.Resting where
  phase := phase
  frontier := frontier.trans same.capacity.symm
  unmarked ref proper black := by
    rw [same.node] at black
    rw [same.capacity]
    exact Nat.le_trans spent (reclaiming.blackAhead ref proper black)

theorem abandonCycle_of_active {heap : Heap} (active : heap.phase ≠ .idle) :
    heap.abandonCycle =
      { heap.whitenAll with frontier := heap.whitenAll.capacity, phase := .idle } := by
  have announced : heap.phase.isActive = true := by simpa [Phase.isActive] using active
  exact if_pos announced

theorem Resting.abandonCycle {heap : Heap} (resting : heap.Resting) :
    heap.abandonCycle = heap := by
  simp [Heap.abandonCycle, resting.phase, Phase.isActive]

theorem WellFormed.abandonCycle
    {heap : Heap} {free : List Ref} (ordered : heap.WellFormed free) :
    heap.abandonCycle.WellFormed free := by
  by_cases active : heap.phase.isActive
  · rw [Heap.abandonCycle, if_pos active]
    exact ordered.whitenAll.republished ⟨rfl, rfl, rfl⟩
  · rwa [Heap.abandonCycle, if_neg active]

theorem abandonCycle_sameShape (heap : Heap) : SameShape heap heap.abandonCycle := by
  have whitened := whitenAll_recolored heap
  unfold Heap.abandonCycle
  split
  · exact ⟨whitened.capacity, whitened.child, whitened.live, whitened.freeCount⟩
  · exact (Recolored.refl heap).toSameShape

theorem abandonCycle_resting {heap : Heap} (active : heap.phase ≠ .idle) :
    heap.abandonCycle.Resting := by
  rw [abandonCycle_of_active active]
  refine ⟨rfl, rfl, fun ref proper black => Nat.le_of_not_lt fun inside => ?_⟩
  change (heap.whitenAll.node ref).color = .black at black
  change ref < heap.whitenAll.capacity at inside
  rw [(whitenAll_recolored heap).capacity] at inside
  rw [color_whitenAll, if_pos ⟨proper, inside⟩] at black
  exact Color.noConfusion black

/-- A white node in use that is no root. -/
abbrev Garbage (heap : Heap) (ref : Ref) : Prop :=
  (heap.node ref).color = .white ∧ (heap.node ref).live = true ∧ ¬ Ref.IsRoot ref

/-- Publishes the first node that is still to be visited. -/
def moveFrontier (heap : Heap) (frontier : Nat) : Heap :=
  { heap with frontier }

@[simp] theorem node_moveFrontier (heap : Heap) (frontier : Nat) (ref : Ref) :
    (heap.moveFrontier frontier).node ref = heap.node ref := rfl

/-- Moving on from a node that is spared leaves every slot as it is. -/
theorem whiten_moveFrontier_sameShape (heap : Heap) (frontier : Nat) (ref : Ref) :
    SameShape heap ((heap.moveFrontier frontier).whiten ref) :=
  have whitened := whiten_recolored (heap.moveFrontier frontier) ref
  ⟨whitened.capacity, whitened.child, whitened.live, whitened.freeCount⟩

@[simp] theorem phase_whiten_moveFrontier (heap : Heap) (frontier : Nat) (ref : Ref) :
    ((heap.moveFrontier frontier).whiten ref).phase = heap.phase :=
  (whiten_recolored (heap.moveFrontier frontier) ref).phase

theorem minCapacity_le_of_not_isRoot
    {ref : Ref} (proper : 1 ≤ ref) (notRoot : ¬ Ref.IsRoot ref) :
    minCapacity ≤ ref :=
  Nat.lt_of_not_le fun low => notRoot ⟨proper, low⟩

theorem Garbage.rooted
    {heap : Heap} {ref : Ref} (garbage : heap.Garbage ref) (proper : 1 ≤ ref) :
    minCapacity ≤ ref :=
  minCapacity_le_of_not_isRoot proper garbage.2.2

/-- A single piece of collector work as it shows in the heap. -/
inductive Worked (before after : Heap) : Prop where
  | rest (same : after = before)
  | start (resting : before.Resting) (marking : after.Marking)
      (same : SameShape before after)
  | scan {cursor : Ref} (marking : before.Marking) (scanned : Scanned before cursor after)
  | settle (marking : before.Marking) (settled : ∀ ref, (before.node ref).color ≠ .grey)
      (same : Republished before after) (reclaiming : after.Reclaiming 1)
  | free {cursor : Ref} (reclaiming : before.Reclaiming cursor)
      (garbage : before.Garbage cursor)
      (pushed : Pushed (before.moveFrontier (cursor + 1)) cursor after)
  | spare {cursor : Ref} (reclaiming : before.Reclaiming cursor)
      (spared : ¬ before.Garbage cursor)
      (whitened : after = (before.moveFrontier (cursor + 1)).whiten cursor)
  | finish {cursor : Ref} (reclaiming : before.Reclaiming cursor)
      (passed : before.capacity ≤ cursor) (same : Republished before after)
      (resting : after.Resting)

end Heap

/-- The record of a scan: `hit` tells whether the node was grey. -/
def Collector.scanned (collector : Collector) (capacity cursor clean : Nat) (hit : Bool) :
    Collector :=
  let next := (cursor + 1) % capacity
  { collector with
    current :=
      { collector.current with
        blackened := collector.current.blackened + if hit then 1 else 0
        passes := collector.current.passes + if next = 0 then 1 else 0 }
    position := .sweeping next (if hit then capacity else clean - 1) }

namespace Collection

theorem isSpent_iff (collection : Collection) :
    collection.isSpent = true ↔
      ∃ cursor, collection.collector.position = .reclaiming cursor ∧
        collection.heap.capacity ≤ cursor := by
  unfold isSpent
  cases collection.collector.position with
  | idle => simp
  | sweeping => simp
  | reclaiming cursor =>
      constructor
      · exact fun passed => ⟨cursor, rfl, of_decide_eq_true passed⟩
      · rintro ⟨_, same, passed⟩
        cases same
        exact decide_eq_true passed

theorem isSpent_of_sweeping {collection : Collection} {cursor clean : Nat}
    (position : collection.collector.position = .sweeping cursor clean) :
    collection.isSpent = false := by
  rw [isSpent, position]

/-- Until the pass is spent its cursor stands at a node. -/
theorem inside_of_pending {collection : Collection} {cursor : Nat}
    (pending : collection.isSpent = false)
    (position : collection.collector.position = .reclaiming cursor) :
    cursor < collection.heap.capacity := by
  apply Nat.lt_of_not_le
  intro passed
  have spent := (isSpent_iff collection).mpr ⟨cursor, position, passed⟩
  exact Bool.noConfusion (pending.symm.trans spent)

theorem markRoots_of_idle
    {heap : Heap} {collector : Collector} (idle : collector.position = .idle) :
    markRoots ⟨heap, collector⟩ =
      { heap :=
          { heap.shadeAll Ref.roots with
            phase := .marking
            cyclesStarted := (heap.shadeAll Ref.roots).cyclesStarted + 1 }
        collector :=
          { collector with
            current := { cycle := (heap.shadeAll Ref.roots).cyclesStarted + 1 }
            position := .sweeping 0 (heap.shadeAll Ref.roots).capacity } } :=
  if_pos idle

theorem markRoots_of_active
    {collection : Collection} (active : collection.collector.position ≠ .idle) :
    collection.markRoots = collection :=
  if_neg active

theorem sweepVisit_of_grey
    {heap : Heap} {cursor : Ref} (grey : (heap.node cursor).color = .grey)
    (collector : Collector) (clean : Nat) :
    sweepVisit ⟨heap, collector⟩ cursor clean =
      ⟨heap.scan cursor, collector.scanned heap.capacity cursor clean true⟩ :=
  if_pos grey

theorem sweepVisit_of_not_grey
    {heap : Heap} {cursor : Ref} (unmarked : (heap.node cursor).color ≠ .grey)
    (collector : Collector) (clean : Nat) :
    sweepVisit ⟨heap, collector⟩ cursor clean =
      ⟨heap, collector.scanned heap.capacity cursor clean false⟩ :=
  if_neg unmarked

theorem reclaimVisit_of_garbage
    {heap : Heap} {cursor : Nat} (garbage : heap.Garbage cursor)
    (collector : Collector) :
    reclaimVisit ⟨heap, collector⟩ cursor =
      { heap := ((heap.moveFrontier (cursor + 1)).pushFree cursor).reportLive
        collector :=
          { collector with
            current :=
              { collector.current with reclaimed := collector.current.reclaimed + 1 }
            position := .reclaiming (cursor + 1) } } :=
  if_pos garbage

theorem reclaimVisit_of_not_garbage
    {heap : Heap} {cursor : Nat} (spared : ¬ heap.Garbage cursor)
    (collector : Collector) :
    reclaimVisit ⟨heap, collector⟩ cursor =
      { heap := (heap.moveFrontier (cursor + 1)).whiten cursor
        collector := { collector with position := .reclaiming (cursor + 1) } } :=
  if_neg spared

/-- The heap is in order and agrees with where the collector stands. -/
structure Consistent (collection : Collection) : Prop where
  ordered : ∃ free, collection.heap.WellFormed free
  inPhase : collection.heap.InPhase collection.collector.position

/-- A single piece of work that leads from one consistent collection to
another. -/
structure Advances (before after : Collection) : Prop where
  consistent : after.Consistent
  worked : Heap.Worked before.heap after.heap

namespace Consistent

variable {collection : Collection} {heap : Heap} {collector : Collector}

theorem resting (consistent : collection.Consistent)
    (position : collection.collector.position = .idle) :
    collection.heap.Resting := by
  have inPhase := consistent.inPhase
  rwa [position] at inPhase

theorem sweeping {cursor clean : Nat} (consistent : collection.Consistent)
    (position : collection.collector.position = .sweeping cursor clean) :
    collection.heap.Marking ∧ cursor < collection.heap.capacity ∧
      clean ≤ collection.heap.capacity := by
  have inPhase := consistent.inPhase
  rwa [position] at inPhase

theorem reclaiming {cursor : Nat} (consistent : collection.Consistent)
    (position : collection.collector.position = .reclaiming cursor) :
    collection.heap.Reclaiming cursor := by
  have inPhase := consistent.inPhase
  rwa [position] at inPhase

theorem phase_eq_idle_iff (consistent : collection.Consistent) :
    collection.collector.position = .idle ↔ collection.heap.phase = .idle := by
  cases position : collection.collector.position with
  | idle => simp [(consistent.resting position).phase]
  | sweeping cursor clean => simp [(consistent.sweeping position).1.phase]
  | reclaiming cursor => simp [(consistent.reclaiming position).phase]

theorem marking (consistent : collection.Consistent)
    (phase : collection.heap.phase = .marking) :
    collection.heap.Marking := by
  cases position : collection.collector.position with
  | idle =>
      have resting := consistent.resting position
      exact Phase.noConfusion (resting.phase.symm.trans phase)
  | sweeping cursor clean => exact (consistent.sweeping position).1
  | reclaiming cursor =>
      have reclaiming := consistent.reclaiming position
      exact Phase.noConfusion (reclaiming.phase.symm.trans phase)

theorem advances_self (consistent : collection.Consistent) :
    Advances collection collection :=
  ⟨consistent, .rest rfl⟩

theorem markRoots (consistent : collection.Consistent) :
    Advances collection collection.markRoots := by
  by_cases idle : collection.collector.position = .idle
  · obtain ⟨heap, collector⟩ := collection
    have resting : heap.Resting := consistent.resting idle
    obtain ⟨free, ordered⟩ := consistent.ordered
    have shading := Heap.shadeAll_shaded heap Ref.roots
    have rootsMarked : ∀ root ∈ Ref.roots,
        ((heap.shadeAll Ref.roots).node root).color ≠ .white :=
      fun root isRoot => Heap.shadeAll_not_white isRoot
    rw [markRoots_of_idle idle]
    generalize heap.shadeAll Ref.roots = shaded at *
    have orderedShaded := ordered.shaded shading
    have marking : Heap.Marking
        { shaded with phase := .marking, cyclesStarted := shaded.cyclesStarted + 1 } :=
      resting.startMarking ordered shading rootsMarked ⟨rfl, rfl, rfl⟩ rfl rfl
    refine ⟨⟨⟨free, orderedShaded.republished ⟨rfl, rfl, rfl⟩⟩, marking, ?_, ?_⟩, ?_⟩
    · exact Nat.zero_lt_of_lt orderedShaded.roomy
    · exact Nat.le_refl _
    · exact .start resting marking
        ⟨shading.capacity, shading.child, shading.live, shading.freeCount⟩
  · rw [markRoots_of_active idle]
    exact consistent.advances_self

theorem tryQuiesce (consistent : Consistent ⟨heap, collector⟩) {cursor clean : Nat}
    (position : collector.position = .sweeping cursor clean) :
    Advances ⟨heap, collector⟩ (Collection.tryQuiesce ⟨heap, collector⟩ cursor) := by
  obtain ⟨marking, cursorInside, _⟩ := consistent.sweeping position
  obtain ⟨free, ordered⟩ := consistent.ordered
  by_cases grey : 0 < heap.greyCount
  · rw [Collection.tryQuiesce, if_pos grey]
    exact ⟨⟨⟨free, ordered⟩, marking, cursorInside, Nat.le_refl _⟩, .rest rfl⟩
  · have settled : heap.greyCount = 0 := Nat.eq_zero_of_not_pos grey
    have reclaiming : Heap.Reclaiming { heap with frontier := 1, phase := .reclaiming } 1 :=
      marking.startReclaiming ordered settled ⟨rfl, rfl, rfl⟩ rfl rfl
    rw [Collection.tryQuiesce, if_neg grey]
    refine ⟨⟨⟨free, ordered.republished ⟨rfl, rfl, rfl⟩⟩, reclaiming⟩, ?_⟩
    exact .settle marking (ordered.greyCounted.eq_zero_iff.mp settled)
      ⟨rfl, rfl, rfl⟩ reclaiming

theorem sweepVisit (consistent : Consistent ⟨heap, collector⟩) {cursor clean : Nat}
    (position : collector.position = .sweeping cursor clean) :
    Advances ⟨heap, collector⟩ (Collection.sweepVisit ⟨heap, collector⟩ cursor clean) := by
  obtain ⟨marking, cursorInside, cleanBounded⟩ := consistent.sweeping position
  obtain ⟨free, ordered⟩ := consistent.ordered
  have nextInside : (cursor + 1) % heap.capacity < heap.capacity :=
    Nat.mod_lt _ (Nat.zero_lt_of_lt cursorInside)
  by_cases grey : (heap.node cursor).color = .grey
  · have scanned := Heap.scanned_scan grey
    rw [sweepVisit_of_grey grey]
    generalize heap.scan cursor = after at *
    refine ⟨⟨⟨free, scanned.wellFormed ordered⟩, scanned.marking marking, ?_, ?_⟩,
      .scan marking scanned⟩
    · exact scanned.capacity ▸ nextInside
    · exact Nat.le_of_eq scanned.capacity.symm
  · rw [sweepVisit_of_not_grey grey]
    exact ⟨⟨⟨free, ordered⟩, marking, nextInside,
      Nat.le_trans (Nat.sub_le ..) cleanBounded⟩, .rest rfl⟩

theorem reclaimVisit (consistent : Consistent ⟨heap, collector⟩) {cursor : Nat}
    (position : collector.position = .reclaiming cursor)
    (inside : cursor < heap.capacity) :
    Advances ⟨heap, collector⟩ (Collection.reclaimVisit ⟨heap, collector⟩ cursor) := by
  have reclaiming : heap.Reclaiming cursor := consistent.reclaiming position
  obtain ⟨free, ordered⟩ := consistent.ordered
  have proper : cursor ≠ Ref.nil := Nat.ne_of_gt reclaiming.started
  have orderedMoved : (heap.moveFrontier (cursor + 1)).WellFormed free :=
    ordered.republished ⟨rfl, rfl, rfl⟩
  by_cases garbage : heap.Garbage cursor
  · have rooted := garbage.rooted reclaiming.started
    have pushed := (orderedMoved.pushed_pushFree rooted inside).report
      (.liveNodes (Heap.liveCount ((heap.moveFrontier (cursor + 1)).pushFree cursor)))
    rw [reclaimVisit_of_garbage garbage]
    refine ⟨⟨⟨_, orderedMoved.pushed garbage.2.1 rooted inside pushed⟩, ?_⟩,
      .free reclaiming garbage pushed⟩
    refine reclaiming.advance inside pushed.capacity
      (pushed.phase.trans reclaiming.phase) pushed.frontier ?_ fun ref _ => pushed.color ref
    have white := (pushed.color cursor).trans garbage.1
    exact fun black => Color.noConfusion (white.symm.trans black)
  · have whitened := Heap.whiten_recolored (heap.moveFrontier (cursor + 1)) cursor
    rw [reclaimVisit_of_not_garbage garbage]
    refine ⟨⟨⟨_, orderedMoved.whiten cursor⟩, ?_⟩, .spare reclaiming garbage rfl⟩
    refine reclaiming.advance inside whitened.capacity
      (whitened.phase.trans reclaiming.phase) whitened.frontier ?_ fun ref different => ?_
    · rw [Heap.color_whiten, if_pos ⟨rfl, proper, inside⟩]
      exact Color.noConfusion
    · rw [Heap.color_whiten, if_neg (fun all => different all.1)]
      rfl

theorem visit (consistent : collection.Consistent)
    (pending : collection.isSpent = false) :
    Advances collection collection.visit := by
  obtain ⟨heap, collector⟩ := collection
  unfold Collection.visit
  cases position : collector.position with
  | idle => exact consistent.advances_self
  | sweeping cursor clean =>
      by_cases settled : clean = 0
      · simp only [if_pos settled]
        exact consistent.tryQuiesce position
      · simp only [if_neg settled]
        exact consistent.sweepVisit position
  | reclaiming cursor =>
      exact consistent.reclaimVisit position (inside_of_pending pending position)

theorem finish (consistent : collection.Consistent)
    (spent : collection.isSpent = true) :
    Advances collection collection.finish.2 := by
  obtain ⟨cursor, position, passed⟩ := (isSpent_iff collection).mp spent
  have reclaiming := consistent.reclaiming position
  obtain ⟨free, ordered⟩ := consistent.ordered
  have same : Heap.Republished collection.heap collection.finish.2.heap := ⟨rfl, rfl, rfl⟩
  have resting := reclaiming.finish passed same rfl rfl
  exact ⟨⟨⟨free, ordered.republished same⟩, resting⟩, .finish reclaiming passed same resting⟩

/-- Detaching the collector spares slots and use flags and brings the heap to
rest. -/
theorem detach (consistent : collection.Consistent) :
    Heap.SameShape collection.heap collection.detach ∧
      Consistent ⟨collection.detach, {}⟩ := by
  unfold Collection.detach
  by_cases idle : collection.collector.position = .idle
  · rw [if_pos idle]
    exact ⟨(Heap.Recolored.refl collection.heap).toSameShape, consistent.ordered,
      consistent.resting idle⟩
  · rw [if_neg idle]
    have active : collection.heap.phase ≠ .idle :=
      fun phase => idle (consistent.phase_eq_idle_iff.mpr phase)
    obtain ⟨free, ordered⟩ := consistent.ordered
    exact ⟨Heap.abandonCycle_sameShape collection.heap, ⟨free, ordered.abandonCycle⟩,
      Heap.abandonCycle_resting active⟩

/-- Attaching a collector to an idle heap changes nothing. -/
theorem attach_eq (consistent : Consistent ⟨heap, {}⟩) :
    attach heap = ⟨heap, {}⟩ := by
  have resting : heap.Resting := consistent.resting rfl
  rw [attach, resting.abandonCycle]

end Consistent

end Collection

end Tricolor
