import Tricolor.Proofs.Moves

/-!
# What a cycle releases

A node that is marked while the marking phase lasts stays in use until the reclaim
pass has visited it: nobody may release it before.  What collector work releases was
therefore white when marking came to rest, and it has been with its owner all along,
for a node is marked when it is handed out.
-/

namespace Tricolor

namespace Heap

/-- A mutator's request is answered with the node. -/
def HandsOut (heap : Heap) (request : Request) (ref : Ref) : Prop :=
  match request with
  | .allocate => heap.allocate.1 = .ok ref
  | .allocateChild parent side => (heap.allocateChild parent side).1 = .ok ref
  | _ => False

/-- The node is in use and marked, and has been since marking came to rest; once the
reclaim pass has visited it nothing is said any more. -/
structure Kept (heap : Heap) (ref : Ref) : Prop where
  marking : heap.phase = .marking →
    (heap.node ref).live = true ∧ (heap.node ref).color ≠ .white
  reclaiming : heap.phase = .reclaiming → heap.frontier ≤ ref →
    (heap.node ref).live = true ∧ (heap.node ref).color ≠ .white

/-- Collector work does not release the node before the cycle has ended. -/
def Spared (heap : Heap) (ref : Ref) : Prop :=
  heap.Kept ref ∨ heap.phase = .reclaiming ∧ (heap.node ref).live = false

/-- What is not spared is live and white. -/
theorem white_of_not_spared
    {heap : Heap} {ref : Ref} (reclaiming : heap.phase = .reclaiming)
    (doomed : ¬ heap.Spared ref) :
    (heap.node ref).live = true ∧ (heap.node ref).color = .white := by
  obtain ⟨notKept, notDead⟩ := not_or.mp doomed
  have live : (heap.node ref).live = true :=
    Bool.of_not_eq_false fun dead => notDead ⟨reclaiming, dead⟩
  refine ⟨live, Decidable.by_contra fun marked => notKept ?_⟩
  constructor
  · simp [reclaiming]
  · exact fun _ _ => ⟨live, marked⟩

namespace Kept

variable {before after heap : Heap} {ref : Ref}

theorem of_idle (idle : heap.phase = .idle) : heap.Kept ref := by
  constructor <;> simp [idle]

theorem mono (kept : before.Kept ref) (phase : after.phase = before.phase)
    (frontier : after.frontier = before.frontier)
    (stays : (before.node ref).live = true → (before.node ref).color ≠ .white →
      (after.node ref).live = true ∧ (after.node ref).color ≠ .white) :
    after.Kept ref := by
  constructor
  · intro marking
    obtain ⟨live, marked⟩ := kept.marking (phase.symm.trans marking)
    exact stays live marked
  · intro reclaiming ahead
    obtain ⟨live, marked⟩ :=
      kept.reclaiming (phase.symm.trans reclaiming) (frontier ▸ ahead)
    exact stays live marked

theorem linked {parent target : Ref} {side : Side} (kept : before.Kept ref)
    (linked : Linked before parent side target after) :
    after.Kept ref := by
  apply kept.mono linked.phase linked.frontier
  intro live marked
  exact ⟨(linked.live ref).trans live, (linked.color ref).not_white marked⟩

end Kept

/-- A node is handed out marked, unless the reclaim pass has passed it. -/
theorem Popped.kept_first
    {before after : Heap} {first : Ref} (popped : Popped before first after) :
    after.Kept first := by
  have live : (after.node first).live = true := by rw [popped.live, if_pos rfl]
  constructor
  · intro marking
    rw [popped.firstColor, if_pos (.inl (popped.phase.symm.trans marking))]
    exact ⟨live, Color.noConfusion⟩
  · intro reclaiming ahead
    rw [popped.phase] at reclaiming
    rw [popped.frontier] at ahead
    rw [popped.firstColor, if_pos (.inr ⟨reclaiming, ahead⟩)]
    exact ⟨live, Color.noConfusion⟩

theorem WellFormed.kept_of_handsOut
    {heap : Heap} {free : List Ref} (ordered : heap.WellFormed free)
    {request : Request} {ref : Ref} (handsOut : heap.HandsOut request ref) :
    (request.change heap).Kept ref := by
  cases request with
  | allocate =>
      change heap.allocate.1 = .ok ref at handsOut
      change heap.allocate.2.Kept ref
      rcases heap.allocate_cases with ⟨_, same⟩ | ⟨available, allocated⟩
      · rw [same] at handsOut
        cases handsOut
      · rw [allocated] at handsOut ⊢
        cases handsOut
        exact ((ordered.popped_popFree available).report _).kept_first
  | allocateChild parent side =>
      change (heap.allocateChild parent side).1 = .ok ref at handsOut
      change (heap.allocateChild parent side).2.Kept ref
      rcases ordered.allocateChild_cases parent side with
        ⟨fault, same⟩ | ⟨available, _, linkable, allocated⟩
      · rw [same] at handsOut
        cases handsOut
      · rw [allocated] at handsOut ⊢
        cases handsOut
        have popped := ordered.popped_popFree available
        exact popped.kept_first.linked ((linkable.linked side).report _)
  | _ => exact handsOut.elim

namespace Performed

variable {before after : Heap} {free : List Ref} {request : Request} {ref : Ref}

theorem ne_firstFree (ordered : before.WellFormed free)
    (available : before.firstFree ≠ Ref.nil) (live : (before.node ref).live = true) :
    ref ≠ before.firstFree := by
  intro hit
  subst hit
  exact Bool.noConfusion ((ordered.firstFree_dead available).symm.trans live)

/-- Mutators only release white nodes, and they do not erase the mark of any node that
is in use. -/
theorem stays (performed : Performed before request after) (ordered : before.WellFormed free)
    (live : (before.node ref).live = true) (marked : (before.node ref).color ≠ .white) :
    (after.node ref).live = true ∧ (after.node ref).color ≠ .white := by
  cases performed with
  | refused => exact ⟨live, marked⟩
  | allocated available popped =>
      have different := ne_firstFree ordered available live
      rw [popped.live, if_neg different]
      exact ⟨live, (popped.color ref different).not_white marked⟩
  | @released released barred _ releasable shading guarded pushed =>
      have different : ref ≠ released := by
        intro hit
        subst hit
        exact marked releasable.white
      rw [pushed.live, if_neg different, pushed.color, shading.live]
      exact ⟨live, (shading.color ref).not_white marked⟩
  | linked linkable linked =>
      exact ⟨(linked.live ref).trans live, (linked.color ref).not_white marked⟩
  | grown available usable popped linkable linked =>
      have different := ne_firstFree ordered available live
      rw [linked.live, popped.live, if_neg different]
      exact ⟨live, (linked.color ref).not_white ((popped.color ref different).not_white marked)⟩
  | shaded inside shading =>
      exact ⟨(shading.live ref).trans live, (shading.color ref).not_white marked⟩

/-- A free node stays free, or it is handed out. -/
theorem dead_or_kept (performed : Performed before request after)
    (dead : (before.node ref).live = false) :
    (after.node ref).live = false ∨ after.Kept ref := by
  cases performed with
  | refused => exact .inl dead
  | allocated available popped =>
      by_cases hit : ref = before.firstFree
      · subst hit
        exact .inr popped.kept_first
      · rw [popped.live, if_neg hit]
        exact .inl dead
  | released releasable shading guarded pushed =>
      rw [pushed.live, shading.live, dead]
      simp
  | linked linkable linked => exact .inl ((linked.live ref).trans dead)
  | grown available usable popped linkable linked =>
      by_cases hit : ref = before.firstFree
      · subst hit
        exact .inr (popped.kept_first.linked linked)
      · rw [linked.live, popped.live, if_neg hit]
        exact .inl dead
  | shaded inside shading => exact .inl ((shading.live ref).trans dead)

/-- A mutator takes only white nodes out of use. -/
theorem white_of_freed (performed : Performed before request after)
    (ordered : before.WellFormed free) (live : (before.node ref).live = true)
    (freed : (after.node ref).live = false) :
    (before.node ref).color = .white := by
  apply Decidable.by_contra
  intro marked
  have stays := (performed.stays ordered live marked).1
  exact Bool.noConfusion (freed.symm.trans stays)

end Performed

namespace Worked

variable {before after : Heap} {ref : Ref}

/-- Collector work takes nothing out of use but the garbage at the cursor of the
reclaim pass, and that it puts on the free list. -/
theorem of_freed (worked : Worked before after) (live : (before.node ref).live = true)
    (freed : (after.node ref).live = false) :
    before.Reclaiming ref ∧ before.Garbage ref ∧
      Pushed (before.moveFrontier (ref + 1)) ref after := by
  have kept : ∀ same : SameShape before after, False := fun same =>
    Bool.noConfusion (freed.symm.trans ((same.live ref).trans live))
  cases worked with
  | rest same =>
      rw [same] at freed
      exact Bool.noConfusion (freed.symm.trans live)
  | start resting marking same => exact (kept same).elim
  | scan marking scanned => exact (kept scanned.toSameShape).elim
  | settle marking settled same reclaiming => exact (kept same.sameShape).elim
  | @free cursor reclaiming garbage pushed =>
      by_cases hit : ref = cursor
      · subst hit
        exact ⟨reclaiming, garbage, pushed⟩
      · rw [pushed.live, if_neg hit] at freed
        exact Bool.noConfusion (freed.symm.trans live)
  | spare reclaiming spared whitened =>
      exact (kept (whitened ▸ whiten_moveFrontier_sameShape ..)).elim
  | finish reclaiming passed same resting => exact (kept same.sameShape).elim

/-- Collector work takes nothing into use. -/
theorem dead (worked : Worked before after) (dead : (before.node ref).live = false) :
    (after.node ref).live = false := by
  cases worked with
  | rest same => exact same ▸ dead
  | start resting marking same => exact (same.live ref).trans dead
  | scan marking scanned => exact (scanned.live ref).trans dead
  | settle marking settled same reclaiming => exact (same.sameShape.live ref).trans dead
  | free reclaiming garbage pushed =>
      rw [pushed.live]
      split
      · rfl
      · exact dead
  | spare reclaiming spared whitened =>
      rw [whitened, (whiten_moveFrontier_sameShape ..).live]
      exact dead
  | finish reclaiming passed same resting => exact (same.sameShape.live ref).trans dead

theorem phase_of_marking (worked : Worked before after) (marking : before.phase = .marking) :
    after.phase = .marking ∨
      after.phase = .reclaiming ∧ ∀ ref, after.node ref = before.node ref := by
  cases worked with
  | rest same => exact .inl (same ▸ marking)
  | start resting => exact Phase.noConfusion (resting.phase.symm.trans marking)
  | scan _ scanned => exact .inl (scanned.phase.trans marking)
  | settle _ settled same reclaiming => exact .inr ⟨reclaiming.phase, same.node⟩
  | free reclaiming => exact Phase.noConfusion (reclaiming.phase.symm.trans marking)
  | spare reclaiming => exact Phase.noConfusion (reclaiming.phase.symm.trans marking)
  | finish reclaiming => exact Phase.noConfusion (reclaiming.phase.symm.trans marking)

theorem phase_of_reclaiming (worked : Worked before after)
    (reclaiming : before.phase = .reclaiming) :
    after.phase = .reclaiming ∨ after.phase = .idle := by
  cases worked with
  | rest same => exact .inl (same ▸ reclaiming)
  | start resting => exact Phase.noConfusion (resting.phase.symm.trans reclaiming)
  | scan marking => exact Phase.noConfusion (marking.phase.symm.trans reclaiming)
  | settle marking => exact Phase.noConfusion (marking.phase.symm.trans reclaiming)
  | free _ garbage pushed => exact .inl (pushed.phase.trans reclaiming)
  | spare _ spared whitened =>
      rw [whitened, phase_whiten_moveFrontier]
      exact .inl reclaiming
  | finish _ passed same resting => exact .inr resting.phase

theorem kept (worked : Worked before after) (active : before.phase ≠ .idle)
    (kept : before.Kept ref) :
    after.Kept ref := by
  cases worked with
  | rest same => exact same ▸ kept
  | start resting => exact absurd resting.phase active
  | @scan cursor marking scanned =>
      apply kept.mono scanned.phase scanned.frontier
      intro live marked
      exact ⟨(scanned.live ref).trans live, scanned.not_white marked⟩
  | settle marking settled same reclaiming =>
      obtain ⟨live, marked⟩ := kept.marking marking.phase
      constructor
      · simp [reclaiming.phase]
      · intro _ _
        rw [same.node]
        exact ⟨live, marked⟩
  | @free cursor reclaiming garbage pushed =>
      constructor
      · intro marking
        exact Phase.noConfusion (reclaiming.phase.symm.trans (pushed.phase.symm.trans marking))
      · intro _ ahead
        rw [pushed.frontier] at ahead
        have different : ref ≠ cursor := Nat.ne_of_gt ahead
        rw [pushed.live, if_neg different, pushed.color]
        exact kept.reclaiming reclaiming.phase
          (reclaiming.frontier ▸ Nat.le_of_succ_le ahead)
  | @spare cursor reclaiming spared whitened =>
      have same := whiten_recolored (before.moveFrontier (cursor + 1)) cursor
      rw [whitened]
      constructor
      · intro marking
        exact Phase.noConfusion (reclaiming.phase.symm.trans (same.phase.symm.trans marking))
      · intro _ ahead
        rw [same.frontier] at ahead
        have different : ref ≠ cursor := Nat.ne_of_gt ahead
        rw [same.live, color_whiten, if_neg (fun all => different all.1)]
        exact kept.reclaiming reclaiming.phase
          (reclaiming.frontier ▸ Nat.le_of_succ_le ahead)
  | finish reclaiming passed same resting => exact .of_idle resting.phase

end Worked

namespace Moved

variable {before after : Heap} {free : List Ref} {move : Move} {ref : Ref}

theorem kept (moved : Moved before move after) (ordered : before.WellFormed free)
    (active : before.phase ≠ .idle) (kept : before.Kept ref) :
    after.Kept ref := by
  cases moved with
  | mutated performed =>
      have same := (performed.kept ordered).1.toSameCycle
      exact kept.mono same.phase same.frontier (performed.stays ordered)
  | worked work worked => exact worked.kept active kept
  | dropped same resting => exact .of_idle resting.phase

theorem spared (moved : Moved before move after) (ordered : before.WellFormed free)
    (active : before.phase ≠ .idle) (spared : before.Spared ref) :
    after.Spared ref := by
  rcases spared with kept | ⟨reclaiming, dead⟩
  · exact .inl (moved.kept ordered active kept)
  · cases moved with
    | mutated performed =>
        have phase := (performed.kept ordered).1.phase
        rcases performed.dead_or_kept dead with stillDead | kept
        · exact .inr ⟨phase.trans reclaiming, stillDead⟩
        · exact .inl kept
    | worked work worked =>
        rcases worked.phase_of_reclaiming reclaiming with phase | idle
        · exact .inr ⟨phase, worked.dead dead⟩
        · exact .inl (.of_idle idle)
    | dropped same resting => exact .inl (.of_idle resting.phase)

theorem white_of_freed (moved : Moved before move after) (ordered : before.WellFormed free)
    (live : (before.node ref).live = true) (freed : (after.node ref).live = false) :
    (before.node ref).color = .white := by
  cases moved with
  | mutated performed => exact performed.white_of_freed ordered live freed
  | worked work worked => exact (worked.of_freed live freed).2.1.1
  | dropped same resting =>
      exact Bool.noConfusion (freed.symm.trans ((same.live ref).trans live))

end Moved

end Heap

namespace Collection

/-- A mutator was given the node in the course of the moves. -/
def HandedOut (start : Collection) (moves : List Move) (ref : Ref) : Prop :=
  ∃ before request after, moves = before ++ .mutate request :: after ∧
    (start.replay before).heap.HandsOut request ref

/-- Marking came to rest in the course of the moves, and the node was live and white
when it did. -/
def WhiteAtRest (start : Collection) (moves : List Move) (ref : Ref) : Prop :=
  ∃ before after, moves = before ++ .visit :: after ∧
    (start.replay before).heap.phase = .marking ∧
    (start.replay (before ++ [.visit])).heap.phase = .reclaiming ∧
    ((start.replay before).heap.node ref).live = true ∧
    ((start.replay before).heap.node ref).color = .white

namespace Consistent

variable {collection start : Collection} {move : Move} {moves : List Move} {ref : Ref}

/-- Collector work takes nothing out of use but the garbage that the reclaim pass is about to
visit. -/
theorem released_of_freed (consistent : collection.Consistent)
    (possible : collection.Possible move) (work : move.isWork = true)
    (freed : collection.Frees move ref) :
    collection.heap.Reclaiming ref ∧ collection.heap.Garbage ref ∧
      Heap.Pushed (collection.heap.moveFrontier (ref + 1)) ref
        (collection.perform move).heap := by
  obtain ⟨live, dead⟩ := freed
  have moved := consistent.moved possible
  generalize (collection.perform move).heap = after at *
  cases moved with
  | mutated => cases work
  | worked _ worked => exact worked.of_freed live dead
  | dropped same resting =>
      exact Bool.noConfusion (dead.symm.trans ((same.live ref).trans live))

/-- Collector work releases only what is not spared, and spares it from then on. -/
theorem doomed_of_freed (consistent : collection.Consistent)
    (possible : collection.Possible move) (work : move.isWork = true)
    (freed : collection.Frees move ref) :
    collection.heap.phase = .reclaiming ∧ ¬ collection.heap.Spared ref ∧
      (collection.perform move).heap.Spared ref := by
  obtain ⟨reclaiming, garbage, pushed⟩ := consistent.released_of_freed possible work freed
  refine ⟨reclaiming.phase, ?_, .inr ⟨pushed.phase.trans reclaiming.phase, freed.2⟩⟩
  rintro (kept | ⟨_, unused⟩)
  · exact (kept.reclaiming reclaiming.phase (Nat.le_of_eq reclaiming.frontier)).2 garbage.1
  · exact Bool.noConfusion (unused.symm.trans freed.1)

/-- What collector work releases is the next to be allocated. -/
theorem firstFree_of_freed (consistent : collection.Consistent)
    (possible : collection.Possible move) (work : move.isWork = true)
    (freed : collection.Frees move ref) :
    (collection.perform move).heap.firstFree = ref := by
  obtain ⟨reclaiming, garbage, pushed⟩ := consistent.released_of_freed possible work freed
  have rooted := garbage.rooted reclaiming.started
  have head := pushed.child Ref.freeRoot .right
  rwa [if_neg (Heap.ne_freeRoot_of_rooted rooted).symm, if_pos ⟨rfl, rfl⟩] at head

theorem count_collected_of_spared (consistent : start.Consistent)
    (legal : start.Legal moves) (inCycle : start.InCycle moves)
    (spared : start.heap.Spared ref) :
    (start.collected moves).count ref = 0 := by
  induction moves generalizing start with
  | nil => rfl
  | cons move moves induction =>
      obtain ⟨free, ordered⟩ := consistent.ordered
      have active := consistent.phase_ne_idle inCycle.1
      have sparedAfter := (consistent.moved legal.1).spared ordered active spared
      have rest := induction (consistent.perform legal.1) legal.2 inCycle.2 sparedAfter
      rw [collected, count_noted_cons]
      apply Nat.add_eq_zero_iff.mpr
      refine ⟨if_neg ?_, rest⟩
      rintro ⟨_, noted⟩
      simp only [Bool.and_eq_true, Bool.not_eq_true'] at noted
      obtain ⟨⟨work, live⟩, dead⟩ := noted
      exact (consistent.doomed_of_freed legal.1 work ⟨live, dead⟩).2.1 spared

theorem count_collected_le_one (consistent : start.Consistent)
    (legal : start.Legal moves) (inCycle : start.InCycle moves) (ref : Ref) :
    (start.collected moves).count ref ≤ 1 := by
  induction moves generalizing start with
  | nil => simp [collected, noted]
  | cons move moves induction =>
      have consistentAfter := consistent.perform legal.1
      rw [collected, count_noted_cons]
      split
      · rename_i noted
        simp only [Bool.and_eq_true, Bool.not_eq_true'] at noted
        obtain ⟨_, ⟨work, live⟩, dead⟩ := noted
        have spared := (consistent.doomed_of_freed legal.1 work ⟨live, dead⟩).2.2
        exact Nat.le_of_eq (congrArg (1 + ·)
          (consistentAfter.count_collected_of_spared legal.2 inCycle.2 spared))
      · rw [Nat.zero_add]
        exact induction consistentAfter legal.2 inCycle.2

/-- Only a visit ends the marking phase without ending the cycle. -/
theorem phase_perform_of_marking (consistent : collection.Consistent)
    (possible : collection.Possible move) (active : collection.collector.position ≠ .idle)
    (marking : collection.heap.phase = .marking) :
    (collection.perform move).heap.phase = .marking ∨
      (move = .visit ∧ (collection.perform move).heap.phase = .reclaiming ∧
        ∀ ref, (collection.perform move).heap.node ref = collection.heap.node ref) ∨
      (collection.perform move).collector.position = .idle := by
  cases move with
  | mutate request =>
      obtain ⟨free, ordered⟩ := consistent.ordered
      have kept := ((ordered.performed_change request).kept ordered).1
      exact .inl (kept.phase.trans marking)
  | markRoots => exact absurd possible active
  | visit =>
      rcases (consistent.visit possible.2).worked.phase_of_marking marking with
        stays | ⟨phase, same⟩
      · exact .inl stays
      · exact .inr (.inl ⟨rfl, phase, same⟩)
  | finish => exact .inr (.inr rfl)
  | attach => exact .inr (.inr rfl)
  | detach => exact .inr (.inr rfl)

/-- When the reclaim pass is on, there was a visit at which marking came to rest. -/
theorem exists_rest (consistent : start.Consistent) (legal : start.Legal moves)
    (inCycle : start.InCycle moves) (marking : start.heap.phase = .marking)
    (reclaiming : (start.replay moves).heap.phase = .reclaiming) :
    ∃ before after, moves = before ++ .visit :: after ∧
      (start.replay before).heap.phase = .marking ∧
      (start.replay (before ++ [.visit])).heap.phase = .reclaiming ∧
      ∀ ref, (start.replay (before ++ [.visit])).heap.node ref =
        (start.replay before).heap.node ref := by
  induction moves generalizing start with
  | nil => exact Phase.noConfusion (marking.symm.trans reclaiming)
  | cons move moves induction =>
      have consistentAfter := consistent.perform legal.1
      rcases consistent.phase_perform_of_marking legal.1 inCycle.1 marking with
        still | ⟨rfl, phase, same⟩ | idle
      · obtain ⟨before, after, split, rested⟩ :=
          induction consistentAfter legal.2 inCycle.2 still reclaiming
        exact ⟨move :: before, after, by rw [split, List.cons_append], rested⟩
      · exact ⟨[], moves, rfl, marking, phase, same⟩
      · -- The cycle has ended, so there are no more moves in it.
        cases moves with
        | nil =>
            have resting := consistentAfter.resting idle
            exact Phase.noConfusion (resting.phase.symm.trans reclaiming)
        | cons next moves => exact absurd idle inCycle.2.1

/-- What collector work releases was white when marking came to rest. -/
theorem whiteAtRest_of_freed (consistent : start.Consistent) (legal : start.Legal moves)
    (inCycle : start.InCycle moves) (marking : start.heap.phase = .marking)
    (possible : (start.replay moves).Possible move) (work : move.isWork = true)
    (freed : (start.replay moves).Frees move ref) :
    start.WhiteAtRest moves ref := by
  obtain ⟨reclaiming, doomed, _⟩ :=
    (consistent.replay legal).doomed_of_freed possible work freed
  obtain ⟨before, after, rfl, phaseBefore, phaseAfter, same⟩ :=
    consistent.exists_rest legal inCycle marking reclaiming
  refine ⟨before, after, rfl, phaseBefore, phaseAfter, ?_⟩
  rw [← List.singleton_append, ← List.append_assoc] at legal inCycle doomed
  obtain ⟨legalBefore, legalAfter⟩ := legal_append.mp legal
  obtain ⟨_, inCycleAfter⟩ := inCycle_append.mp inCycle
  rw [replay_append] at doomed
  have doomedAtRest : ¬ (start.replay (before ++ [.visit])).heap.Spared ref := by
    intro spared
    exact doomed ((consistent.replay legalBefore).replay_inCycle Heap.Moved.spared
      legalAfter inCycleAfter spared)
  have white := Heap.white_of_not_spared phaseAfter doomedAtRest
  rwa [same] at white

/-- What was handed out in the course of a cycle is spared. -/
theorem spared_of_handedOut (consistent : start.Consistent) (legal : start.Legal moves)
    (inCycle : start.InCycle moves) (handedOut : start.HandedOut moves ref) :
    (start.replay moves).heap.Spared ref := by
  obtain ⟨before, request, after, rfl, handsOut⟩ := handedOut
  obtain ⟨legalBefore, possible, legalAfter⟩ := legal_append.mp legal
  obtain ⟨_, _, inCycleAfter⟩ := inCycle_append.mp inCycle
  have consistentNow := consistent.replay legalBefore
  obtain ⟨free, ordered⟩ := consistentNow.ordered
  rw [replay_append, replay_cons]
  apply (consistentNow.perform possible).replay_inCycle Heap.Moved.spared legalAfter
    inCycleAfter
  exact .inl (ordered.kept_of_handsOut handsOut)

/-- A live node that is marked while marking lasts is released only after the reclaim
pass has visited it. -/
theorem visited_of_freed (consistent : start.Consistent) (legal : start.Legal moves)
    (inCycle : start.InCycle moves) (marking : start.heap.phase = .marking)
    (live : (start.heap.node ref).live = true) (marked : (start.heap.node ref).color ≠ .white)
    (possible : (start.replay moves).Possible move)
    (active : (start.replay moves).collector.position ≠ .idle)
    (freed : (start.replay moves).Frees move ref) :
    (start.replay moves).heap.phase = .reclaiming ∧
      ref < (start.replay moves).heap.frontier := by
  have consistentNow := consistent.replay legal
  obtain ⟨free, ordered⟩ := consistentNow.ordered
  have white := (consistentNow.moved possible).white_of_freed ordered freed.1 freed.2
  have kept : start.heap.Kept ref := by
    constructor
    · exact fun _ => ⟨live, marked⟩
    · simp [marking]
  have keptNow := consistent.replay_inCycle Heap.Moved.kept legal inCycle kept
  have notIdle := consistentNow.phase_ne_idle active
  cases phase : (start.replay moves).heap.phase with
  | idle => exact absurd phase notIdle
  | marking => exact absurd white (keptNow.marking phase).2
  | reclaiming =>
      refine ⟨rfl, Nat.lt_of_not_le fun ahead => ?_⟩
      exact (keptNow.reclaiming phase ahead).2 white

end Consistent

theorem phase_markRoots_of_idle
    {collection : Collection} (idle : collection.collector.position = .idle) :
    collection.markRoots.heap.phase = .marking := by
  obtain ⟨heap, collector⟩ := collection
  rw [markRoots_of_idle idle]

end Collection

namespace Session

/-- In every cycle of every run, collector work releases no node more than once, and
only nodes that were live and white when marking came to rest and that have not been
handed out since the roots were marked.  A live node that is marked at any moment of
the marking phase is released by nobody before the cycle has ended, unless the
reclaim pass has visited it. -/
theorem run_releasesUnmarked
    {capacity : Nat} {initial : Heap} {requests : List Request}
    {earlier cycle later : List Move}
    (built : Heap.ofCapacity capacity = .ok initial)
    (made : (ofHeap initial).trace requests = earlier ++ .markRoots :: (cycle ++ later))
    (lasts : ((ofHeap initial).collection.replay (earlier ++ [.markRoots])).InCycle cycle) :
    let start := (ofHeap initial).collection.replay (earlier ++ [.markRoots])
    (∀ ref, (start.collected cycle).count ref ≤ 1) ∧
    (∀ done move rest ref, cycle = done ++ move :: rest → move.isWork = true →
      (start.replay done).Frees move ref →
        start.WhiteAtRest done ref ∧ ¬ start.HandedOut done ref) ∧
    ∀ done between move rest ref, cycle = done ++ (between ++ move :: rest) →
      (start.replay done).heap.phase = .marking →
      ((start.replay done).heap.node ref).live = true →
      ((start.replay done).heap.node ref).color ≠ .white →
      (start.replay (done ++ between)).Frees move ref →
        (start.replay (done ++ between)).heap.phase = .reclaiming ∧
          ref < (start.replay (done ++ between)).heap.frontier := by
  intro start
  have legalRun := ((ofHeap initial).run_leads requests).legal
  rw [made] at legalRun
  obtain ⟨legalEarlier, begins, legalRest⟩ := Collection.legal_append.mp legalRun
  have legal : start.Legal cycle := by
    have legalCycle := (Collection.legal_append.mp legalRest).1
    simpa [start] using legalCycle
  have consistentEarlier := (consistent_ofHeap built).replay legalEarlier
  have started : start = ((ofHeap initial).collection.replay earlier).markRoots :=
    Collection.replay_append ..
  have consistent : start.Consistent := started ▸ consistentEarlier.markRoots.consistent
  have marking : start.heap.phase = .marking :=
    started ▸ Collection.phase_markRoots_of_idle begins
  refine ⟨consistent.count_collected_le_one legal lasts, ?_, ?_⟩
  · rintro done move rest ref rfl work freed
    obtain ⟨legalDone, possible, _⟩ := Collection.legal_append.mp legal
    obtain ⟨inCycle, _⟩ := Collection.inCycle_append.mp lasts
    refine ⟨consistent.whiteAtRest_of_freed legalDone inCycle marking possible work freed, ?_⟩
    intro handedOut
    have doomed := ((consistent.replay legalDone).doomed_of_freed possible work freed).2.1
    exact doomed (consistent.spared_of_handedOut legalDone inCycle handedOut)
  · rintro done between move rest ref rfl phase live marked freed
    obtain ⟨legalDone, legalRest⟩ := Collection.legal_append.mp legal
    obtain ⟨legalBetween, possible, _⟩ := Collection.legal_append.mp legalRest
    obtain ⟨_, inCycleRest⟩ := Collection.inCycle_append.mp lasts
    obtain ⟨inCycleBetween, active, _⟩ := Collection.inCycle_append.mp inCycleRest
    rw [Collection.replay_append] at freed ⊢
    exact (consistent.replay legalDone).visited_of_freed legalBetween inCycleBetween phase
      live marked possible active freed

/-- Node 4 is released by the last visit of the cycle and handed out again before the
cycle has ended. -/
theorem run_releasesUnmarked_handed_out_again :
    let requests : List Request :=
      [.attach, .allocateChild 1 .left, .setChild 1 .left 0, .step 14,
        .allocateChild 2 .left, .runCycle]
    let trace := (ofHeap (Heap.fresh 5)).trace requests
    let earlier := trace.take 3
    let cycle := trace.drop 4
    let start := (ofHeap (Heap.fresh 5)).collection.replay (earlier ++ [.markRoots])
    let done := cycle.take 13
    trace = earlier ++ .markRoots :: (cycle ++ []) ∧ start.InCycle cycle ∧
      cycle = done ++ .visit :: cycle.drop 14 ∧ (start.replay done).Frees .visit 4 ∧
      start.HandedOut cycle 4 ∧
      (start.collected cycle).count 4 ≤ 1 ∧ start.WhiteAtRest done 4 ∧
      ¬ start.HandedOut done 4 := by
  intro requests trace earlier cycle start done
  have built : Heap.ofCapacity 5 = .ok (Heap.fresh 5) := rfl
  have made : trace = earlier ++ .markRoots :: (cycle ++ []) := by decide
  have lasts : start.InCycle cycle := by decide
  have split : cycle = done ++ .visit :: cycle.drop 14 := by decide
  have freed : (start.replay done).Frees .visit 4 := by decide
  have handedOut : start.HandedOut cycle 4 :=
    ⟨cycle.take 14, .allocateChild 2 .left, cycle.drop 15, by decide, by
      unfold Heap.HandsOut
      decide⟩
  obtain ⟨once, released, _⟩ := run_releasesUnmarked built made lasts
  obtain ⟨white, owned⟩ := released done .visit _ 4 split rfl freed
  exact ⟨made, lasts, split, freed, handedOut, once 4, white, owned⟩

end Session

end Tricolor
