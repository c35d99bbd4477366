import Tricolor.Proofs.MutatorWork

/-!
# What the reclaim pass does to usable nodes

Nothing: it releases nodes that were condemned before, and it spares the others
for good.  Once it has visited every node, whatever is live is usable.
-/

namespace Tricolor.Heap

theorem WellFormed.usable_nil
    {heap : Heap} {free : List Ref} (ordered : heap.WellFormed free) :
    heap.Usable Ref.nil := by
  refine ⟨ordered.live_of_lt (by decide), fun condemned => ?_⟩
  exact Color.noConfusion (condemned.2.2.symm.trans ordered.sentinelBlack)

namespace Reclaiming

variable {before after : Heap} {cursor : Nat}

theorem condemned_of_garbage (reclaiming : before.Reclaiming cursor)
    (garbage : before.Garbage cursor) :
    before.Condemned cursor :=
  ⟨reclaiming.phase, Nat.le_of_eq reclaiming.frontier, garbage.1⟩

/-- Moving the frontier past one node matters to no other node. -/
theorem usable_iff_of_ne (reclaiming : before.Reclaiming cursor) {ref : Ref}
    (different : ref ≠ cursor) (phase : after.phase = .reclaiming)
    (frontier : after.frontier = cursor + 1)
    (live : (after.node ref).live = (before.node ref).live)
    (color : (after.node ref).color = (before.node ref).color) :
    after.Usable ref ↔ before.Usable ref := by
  have ahead : cursor + 1 ≤ ref ↔ cursor ≤ ref :=
    ⟨Nat.le_of_succ_le, fun reached => Nat.lt_of_le_of_ne reached different.symm⟩
  simp only [Usable, Condemned, live, color, phase, frontier, reclaiming.phase,
    reclaiming.frontier, ahead]

theorem usable_iff_of_free (reclaiming : before.Reclaiming cursor)
    (pushed : Pushed (before.moveFrontier (cursor + 1)) cursor after) {ref : Ref}
    (different : ref ≠ cursor) :
    after.Usable ref ↔ before.Usable ref := by
  refine reclaiming.usable_iff_of_ne different (pushed.phase.trans reclaiming.phase)
    pushed.frontier ?_ (pushed.color ref)
  rw [pushed.live, if_neg different]
  rfl

/-- The pass spares a node for one of three reasons: it is marked, it is not in
use, or it is a root.  A root is marked anyway. -/
theorem usable_cursor_iff (reclaiming : before.Reclaiming cursor)
    (spared : ¬ before.Garbage cursor) :
    before.Usable cursor ↔ (before.node cursor).live = true := by
  apply and_iff_left_of_imp
  intro live condemned
  have white := condemned.2.2
  have isRoot : Ref.IsRoot cursor :=
    Decidable.by_contra fun notRoot => spared ⟨white, live, notRoot⟩
  have black := reclaiming.rootsBlack cursor (Ref.mem_roots_iff.mpr isRoot) (Nat.le_refl _)
  exact Color.noConfusion (white.symm.trans black)

theorem usable_iff_of_spare (reclaiming : before.Reclaiming cursor)
    (spared : ¬ before.Garbage cursor) (ref : Ref) :
    ((before.moveFrontier (cursor + 1)).whiten cursor).Usable ref ↔ before.Usable ref := by
  have whitened := whiten_recolored (before.moveFrontier (cursor + 1)) cursor
  have color := color_whiten (before.moveFrontier (cursor + 1)) cursor ref
  generalize (before.moveFrontier (cursor + 1)).whiten cursor = after at *
  have phase : after.phase = .reclaiming := whitened.phase.trans reclaiming.phase
  have frontier : after.frontier = cursor + 1 := whitened.frontier
  have live : (after.node ref).live = (before.node ref).live := whitened.live ref
  by_cases hit : ref = cursor
  · subst hit
    rw [reclaiming.usable_cursor_iff spared, ← live]
    apply and_iff_left
    intro condemned
    have reached := condemned.2.1
    rw [frontier] at reached
    exact Nat.not_succ_le_self ref reached
  · refine reclaiming.usable_iff_of_ne hit phase frontier live ?_
    rw [color, if_neg (fun all => hit all.1)]
    rfl

/-- Once the pass has visited every node there is nothing condemned left. -/
theorem usable_iff_of_passed (reclaiming : before.Reclaiming cursor)
    (passed : before.capacity ≤ cursor) (ref : Ref) :
    before.Usable ref ↔ (before.node ref).live = true := by
  apply and_iff_left
  intro condemned
  have beyond : before.capacity ≤ ref :=
    Nat.le_trans passed (reclaiming.frontier ▸ condemned.2.1)
  have white := condemned.2.2
  rw [node_of_capacity_le beyond] at white
  exact Color.noConfusion white

theorem usable_iff_of_finish (reclaiming : before.Reclaiming cursor)
    (passed : before.capacity ≤ cursor) (same : Republished before after)
    (resting : after.Resting) (ref : Ref) :
    after.Usable ref ↔ before.Usable ref := by
  have calm : after.phase ≠ .reclaiming := by simp [resting.phase]
  rw [reclaiming.usable_iff_of_passed passed, usable_iff_live calm, same.node]

/-- The head of the free list is a root, so the pass is not about to release it. -/
theorem ne_freeRoot_of_condemned (reclaiming : before.Reclaiming cursor) {ref : Ref}
    (condemned : before.Condemned ref) :
    ref ≠ Ref.freeRoot := by
  rintro rfl
  have black := reclaiming.rootsBlack Ref.freeRoot (by decide)
    (reclaiming.frontier ▸ condemned.2.1)
  exact Color.noConfusion (condemned.2.2.symm.trans black)

end Reclaiming

namespace Worked

variable {before after : Heap} {ref : Ref}

/-- From the start of the reclaim pass to the end of the cycle the collector leaves
all usable nodes usable and makes no other node usable. -/
theorem usable_iff (worked : Worked before after) (pass : before.phase = .reclaiming)
    (ref : Ref) :
    after.Usable ref ↔ before.Usable ref := by
  cases worked with
  | rest same => rw [same]
  | start resting marking same => simp [resting.phase] at pass
  | scan marking scanned => simp [marking.phase] at pass
  | settle marking settled same reclaiming => simp [marking.phase] at pass
  | @free cursor reclaiming garbage pushed =>
      by_cases hit : ref = cursor
      · subst hit
        have condemned := reclaiming.condemned_of_garbage garbage
        refine iff_of_false (fun usable => ?_) fun usable => usable.2 condemned
        have live := usable.1
        rw [pushed.live, if_pos rfl] at live
        exact Bool.noConfusion live
      · exact reclaiming.usable_iff_of_free pushed hit
  | spare reclaiming spared whitened =>
      rw [whitened]
      exact reclaiming.usable_iff_of_spare spared ref
  | finish reclaiming passed same resting =>
      exact reclaiming.usable_iff_of_finish passed same resting ref

/-- The collector makes no node usable. -/
theorem usable (worked : Worked before after) (usable : after.Usable ref) :
    before.Usable ref := by
  by_cases pass : before.phase = .reclaiming
  · exact (worked.usable_iff pass ref).mp usable
  · rw [usable_iff_live pass]
    cases worked with
    | rest same => exact same ▸ usable.1
    | start resting marking same => exact (same.live ref).symm.trans usable.1
    | scan marking scanned => exact (scanned.live ref).symm.trans usable.1
    | settle marking settled same reclaiming =>
        exact (congrArg Node.live (same.node ref)).symm.trans usable.1
    | free reclaiming garbage pushed => exact absurd reclaiming.phase pass
    | spare reclaiming spared whitened => exact absurd reclaiming.phase pass
    | finish reclaiming passed same resting => exact absurd reclaiming.phase pass

/-- The collector writes no slot of a usable node but the head of the free list. -/
theorem child_of_usable (worked : Worked before after) (usable : before.Usable ref)
    (notHead : ref ≠ Ref.freeRoot) (side : Side) :
    (after.node ref).child side = (before.node ref).child side := by
  cases worked with
  | rest same => rw [same]
  | start resting marking same => exact same.child ref side
  | scan marking scanned => exact scanned.child ref side
  | settle marking settled same reclaiming => rw [same.node]
  | @free cursor reclaiming garbage pushed =>
      have different : ref ≠ cursor := by
        intro hit
        subst hit
        exact usable.2 (reclaiming.condemned_of_garbage garbage)
      rw [pushed.child, if_neg different, if_neg (fun head => notHead head.1)]
      rfl
  | @spare cursor reclaiming spared whitened =>
      rw [whitened]
      exact (whiten_moveFrontier_sameShape ..).child ref side
  | finish reclaiming passed same resting => rw [same.node]

end Worked

end Tricolor.Heap
