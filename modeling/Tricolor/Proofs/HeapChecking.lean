import Tricolor.Heap.Check
import Tricolor.Proofs.WellFormed

/-!
# What the checker looks for

Each stage of `Heap.violation?` passes under a condition that is stated here
beside it.  A heap in order passes every stage but the last one for sure, so for
such a heap the checker decides a single question: whether a usable node refers
to a free one.
-/

namespace Tricolor

theorem Side.mem_both (side : Side) : side ∈ Side.both := by
  cases side <;> decide

namespace Heap

/-- No usable node but the head of the free list refers to a free node. -/
def DanglingFree (heap : Heap) : Prop :=
  ∀ ref, heap.Usable ref → ref ≠ Ref.freeRoot → ∀ side,
    (heap.node ref).child side = Ref.nil ∨
      (heap.node ((heap.node ref).child side)).live = true

/-- A usable node other than the head of the free list refers to a free one. -/
structure Dangling (heap : Heap) (ref : Ref) (side : Side) (child : Ref) : Prop where
  usable : heap.Usable ref
  notHead : ref ≠ Ref.freeRoot
  child_eq : (heap.node ref).child side = child
  proper : child ≠ Ref.nil
  free : (heap.node child).live = false

theorem escape?_eq_none_iff (heap : Heap) (ref : Ref) :
    heap.escape? ref = none ↔ ∀ side, (heap.node ref).child side < heap.capacity := by
  unfold escape?
  rw [List.findSome?_eq_none_iff]
  constructor
  · intro passed side
    have inside := passed side (Side.mem_both side)
    simpa using inside
  · intro closed side _
    simp [closed side]

/-- Slots beyond the heap lead to its sentinel. -/
theorem child_lt_of_inside {heap : Heap} (roomy : Ref.nil < heap.capacity)
    (closed : ∀ ref, ref < heap.capacity → ∀ side, (heap.node ref).child side < heap.capacity)
    (ref : Ref) (side : Side) :
    (heap.node ref).child side < heap.capacity := by
  by_cases inside : ref < heap.capacity
  · exact closed ref inside side
  · rw [node_of_capacity_le (Nat.le_of_not_lt inside), Node.sentinel_child]
    exact roomy

theorem lengthViolation?_eq_none_iff (heap : Heap) (chain : List Ref) :
    heap.lengthViolation? chain = none ↔
      chain.length ≤ heap.capacity ∧ chain.length = heap.freeCount := by
  unfold lengthViolation?
  by_cases long : heap.capacity < chain.length
  · simp [long]
  · simp [long, Nat.le_of_not_lt long]

theorem getD_flag
    {flags : Array Bool} {first : Ref} (inside : first < flags.size) (ref : Ref) :
    (flags.setIfInBounds first true).getD ref false =
      if ref = first then true else flags.getD ref false := by
  simp only [Array.getD_eq_getD_getElem?, Array.getElem?_setIfInBounds]
  by_cases hit : first = ref
  · simp [hit, hit ▸ inside]
  · simp [hit, Ne.symm hit]

/-- Flagging a list of distinct nodes succeeds and flags those and no others. -/
theorem flagFree_eq_ok
    {chain : List Ref} {flags : Array Bool} (distinct : chain.Nodup)
    (inside : ∀ ref ∈ chain, ref < flags.size)
    (unflagged : ∀ ref ∈ chain, flags.getD ref false = false) :
    ∃ flagged, flagFree chain flags = .ok flagged ∧
      ∀ ref, flagged.getD ref false = true ↔
        flags.getD ref false = true ∨ ref ∈ chain := by
  induction chain generalizing flags with
  | nil => exact ⟨flags, rfl, fun ref => by simp⟩
  | cons first rest induction =>
      obtain ⟨fresh, restDistinct⟩ := List.nodup_cons.mp distinct
      have read := getD_flag (inside first (by simp))
      have restInside : ∀ ref ∈ rest, ref < (flags.setIfInBounds first true).size := by
        intro ref member
        simpa using inside ref (by simp [member])
      have restUnflagged : ∀ ref ∈ rest,
          (flags.setIfInBounds first true).getD ref false = false := by
        intro ref member
        have different : ref ≠ first := by
          intro hit
          subst hit
          exact fresh member
        rw [read, if_neg different]
        exact unflagged ref (by simp [member])
      obtain ⟨flagged, succeeded, holds⟩ :=
        induction restDistinct restInside restUnflagged
      refine ⟨flagged, ?_, fun ref => ?_⟩
      · rw [flagFree, unflagged first (by simp)]
        exact succeeded
      · rw [holds, read]
        by_cases hit : ref = first
        · simp [hit]
        · simp [hit]

theorem misplacement?_eq_none_iff (heap : Heap) (flags : Array Bool) (ref : Ref) :
    heap.misplacement? flags ref = none ↔
      (heap.node ref).live ≠ flags.getD ref false ∧
        (heap.Usable ref → ref ≠ Ref.freeRoot → ∀ side,
          (heap.node ref).child side = Ref.nil ∨
            (heap.node ((heap.node ref).child side)).live = true) := by
  unfold misplacement?
  by_cases misfiled : (heap.node ref).live = flags.getD ref false
  · simp [misfiled]
  · simp only [if_neg misfiled]
    by_cases exempt : (heap.node ref).live = false ∨ ref = Ref.freeRoot ∨ heap.Condemned ref
    · rw [if_pos exempt]
      refine iff_of_true rfl ⟨misfiled, fun usable notHead => ?_⟩
      rcases exempt with dead | head | condemned
      · exact Bool.noConfusion (dead.symm.trans usable.1)
      · exact absurd head notHead
      · exact absurd condemned usable.2
    · obtain ⟨live, notHead, spared⟩ : (heap.node ref).live = true ∧
          ref ≠ Ref.freeRoot ∧ ¬ heap.Condemned ref := by simpa using exempt
      rw [if_neg exempt, List.findSome?_eq_none_iff]
      constructor
      · intro passed
        refine ⟨misfiled, fun _ _ side => ?_⟩
        have referred := passed side (Side.mem_both side)
        by_cases empty : (heap.node ref).child side = Ref.nil
        · exact .inl empty
        · right
          simpa [empty] using referred
      · rintro ⟨-, holds⟩ side _
        rcases holds ⟨live, spared⟩ notHead side with empty | referred
        · simp [empty]
        · simp [referred]

/-- A node that is not misfiled can only be misplaced by what it refers to. -/
theorem dangling_of_misplacement?
    {heap : Heap} {flags : Array Bool} {ref : Ref} {violation : Violation}
    (filed : (heap.node ref).live ≠ flags.getD ref false)
    (misplaced : heap.misplacement? flags ref = some violation) :
    ∃ side child, violation = .danglingChild ref side child ∧
      heap.Dangling ref side child := by
  unfold misplacement? at misplaced
  simp only [if_neg filed] at misplaced
  split at misplaced
  · cases misplaced
  · rename_i checked
    obtain ⟨live, notHead, spared⟩ : (heap.node ref).live = true ∧
        ref ≠ Ref.freeRoot ∧ ¬ heap.Condemned ref := by simpa using checked
    obtain ⟨side, _, found⟩ := List.exists_of_findSome?_eq_some misplaced
    split at found
    · rename_i dangling
      cases found
      exact ⟨side, _, rfl, ⟨live, spared⟩, notHead, rfl, dangling.1, dangling.2⟩
    · cases found

theorem mem_properRefs_iff {heap : Heap} {ref : Ref} :
    ref ∈ heap.properRefs ↔ 1 ≤ ref ∧ ref < heap.capacity := by
  have split : ∀ size index : Nat,
      index ∈ (List.range size).drop 1 ↔ 1 ≤ index ∧ index < size := by
    intro size index
    cases size with
    | zero => simp
    | succ size =>
        rw [List.range_succ_eq_map, List.drop_one, List.tail_cons]
        cases index with
        | zero => simp
        | succ index => simp
  exact split heap.capacity ref

theorem sentinelViolation?_eq_none_iff (heap : Heap) :
    heap.sentinelViolation? = none ↔
      (∀ side, (heap.node Ref.nil).child side = Ref.nil) ∧
        (heap.node Ref.nil).color = .black := by
  have children : (∀ side, (heap.node Ref.nil).child side = Ref.nil) ↔
      (heap.node Ref.nil).left = Ref.nil ∧ (heap.node Ref.nil).right = Ref.nil :=
    ⟨fun empty => ⟨empty .left, empty .right⟩, fun empty side => by
      cases side with
      | left => exact empty.1
      | right => exact empty.2⟩
  unfold sentinelViolation?
  simp [children, and_assoc]

/-- The flags that the checker sets are those of the nodes on the chain. -/
theorem exists_flags {heap : Heap} {chain : List Ref} (distinct : chain.Nodup)
    (inside : ∀ ref ∈ chain, ref < heap.capacity) :
    ∃ flags, flagFree chain (Array.replicate heap.capacity false) = .ok flags ∧
      ∀ ref, flags.getD ref false = true ↔ ref ∈ chain := by
  have unflagged : ∀ ref, (Array.replicate heap.capacity false).getD ref false = false := by
    intro ref
    rw [Array.getD_eq_getD_getElem?, Array.getElem?_replicate]
    split <;> rfl
  obtain ⟨flags, flagged, flagsOf⟩ := flagFree_eq_ok distinct
    (fun ref member => by simpa using inside ref member)
    (fun ref _ => unflagged ref)
  exact ⟨flags, flagged, fun ref => by simpa [unflagged] using flagsOf ref⟩

theorem findSome?_escape?_eq_none_iff (heap : Heap) :
    (List.range heap.capacity).findSome? heap.escape? = none ↔
      ∀ ref, ref < heap.capacity → ∀ side, (heap.node ref).child side < heap.capacity := by
  simp only [List.findSome?_eq_none_iff, List.mem_range, escape?_eq_none_iff]

/-- Where the chain ends and has been counted, only the last stage is left. -/
theorem Chain.violation?_eq {heap : Heap} {chain : List Ref}
    (linked : heap.Chain heap.firstFree chain) (counted : chain.length = heap.freeCount)
    (closed : ∀ ref side, (heap.node ref).child side < heap.capacity)
    (sentinelChild : ∀ side, (heap.node Ref.nil).child side = Ref.nil)
    (sentinelBlack : (heap.node Ref.nil).color = .black) :
    ∃ flags, (∀ ref, flags.getD ref false = true ↔ ref ∈ chain) ∧
      heap.violation? = heap.properRefs.findSome? (heap.misplacement? flags) := by
  have next := fun ref => closed ref .right
  have bounded := linked.length_le next (next Ref.freeRoot)
  obtain ⟨flags, flagged, flagsOf⟩ :=
    exists_flags linked.nodup (linked.lt_capacity next (next Ref.freeRoot))
  refine ⟨flags, flagsOf, ?_⟩
  unfold violation?
  rw [heap.sentinelViolation?_eq_none_iff.mpr ⟨sentinelChild, sentinelBlack⟩,
    heap.findSome?_escape?_eq_none_iff.mpr fun ref _ => closed ref, linked.freeList_eq next,
    (heap.lengthViolation?_eq_none_iff chain).mpr ⟨bounded, counted⟩, flagged]
  rfl

/-- For a heap in order no node is misfiled. -/
theorem WellFormed.violation?_eq
    {heap : Heap} {free : List Ref} (ordered : heap.WellFormed free) :
    ∃ flags, (∀ ref, (heap.node ref).live ≠ flags.getD ref false) ∧
      heap.violation? = heap.properRefs.findSome? (heap.misplacement? flags) := by
  obtain ⟨flags, flagsOf, reduced⟩ := ordered.chain.violation?_eq ordered.counted.symm
    ordered.closed ordered.sentinelChild ordered.sentinelBlack
  refine ⟨flags, fun ref same => ?_, reduced⟩
  have member : ref ∈ free ↔ (heap.node ref).live = true := by
    rw [same, flagsOf]
  rw [ordered.mem_iff] at member
  simp at member

/-- For a heap in order the checker decides whether a usable node refers to a
free one. -/
theorem WellFormed.violation?_eq_none_iff
    {heap : Heap} {free : List Ref} (ordered : heap.WellFormed free) :
    heap.violation? = none ↔ heap.DanglingFree := by
  obtain ⟨flags, filed, reduced⟩ := ordered.violation?_eq
  rw [reduced, List.findSome?_eq_none_iff]
  constructor
  · intro passed ref usable notHead side
    by_cases proper : 1 ≤ ref ∧ ref < heap.capacity
    · have placed := passed ref (heap.mem_properRefs_iff.mpr proper)
      exact ((heap.misplacement?_eq_none_iff flags ref).mp placed).2 usable notHead side
    · left
      by_cases beyond : heap.capacity ≤ ref
      · rw [node_of_capacity_le beyond, Node.sentinel_child]
      · have sentinel : ref = Ref.nil := Nat.eq_zero_of_not_pos fun started =>
          proper ⟨started, Nat.lt_of_not_le beyond⟩
        rw [sentinel, ordered.sentinelChild]
  · intro undangling ref _
    exact (heap.misplacement?_eq_none_iff flags ref).mpr ⟨filed ref, undangling ref⟩

/-- For a heap in order the checker knows a single kind of violation. -/
theorem WellFormed.dangling_of_violation?
    {heap : Heap} {free : List Ref} {violation : Violation} (ordered : heap.WellFormed free)
    (found : heap.violation? = some violation) :
    ∃ ref side child, violation = .danglingChild ref side child ∧
      heap.Dangling ref side child := by
  obtain ⟨flags, filed, reduced⟩ := ordered.violation?_eq
  rw [reduced] at found
  obtain ⟨ref, _, misplaced⟩ := List.exists_of_findSome?_eq_some found
  exact ⟨ref, dangling_of_misplacement? (filed ref) misplaced⟩

theorem WellFormed.checkInvariants_eq_ok_iff
    {heap : Heap} {free : List Ref} (ordered : heap.WellFormed free) :
    heap.checkInvariants = .ok () ↔ heap.DanglingFree := by
  rw [← ordered.violation?_eq_none_iff]
  unfold checkInvariants
  cases heap.violation? with
  | none => simp
  | some violation => simp

end Heap

end Tricolor
