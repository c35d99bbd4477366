import Tricolor.Proofs.Faultless

/-!
# The checker decides what it promises

A checker is of use only if it can be let loose on any heap, and on a damaged one above all.
Slots may lead anywhere, the free list may run in circles, and counters, marks and flags may say
what they like: the checker comes to an answer without following a slot that leads out of the
heap, and the answer is right both ways.
-/

namespace Tricolor

namespace Heap

variable {heap : Heap} {chain : List Ref}

/-- What the checker promises of a heap that passes. -/
structure Intact (heap : Heap) : Prop where
  sentinelChild : ∀ side, (heap.node Ref.nil).child side = Ref.nil
  sentinelBlack : (heap.node Ref.nil).color = .black
  closed : ∀ ref, ref < heap.capacity → ∀ side, (heap.node ref).child side < heap.capacity
  /-- The free list ends, it is as long as the counter says, and every node is either on it or
  in use. -/
  listed : ∃ chain, heap.Chain heap.firstFree chain ∧ chain.length = heap.freeCount ∧
    ∀ ref, 1 ≤ ref → ref < heap.capacity → ((heap.node ref).live = true ↔ ref ∉ chain)
  undangling : ∀ ref, 1 ≤ ref → ref < heap.capacity → (heap.node ref).live = true →
    ref ≠ Ref.freeRoot → ¬ heap.Condemned ref → ∀ side,
      (heap.node ref).child side = Ref.nil ∨
        (heap.node ((heap.node ref).child side)).live = true

/-- A heap that passes has passed every stage but the last one by itself. -/
theorem stages_of_violation?_eq_none (passed : heap.violation? = none) :
    heap.sentinelViolation? = none ∧
      (List.range heap.capacity).findSome? heap.escape? = none ∧
      heap.lengthViolation? heap.freeList = none := by
  rw [violation?, Option.orElse_eq_none, Option.orElse_eq_none, Option.orElse_eq_none] at passed
  exact ⟨passed.1, passed.2.1, passed.2.2.1⟩

/-- The walk along the free list is cut off one node past the capacity, and a chain that ends
has fewer nodes than that.  So a walk within the capacity has not been cut off. -/
theorem chain_freeList (bounded : heap.freeList.length ≤ heap.capacity) :
    heap.Chain heap.firstFree heap.freeList :=
  chain_rightChain (Nat.lt_succ_of_le bounded)

theorem misplacement?_flagged_eq_none_iff {flags : Array Bool} {ref : Ref}
    (flagsOf : flags.getD ref false = true ↔ ref ∈ chain) :
    heap.misplacement? flags ref = none ↔
      ((heap.node ref).live = true ↔ ref ∉ chain) ∧
        ((heap.node ref).live = true → ref ≠ Ref.freeRoot → ¬ heap.Condemned ref → ∀ side,
          (heap.node ref).child side = Ref.nil ∨
            (heap.node ((heap.node ref).child side)).live = true) := by
  have filed : (heap.node ref).live ≠ flags.getD ref false ↔
      ((heap.node ref).live = true ↔ ref ∉ chain) := by
    rw [← flagsOf]
    cases (heap.node ref).live <;> cases flags.getD ref false <;> simp
  rw [misplacement?_eq_none_iff, filed]
  constructor
  · exact fun placed => ⟨placed.1, fun live notHead spared => placed.2 ⟨live, spared⟩ notHead⟩
  · exact fun placed => ⟨placed.1, fun usable notHead => placed.2 usable.1 notHead usable.2⟩

/-- A heap that passes the stages before the last one is left to be checked node by node. -/
theorem Chain.violation?_eq_none_iff (linked : heap.Chain heap.firstFree chain)
    (counted : chain.length = heap.freeCount)
    (closed : ∀ ref side, (heap.node ref).child side < heap.capacity)
    (sentinelChild : ∀ side, (heap.node Ref.nil).child side = Ref.nil)
    (sentinelBlack : (heap.node Ref.nil).color = .black) :
    heap.violation? = none ↔ ∀ ref, 1 ≤ ref → ref < heap.capacity →
      ((heap.node ref).live = true ↔ ref ∉ chain) ∧
        ((heap.node ref).live = true → ref ≠ Ref.freeRoot → ¬ heap.Condemned ref → ∀ side,
          (heap.node ref).child side = Ref.nil ∨
            (heap.node ((heap.node ref).child side)).live = true) := by
  obtain ⟨flags, flagsOf, reduced⟩ :=
    linked.violation?_eq counted closed sentinelChild sentinelBlack
  rw [reduced, List.findSome?_eq_none_iff]
  constructor
  · intro passed ref proper inside
    exact (misplacement?_flagged_eq_none_iff (flagsOf ref)).mp
      (passed ref (mem_properRefs_iff.mpr ⟨proper, inside⟩))
  · intro placed ref member
    obtain ⟨proper, inside⟩ := mem_properRefs_iff.mp member
    exact (misplacement?_flagged_eq_none_iff (flagsOf ref)).mpr (placed ref proper inside)

theorem violation?_eq_none_iff (roomy : minCapacity ≤ heap.capacity) :
    heap.violation? = none ↔ heap.Intact := by
  have sentinelInside : Ref.nil < heap.capacity := Nat.lt_of_lt_of_le (by decide) roomy
  constructor
  · intro passed
    obtain ⟨sentinel, unescaped, counted⟩ := stages_of_violation?_eq_none passed
    obtain ⟨sentinelChild, sentinelBlack⟩ := heap.sentinelViolation?_eq_none_iff.mp sentinel
    have closed := heap.findSome?_escape?_eq_none_iff.mp unescaped
    -- A walk along a cycle would have been found too long before it could be counted.
    obtain ⟨bounded, counted⟩ := (heap.lengthViolation?_eq_none_iff _).mp counted
    have linked := chain_freeList bounded
    have placed := (linked.violation?_eq_none_iff counted
      (child_lt_of_inside sentinelInside closed) sentinelChild sentinelBlack).mp passed
    exact
      { sentinelChild := sentinelChild
        sentinelBlack := sentinelBlack
        closed := closed
        listed := ⟨_, linked, counted, fun ref proper inside => (placed ref proper inside).1⟩
        undangling := fun ref proper inside => (placed ref proper inside).2 }
  · intro intact
    obtain ⟨chain, linked, counted, filed⟩ := intact.listed
    exact (linked.violation?_eq_none_iff counted
      (child_lt_of_inside sentinelInside intact.closed) intact.sentinelChild
      intact.sentinelBlack).mpr fun ref proper inside =>
        ⟨filed ref proper inside, intact.undangling ref proper inside⟩

end Heap

/-- Checks a heap and looks at every reference that is followed on the way. -/
def Guarded.checkInvariants (heap : Heap) : Except Crash (Except Fault Unit) := do
  match ← violation? heap with
  | some violation => return .error (.invariantViolated violation.message)
  | none => return .ok ()

theorem Guarded.checkInvariants_eq_ok {heap : Heap} (roomy : Heap.minCapacity ≤ heap.capacity) :
    checkInvariants heap = .ok heap.checkInvariants := by
  rw [checkInvariants, violation?_eq_ok roomy, ok_bind, Heap.checkInvariants]
  cases heap.violation? with
  | none => rfl
  | some violation => rfl

namespace Heap

/-- Whatever has become of a heap, the checker does not crash on it, lets it pass if and only if
it is intact, and names a violation if it is not. -/
theorem checkInvariants_exact {heap : Heap} (roomy : minCapacity ≤ heap.capacity) :
    Guarded.checkInvariants heap = .ok heap.checkInvariants ∧
      (heap.checkInvariants = .ok () ↔ heap.Intact) ∧
      (¬ heap.Intact → ∃ violation : Violation,
        heap.checkInvariants = .error (.invariantViolated violation.message)) := by
  have decided := violation?_eq_none_iff roomy
  refine ⟨Guarded.checkInvariants_eq_ok roomy, ?_, fun damaged => ?_⟩
  · rw [← decided, checkInvariants]
    cases heap.violation? with
    | none => simp
    | some violation => simp
  · obtain ⟨violation, found⟩ := Option.ne_none_iff_exists'.mp (mt decided.mp damaged)
    refine ⟨violation, ?_⟩
    rw [checkInvariants, found]

/-- The last free node leads back to itself, in the middle of a reclaim pass. -/
theorem checkInvariants_exact_cyclic :
    let heap : Heap := { (fresh 6).writeChild 5 .right 5 with phase := .reclaiming }
    minCapacity ≤ heap.capacity ∧ ¬ heap.Intact ∧
      Guarded.checkInvariants heap =
        .ok (.error (.invariantViolated "free list is cyclic")) := by
  intro heap
  have roomy : minCapacity ≤ heap.capacity := by decide
  have found : heap.checkInvariants = .error (.invariantViolated "free list is cyclic") := by
    decide +kernel
  obtain ⟨guarded, decided, _⟩ := checkInvariants_exact roomy
  refine ⟨roomy, fun intact => ?_, found ▸ guarded⟩
  cases found.symm.trans (decided.mpr intact)

end Heap

end Tricolor
