import Mathlib.Data.List.Nodup
import Tricolor.Proofs.Recoloring

/-!
# The free list as a chain

`Shaped heap free` is what slots and use flags promise about a heap whose free
nodes are, in the order of allocation, the list `free`.  Marks play no part in
it.
-/

namespace Tricolor.Heap

theorem insertionBarrier_shaded (heap : Heap) (parent child : Ref) :
    Shaded heap (heap.insertionBarrier parent child) := by
  unfold insertionBarrier
  split
  · exact shade_shaded heap child
  · exact Shaded.refl heap

theorem protectNew_shaded (heap : Heap) (ref : Ref) :
    Shaded heap (heap.protectNew ref) := by
  unfold protectNew
  split
  · exact shade_shaded heap ref
  · exact Shaded.refl heap

theorem insertionBarrier_not_white
    {heap : Heap} {parent child : Ref} (proper : child ≠ Ref.nil)
    (marking : heap.phase = .marking) (black : (heap.node parent).color = .black) :
    ((heap.insertionBarrier parent child).node child).color ≠ .white := by
  rw [insertionBarrier, if_pos ⟨proper, marking, black⟩]
  exact shade_not_white

/-- Outside of the marking phase the barrier does nothing. -/
theorem insertionBarrier_of_not_marking
    {heap : Heap} (quiet : heap.phase ≠ .marking) (parent child : Ref) :
    heap.insertionBarrier parent child = heap :=
  if_neg fun barred => quiet barred.2.1

/-- Following right slots from `ref` leads through the nodes of the list, in
order, to the sentinel. -/
inductive Chain (heap : Heap) : Ref → List Ref → Prop where
  | nil : Chain heap Ref.nil []
  | cons {ref : Ref} {rest : List Ref} :
      ref ≠ Ref.nil → Chain heap (heap.node ref).right rest →
      Chain heap ref (ref :: rest)

namespace Chain

variable {before after : Heap} {ref : Ref} {chain : List Ref}

/-- A chain survives every change that spares the slots it is threaded
through. -/
theorem frame (linked : Chain before ref chain)
    (same : ∀ member ∈ chain,
      (after.node member).right = (before.node member).right) :
    Chain after ref chain := by
  induction linked with
  | nil => exact .nil
  | @cons ref rest proper _ induction =>
      refine .cons proper ?_
      rw [same ref (by simp)]
      exact induction fun member inRest => same member (by simp [inRest])

theorem rightChain_eq (linked : Chain before ref chain) {limit : Nat}
    (bounded : chain.length ≤ limit) :
    before.rightChain limit ref = chain := by
  induction linked generalizing limit with
  | nil => cases limit <;> simp [rightChain]
  | @cons ref rest proper _ induction =>
      cases limit with
      | zero => simp at bounded
      | succ limit =>
          rw [rightChain, if_neg proper,
            induction (Nat.le_of_succ_le_succ bounded)]

theorem ne_nil (linked : Chain before ref chain) :
    ∀ member ∈ chain, member ≠ Ref.nil := by
  induction linked with
  | nil => simp
  | cons proper _ induction => simpa [proper] using induction

theorem eq_nil_iff (linked : Chain before ref chain) :
    ref = Ref.nil ↔ chain = [] := by
  cases linked with
  | nil => simp
  | cons proper _ => simp [proper]

theorem uncons {first : Ref} {rest : List Ref}
    (linked : Chain before ref (first :: rest)) :
    ref = first ∧ Chain before (before.node first).right rest := by
  cases linked with
  | cons _ tail => exact ⟨rfl, tail⟩

theorem right_mem (linked : Chain before ref chain) :
    ∀ member ∈ chain, (before.node member).right = Ref.nil ∨
      (before.node member).right ∈ chain := by
  induction linked with
  | nil => simp
  | @cons ref rest _ tail induction =>
      intro member inChain
      rcases List.mem_cons.mp inChain with rfl | inRest
      · cases rest with
        | nil => exact .inl (tail.eq_nil_iff.mpr rfl)
        | cons next _ => exact .inr (by simp [tail.uncons.1])
      · exact (induction member inRest).imp_right (List.mem_cons_of_mem _)

/-- A reference leads to one chain only. -/
theorem unique {other : List Ref} (linked : Chain before ref chain)
    (again : Chain before ref other) :
    chain = other := by
  induction linked generalizing other with
  | nil => exact (again.eq_nil_iff.mp rfl).symm
  | cons proper _ induction =>
      cases again with
      | nil => exact absurd rfl proper
      | cons _ rest => rw [induction rest]

/-- The rest of a chain from one of its members on. -/
theorem exists_rest (linked : Chain before ref chain) {member : Ref} (inChain : member ∈ chain) :
    ∃ rest, Chain before member rest ∧ rest.length ≤ chain.length := by
  induction linked with
  | nil => cases inChain
  | @cons ref rest proper tail induction =>
      rcases List.mem_cons.mp inChain with rfl | inRest
      · exact ⟨_, .cons proper tail, Nat.le_refl _⟩
      · obtain ⟨later, found, short⟩ := induction inRest
        exact ⟨later, found, Nat.le_succ_of_le short⟩

/-- A chain that came back to one of its members would not end. -/
theorem nodup (linked : Chain before ref chain) : chain.Nodup := by
  induction linked with
  | nil => exact List.nodup_nil
  | @cons ref rest proper tail induction =>
      refine List.nodup_cons.mpr ⟨fun again => ?_, induction⟩
      obtain ⟨later, found, short⟩ := tail.exists_rest again
      rw [found.unique (.cons proper tail), List.length_cons] at short
      exact Nat.not_succ_le_self _ short

section Closed

variable (closed : ∀ ref, (before.node ref).right < before.capacity)

include closed

theorem lt_capacity (linked : Chain before ref chain) (inside : ref < before.capacity) :
    ∀ member ∈ chain, member < before.capacity := by
  induction linked with
  | nil => simp
  | cons _ _ induction => simpa [inside] using induction (closed _)

theorem length_le (linked : Chain before ref chain) (inside : ref < before.capacity) :
    chain.length ≤ before.capacity := by
  have within : chain ⊆ List.range before.capacity := fun member inChain =>
    List.mem_range.mpr (linked.lt_capacity closed inside member inChain)
  simpa using (linked.nodup.subperm within).length_le

theorem freeList_eq (linked : Chain before before.firstFree chain) :
    before.freeList = chain :=
  linked.rightChain_eq (Nat.le_succ_of_le (linked.length_le closed (closed Ref.freeRoot)))

end Closed

end Chain

/-- Where the walk along right slots stops short of its limit it has come to the sentinel. -/
theorem chain_rightChain {heap : Heap} {limit : Nat} {ref : Ref}
    (short : (heap.rightChain limit ref).length < limit) :
    heap.Chain ref (heap.rightChain limit ref) := by
  induction limit generalizing ref with
  | zero => exact absurd short (Nat.not_lt_zero _)
  | succ limit induction =>
      unfold rightChain at short ⊢
      by_cases sentinel : ref = Ref.nil
      · rw [if_pos sentinel, sentinel]
        exact .nil
      · rw [if_neg sentinel] at short ⊢
        exact .cons sentinel (induction (Nat.lt_of_succ_lt_succ short))

/-- What the slots, the use flags and the free counter of a heap promise.  The
free nodes are the list `free`, next to be allocated first. -/
structure Shaped (heap : Heap) (free : List Ref) : Prop where
  roomy : minCapacity ≤ heap.capacity
  sentinelChild : ∀ side, (heap.node Ref.nil).child side = Ref.nil
  closed : ∀ ref side, (heap.node ref).child side < heap.capacity
  /-- No slot leads back to the head of the free list. -/
  headUnlinked : ∀ ref side, (heap.node ref).child side ≠ Ref.freeRoot
  chain : heap.Chain heap.firstFree free
  distinct : free.Nodup
  mem_iff : ∀ ref, ref ∈ free ↔ (heap.node ref).live = false
  rootFree : ∀ ref ∈ free, minCapacity ≤ ref
  emptyLeft : ∀ ref ∈ free, (heap.node ref).left = Ref.nil
  counted : heap.freeCount = free.length

namespace Shaped

variable {heap : Heap} {free : List Ref}

theorem freeRoot_lt (shaped : heap.Shaped free) : Ref.freeRoot < heap.capacity :=
  shaped.roomy

theorem lt_capacity (shaped : heap.Shaped free) {ref : Ref} (member : ref ∈ free) :
    ref < heap.capacity :=
  lt_capacity_of_not_live ((shaped.mem_iff ref).mp member)

theorem firstFree_lt (shaped : heap.Shaped free) : heap.firstFree < heap.capacity :=
  shaped.closed Ref.freeRoot .right

theorem freeList_eq (shaped : heap.Shaped free) : heap.freeList = free :=
  shaped.chain.freeList_eq fun ref => shaped.closed ref .right

theorem live_of_lt (shaped : heap.Shaped free) {ref : Ref} (low : ref < minCapacity) :
    (heap.node ref).live = true := by
  apply Bool.of_not_eq_false
  intro dead
  exact absurd (shaped.rootFree ref ((shaped.mem_iff ref).mpr dead)) (Nat.not_le.mpr low)

theorem dead (shaped : heap.Shaped free) {ref : Ref} (member : ref ∈ free) :
    (heap.node ref).live = false :=
  (shaped.mem_iff ref).mp member

theorem not_mem_of_live (shaped : heap.Shaped free) {ref : Ref}
    (live : (heap.node ref).live = true) :
    ref ∉ free := by
  intro member
  exact Bool.noConfusion ((shaped.dead member).symm.trans live)

theorem ne_freeRoot (shaped : heap.Shaped free) {ref : Ref} (member : ref ∈ free) :
    ref ≠ Ref.freeRoot :=
  ne_freeRoot_of_rooted (shaped.rootFree ref member)

theorem firstFree_eq_headD (shaped : heap.Shaped free) :
    heap.firstFree = free.headD Ref.nil := by
  have chain := shaped.chain
  cases free with
  | nil => exact chain.eq_nil_iff.mpr rfl
  | cons first rest => exact chain.uncons.1

theorem exists_cons (shaped : heap.Shaped free) (available : heap.firstFree ≠ Ref.nil) :
    ∃ rest, free = heap.firstFree :: rest := by
  have chain := shaped.chain
  cases free with
  | nil => exact absurd (chain.eq_nil_iff.mpr rfl) available
  | cons first rest => exact ⟨rest, by rw [chain.uncons.1]⟩

theorem firstFree_dead (shaped : heap.Shaped free) (available : heap.firstFree ≠ Ref.nil) :
    (heap.node heap.firstFree).live = false := by
  obtain ⟨rest, listed⟩ := shaped.exists_cons available
  exact (shaped.mem_iff heap.firstFree).mp (by simp [listed])

end Shaped

theorem SameShape.shaped
    {before after : Heap} {free : List Ref} (same : SameShape before after)
    (shaped : before.Shaped free) :
    after.Shaped free where
  roomy := by
    rw [same.capacity]
    exact shaped.roomy
  sentinelChild side := by rw [same.child, shaped.sentinelChild]
  closed ref side := by
    rw [same.child, same.capacity]
    exact shaped.closed ref side
  headUnlinked ref side := by
    rw [same.child]
    exact shaped.headUnlinked ref side
  chain := by
    rw [same.firstFree]
    exact shaped.chain.frame fun ref _ => same.right ref
  distinct := shaped.distinct
  mem_iff ref := by rw [same.live, shaped.mem_iff]
  rootFree := shaped.rootFree
  emptyLeft ref member := (same.child ref .left).trans (shaped.emptyLeft ref member)
  counted := same.freeCount.trans shaped.counted

end Tricolor.Heap
