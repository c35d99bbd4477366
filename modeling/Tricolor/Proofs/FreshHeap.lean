import Tricolor.Proofs.MutatorWork

/-!
# Runs from a fresh heap

A fresh heap is in order and at rest.  Every run that starts from it is
therefore consistent, whatever is asked for and in whatever order.
-/

namespace Tricolor

namespace Heap

theorem of_ofCapacity
    {capacity : Nat} {initial : Heap} (built : ofCapacity capacity = .ok initial) :
    minCapacity ≤ capacity ∧ initial = fresh capacity := by
  unfold ofCapacity at built
  split at built
  · cases built
  · rename_i roomy
    cases built
    exact ⟨Nat.le_of_not_lt roomy, rfl⟩

@[simp] theorem capacity_fresh (capacity : Nat) :
    (fresh capacity).capacity = capacity := by
  simp [Heap.capacity, fresh]

theorem node_fresh
    {capacity ref : Nat} (inside : ref < capacity) :
    (fresh capacity).node ref = Node.initial capacity ref := by
  simp [node, fresh, Array.getD_eq_getD_getElem?, inside]

theorem child_fresh (capacity ref : Nat) (side : Side) :
    ((fresh capacity).node ref).child side =
      if side = .right ∧ Ref.freeRoot ≤ ref ∧ ref + 1 < capacity then ref + 1
      else Ref.nil := by
  by_cases inside : ref < capacity
  · rw [node_fresh inside]
    cases side <;> simp [Node.initial]
  · have beyond : (fresh capacity).capacity ≤ ref := by simpa using inside
    rw [node_of_capacity_le beyond, Node.sentinel_child, if_neg]
    rintro ⟨-, -, next⟩
    omega

theorem live_fresh (capacity ref : Nat) :
    ((fresh capacity).node ref).live = false ↔ minCapacity ≤ ref ∧ ref < capacity := by
  by_cases inside : ref < capacity
  · rw [node_fresh inside]
    simp [Node.initial, minCapacity, inside, Nat.succ_le_iff]
  · have beyond : (fresh capacity).capacity ≤ ref := by simpa using inside
    rw [node_of_capacity_le beyond]
    simp [Node.sentinel, inside]

theorem color_fresh (capacity ref : Nat) :
    ((fresh capacity).node ref).color =
      if ref = Ref.nil ∨ capacity ≤ ref then .black else .white := by
  by_cases inside : ref < capacity
  · rw [node_fresh inside]
    simp [Node.initial, Nat.not_le.mpr inside]
  · have beyond : (fresh capacity).capacity ≤ ref := by simpa using inside
    rw [node_of_capacity_le beyond, if_pos (.inr (Nat.le_of_not_lt inside))]
    rfl

/-- From the free-list root on every node leads to its successor. -/
theorem chain_fresh
    {capacity ref : Nat} (headed : Ref.freeRoot ≤ ref) (count : Nat)
    (last : ref + 1 + count = capacity) :
    (fresh capacity).Chain ((fresh capacity).node ref).right
      (List.range' (ref + 1) count) := by
  have right := child_fresh capacity ref .right
  rw [Node.child_right] at right
  induction count generalizing ref with
  | zero =>
      rw [right, if_neg (fun all => absurd all.2.2 (by omega))]
      exact .nil
  | succ count induction =>
      rw [right, if_pos ⟨rfl, headed, by omega⟩, List.range'_succ]
      refine .cons (Nat.succ_ne_zero ref) ?_
      exact induction (Nat.le_succ_of_le headed) (by omega)
        (child_fresh capacity (ref + 1) .right)

theorem fresh_shaped {capacity : Nat} (roomy : minCapacity ≤ capacity) :
    (fresh capacity).Shaped (List.range' minCapacity (capacity - minCapacity)) := by
  have member : ∀ ref, ref ∈ List.range' minCapacity (capacity - minCapacity) ↔
      minCapacity ≤ ref ∧ ref < capacity := by
    intro ref
    rw [List.mem_range'_1]
    omega
  refine
    { roomy := by simpa using roomy
      sentinelChild := fun side => by simp [child_fresh]
      closed := fun ref side => ?_
      headUnlinked := fun ref side => ?_
      chain := chain_fresh (Nat.le_refl _) _ (Nat.add_sub_cancel' roomy)
      distinct := List.nodup_range'
      mem_iff := fun ref => (member ref).trans (live_fresh capacity ref).symm
      rootFree := fun ref free => ((member ref).mp free).1
      emptyLeft := fun ref _ => ?_
      counted := by simp [fresh] }
  · rw [child_fresh, capacity_fresh]
    split
    · exact And.right (And.right ‹_›)
    · exact Nat.lt_of_lt_of_le (by decide) roomy
  · rw [child_fresh]
    split
    · rename_i next
      exact Nat.ne_of_gt (Nat.lt_succ_of_le next.2.1)
    · decide
  · have left := child_fresh capacity ref .left
    simpa using left

theorem fresh_wellFormed {capacity : Nat} (roomy : minCapacity ≤ capacity) :
    (fresh capacity).WellFormed (List.range' minCapacity (capacity - minCapacity)) where
  toShaped := fresh_shaped roomy
  sentinelBlack := by simp [color_fresh]
  greyCounted := by
    have unmarked : (fresh capacity).greyNodes = ∅ := by
      ext ref
      rw [mem_greyNodes, color_fresh]
      split <;> simp
    rw [GreyCounted, unmarked]
    rfl

theorem fresh_resting (capacity : Nat) : (fresh capacity).Resting where
  phase := rfl
  frontier := (capacity_fresh capacity).symm
  unmarked ref proper black := by
    rw [color_fresh] at black
    split at black
    · rename_i sentinel
      simpa using sentinel.resolve_left proper
    · cases black

end Heap

namespace Session

variable {capacity : Nat} {initial : Heap}

theorem consistent_ofHeap (built : Heap.ofCapacity capacity = .ok initial) :
    (ofHeap initial).collection.Consistent := by
  obtain ⟨roomy, rfl⟩ := Heap.of_ofCapacity built
  exact ⟨⟨_, Heap.fresh_wellFormed roomy⟩, Heap.fresh_resting capacity⟩

/-- Whatever is asked of a fresh heap, it stays in order and agrees with where
its collector stands. -/
theorem run_consistent
    (built : Heap.ofCapacity capacity = .ok initial) (requests : List Request) :
    ((ofHeap initial).run requests).collection.Consistent :=
  consistent_preserved.run (obeys_anything _ _) (consistent_ofHeap built)

end Session

end Tricolor
