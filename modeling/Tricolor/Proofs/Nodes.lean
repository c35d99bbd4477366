import Tricolor.Heap.Mutation

/-!
# Reading nodes back

Every change of a heap goes through `Heap.update` or `Heap.repaint`.  What each
of them leaves at a node is settled here, once for all references: nodes beyond
the heap read as sentinels, before and after.
-/

namespace Tricolor

theorem Color.eq_black_of_ne
    {color : Color} (notWhite : color ≠ .white) (notGrey : color ≠ .grey) :
    color = .black := by
  cases color with
  | white => exact absurd rfl notWhite
  | grey => exact absurd rfl notGrey
  | black => rfl

namespace Node

@[simp] theorem child_left (node : Node) : node.child .left = node.left := rfl

@[simp] theorem child_right (node : Node) : node.child .right = node.right := rfl

@[simp] theorem withChild_live (node : Node) (side : Side) (child : Ref) :
    (node.withChild side child).live = node.live := by
  cases side <;> rfl

@[simp] theorem withChild_color (node : Node) (side : Side) (child : Ref) :
    (node.withChild side child).color = node.color := by
  cases side <;> rfl

theorem child_withChild (node : Node) (side : Side) (child : Ref) (other : Side) :
    (node.withChild side child).child other =
      if other = side then child else node.child other := by
  cases side <;> cases other <;> rfl

/-- Two nodes with the same slots, mark and use are the same. -/
theorem ext_child {node other : Node}
    (children : ∀ side, node.child side = other.child side)
    (color : node.color = other.color) (live : node.live = other.live) :
    node = other := by
  have left := children .left
  have right := children .right
  cases node
  cases other
  simp_all

@[simp] theorem sentinel_child (side : Side) : sentinel.child side = Ref.nil := by
  cases side <;> rfl

end Node

namespace Heap

theorem ne_nil_of_rooted {ref : Ref} (rooted : minCapacity ≤ ref) :
    ref ≠ Ref.nil := by
  intro hit
  subst hit
  exact absurd rooted (by decide)

theorem ne_freeRoot_of_rooted {ref : Ref} (rooted : minCapacity ≤ ref) :
    ref ≠ Ref.freeRoot := by
  intro hit
  subst hit
  exact absurd rooted (by decide)

theorem node_of_capacity_le {heap : Heap} {ref : Ref}
    (beyond : heap.capacity ≤ ref) :
    heap.node ref = Node.sentinel := by
  simp only [capacity] at beyond
  simp [node, Array.getD_eq_getD_getElem?, beyond]

theorem lt_capacity_of_color_ne_black {heap : Heap} {ref : Ref}
    (marked : (heap.node ref).color ≠ .black) :
    ref < heap.capacity := by
  apply Nat.lt_of_not_le
  intro beyond
  rw [node_of_capacity_le beyond] at marked
  exact marked rfl

theorem lt_capacity_of_grey {heap : Heap} {ref : Ref}
    (grey : (heap.node ref).color = .grey) :
    ref < heap.capacity := by
  apply lt_capacity_of_color_ne_black
  rw [grey]
  exact Color.noConfusion

theorem lt_capacity_of_not_live {heap : Heap} {ref : Ref}
    (free : (heap.node ref).live = false) :
    ref < heap.capacity := by
  apply Nat.lt_of_not_le
  intro beyond
  rw [node_of_capacity_le beyond] at free
  exact Bool.noConfusion free

theorem node_update
    (heap : Heap) (ref : Ref) (change : Node → Node) (other : Ref) :
    (heap.update ref change).node other =
      if other = ref ∧ other < heap.capacity then change (heap.node other)
      else heap.node other := by
  simp only [node, update, capacity, Array.getD_eq_getD_getElem?,
    Array.getElem?_modify]
  by_cases inside : other < heap.nodes.size
  · by_cases same : ref = other
    · simp [same, inside]
    · simp [same, Ne.symm same]
  · simp [inside]

@[simp] theorem capacity_update
    (heap : Heap) (ref : Ref) (change : Node → Node) :
    (heap.update ref change).capacity = heap.capacity := by
  simp [capacity, update]

theorem node_update_self
    {heap : Heap} {ref : Ref} {change : Node → Node}
    (inside : ref < heap.capacity) :
    (heap.update ref change).node ref = change (heap.node ref) := by
  simp [node_update, inside]

theorem node_update_of_ne
    {heap : Heap} {ref other : Ref} {change : Node → Node}
    (different : other ≠ ref) :
    (heap.update ref change).node other = heap.node other := by
  simp [node_update, different]

@[simp] theorem capacity_writeChild
    (heap : Heap) (ref : Ref) (side : Side) (child : Ref) :
    (heap.writeChild ref side child).capacity = heap.capacity :=
  capacity_update heap ref _

theorem child_writeChild
    (heap : Heap) (ref : Ref) (side : Side) (child other : Ref) (otherSide : Side) :
    ((heap.writeChild ref side child).node other).child otherSide =
      if other = ref ∧ otherSide = side ∧ other < heap.capacity then child
      else (heap.node other).child otherSide := by
  unfold writeChild
  rw [node_update]
  by_cases same : other = ref ∧ other < heap.capacity
  · rw [if_pos same, Node.child_withChild]
    simp [same.1, same.1 ▸ same.2]
  · rw [if_neg same, if_neg]
    exact fun both => same ⟨both.1, both.2.2⟩

@[simp] theorem color_writeChild
    (heap : Heap) (ref : Ref) (side : Side) (child other : Ref) :
    ((heap.writeChild ref side child).node other).color = (heap.node other).color := by
  unfold writeChild
  rw [node_update]
  split <;> simp

@[simp] theorem live_writeChild
    (heap : Heap) (ref : Ref) (side : Side) (child other : Ref) :
    ((heap.writeChild ref side child).node other).live = (heap.node other).live := by
  unfold writeChild
  rw [node_update]
  split <;> simp

theorem node_repaint
    (heap : Heap) (ref : Ref) (color : Color) (greyCount : Nat) (other : Ref) :
    (heap.repaint ref color greyCount).node other =
      if other = ref ∧ other < heap.capacity then (heap.node other).painted color
      else heap.node other :=
  node_update heap ref (·.painted color) other

end Heap

end Tricolor
