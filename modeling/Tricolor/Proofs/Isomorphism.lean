import Mathlib.Data.Set.Function
import Tricolor.Proofs.CollectorSafety

/-!
# Heaps that look alike to mutators

Mutators cannot tell two heaps apart if what they can get to has the same shape in
both, whatever the nodes are called.  `Renaming` says so by a bijection.  It is kept
when a link is made in both heaps, when a node is allocated in both, and when either
heap changes out of the mutators' reach.
-/

namespace Tricolor

namespace Heap

/-- Mutators can name the node: it is the sentinel, or they can get to it. -/
def Held (heap : Heap) (ref : Ref) : Prop :=
  ref = Ref.nil ∨ heap.MutatorReachable ref

namespace Held

variable {heap : Heap} {free : List Ref} {ref : Ref}

theorem nil (heap : Heap) : heap.Held Ref.nil :=
  .inl rfl

theorem root {root : Ref} (isRoot : root ∈ Ref.mutatorRoots) : heap.Held root :=
  .inr (.root isRoot)

theorem child (held : heap.Held ref)
    (sentinel : ∀ side, (heap.node Ref.nil).child side = Ref.nil) (side : Side) :
    heap.Held ((heap.node ref).child side) := by
  rcases held with rfl | reachable
  · exact .inl (sentinel side)
  · exact .inr (reachable.child side)

theorem closed (held : heap.Held ref) (inside : Ref → Prop) (atNil : inside Ref.nil)
    (atRoot : ∀ root ∈ Ref.mutatorRoots, inside root)
    (stable : ∀ parent side, inside parent → inside ((heap.node parent).child side)) :
    inside ref := by
  rcases held with rfl | reachable
  · exact atNil
  · exact reachable.closed inside stable atRoot

theorem ne_freeRoot (held : heap.Held ref) (ordered : heap.WellFormed free) :
    ref ≠ Ref.freeRoot := by
  rcases held with rfl | reachable
  · decide
  · exact ordered.ne_freeRoot_of_reachable reachable

theorem usable (held : heap.Held ref) (ordered : heap.WellFormed free) (safe : heap.Safe) :
    heap.Usable ref := by
  rcases held with rfl | reachable
  · exact ordered.usable_nil
  · exact safe ref reachable

theorem lt_capacity (held : heap.Held ref) (ordered : heap.WellFormed free) :
    ref < heap.capacity := by
  apply held.closed (· < heap.capacity)
  · exact Nat.lt_of_lt_of_le (by decide) ordered.roomy
  · intro root isRoot
    exact Nat.lt_of_lt_of_le (Ref.lt_of_mem_roots (mutatorRoots_subset isRoot)) ordered.roomy
  · intro parent side _
    exact ordered.closed parent side

theorem ne_firstFree (held : heap.Held ref) (ordered : heap.WellFormed free)
    (safe : heap.Safe) (available : heap.firstFree ≠ Ref.nil) :
    ref ≠ heap.firstFree := by
  rcases held with rfl | reachable
  · exact available.symm
  · exact safe.ne_firstFree ordered available reachable

end Held

/-- What mutators hold has the same shape in both heaps: the sentinel and the roots keep
their names, and slots correspond. -/
structure Renaming (first second : Heap) (rename : Ref → Ref) : Prop where
  bijective : Set.BijOn rename {ref | first.Held ref} {ref | second.Held ref}
  nil : rename Ref.nil = Ref.nil
  root : ∀ root ∈ Ref.mutatorRoots, rename root = root
  child : ∀ ref, first.Held ref → ∀ side,
    rename ((first.node ref).child side) = (second.node (rename ref)).child side

/-- Mutators cannot tell the heaps apart. -/
def Isomorphic (first second : Heap) : Prop :=
  ∃ rename, Renaming first second rename

/-- A set of nodes that mutators cannot leave is mapped into another heap. -/
structure Embedded (inside : Ref → Prop) (first second : Heap) (rename : Ref → Ref) :
    Prop where
  atNil : inside Ref.nil
  atRoot : ∀ root ∈ Ref.mutatorRoots, inside root
  stable : ∀ ref side, inside ref → inside ((first.node ref).child side)
  injective : ∀ ref other, inside ref → inside other → rename ref = rename other → ref = other
  nil : rename Ref.nil = Ref.nil
  root : ∀ root ∈ Ref.mutatorRoots, rename root = root
  child : ∀ ref, inside ref → ∀ side,
    rename ((first.node ref).child side) = (second.node (rename ref)).child side

/-- What mutators hold is mapped onto what they hold in the other heap. -/
theorem Embedded.toRenaming
    {inside : Ref → Prop} {first second : Heap} {rename : Ref → Ref} {freeSecond : List Ref}
    (embedded : Embedded inside first second rename)
    (orderedSecond : second.WellFormed freeSecond) :
    Renaming first second rename := by
  have sentinel : ∀ side, (first.node Ref.nil).child side = Ref.nil := by
    intro side
    apply embedded.injective _ _ (embedded.stable _ side embedded.atNil) embedded.atNil
    rw [embedded.child _ embedded.atNil, embedded.nil, orderedSecond.sentinelChild]
  have within : ∀ ref, first.Held ref → inside ref := fun ref held =>
    held.closed inside embedded.atNil embedded.atRoot embedded.stable
  have image : ∀ ref, first.Held ref → inside ref ∧ second.Held (rename ref) := by
    intro ref held
    apply held.closed fun ref => inside ref ∧ second.Held (rename ref)
    · exact ⟨embedded.atNil, .inl embedded.nil⟩
    · intro root isRoot
      refine ⟨embedded.atRoot root isRoot, ?_⟩
      rw [embedded.root root isRoot]
      exact .root isRoot
    · rintro parent side ⟨parentInside, parentHeld⟩
      refine ⟨embedded.stable parent side parentInside, ?_⟩
      rw [embedded.child parent parentInside side]
      exact parentHeld.child orderedSecond.sentinelChild side
  have preimage : ∀ target, second.Held target → ∃ ref, first.Held ref ∧ rename ref = target := by
    intro target held
    apply held.closed fun target => ∃ ref, first.Held ref ∧ rename ref = target
    · exact ⟨Ref.nil, .nil first, embedded.nil⟩
    · intro root isRoot
      exact ⟨root, .root isRoot, embedded.root root isRoot⟩
    · rintro _ side ⟨ref, refHeld, rfl⟩
      exact ⟨(first.node ref).child side, refHeld.child sentinel side,
        embedded.child ref (within ref refHeld) side⟩
  exact
    { bijective :=
        ⟨fun ref held => (image ref held).2,
          fun ref held other otherHeld =>
            embedded.injective ref other (within ref held) (within other otherHeld),
          preimage⟩
      nil := embedded.nil
      root := embedded.root
      child := fun ref held => embedded.child ref (within ref held) }

/-- In fresh heaps mutators hold the sentinel and their roots. -/
theorem fresh_isomorphic
    (capacity : Nat) {other : Nat} (roomy : minCapacity ≤ other) :
    (fresh capacity).Isomorphic (fresh other) := by
  have empty : ∀ size ref side, ref < Ref.freeRoot →
      ((fresh size).node ref).child side = Ref.nil := by
    intro size ref side low
    rw [child_fresh, if_neg (fun linked => Nat.not_le.mpr low linked.2.1)]
  have embedded : Embedded (· < Ref.freeRoot) (fresh capacity) (fresh other) id := by
    constructor
    · decide
    · decide
    · intro ref side low
      rw [empty capacity ref side low]
      decide
    · exact fun ref other _ _ same => same
    · rfl
    · exact fun root _ => rfl
    · intro ref low side
      exact (empty capacity ref side low).trans (empty other ref side low).symm
  exact ⟨id, embedded.toRenaming (fresh_wellFormed roomy)⟩

namespace Renaming

variable {first second firstAfter secondAfter : Heap} {rename : Ref → Ref}
  {free restSecond : List Ref} {ref other : Ref}

theorem held (alike : Renaming first second rename) (held : first.Held ref) :
    second.Held (rename ref) :=
  alike.bijective.mapsTo held

theorem injective (alike : Renaming first second rename) (held : first.Held ref)
    (otherHeld : first.Held other) (same : rename ref = rename other) :
    ref = other :=
  alike.bijective.injOn held otherHeld same

theorem eq_nil_iff (alike : Renaming first second rename) (held : first.Held ref) :
    rename ref = Ref.nil ↔ ref = Ref.nil := by
  constructor
  · intro empty
    exact alike.injective held (.nil first) (empty.trans alike.nil.symm)
  · rintro rfl
    exact alike.nil

/-- Nothing that mutators hold has changed in either heap. -/
theorem frame (alike : Renaming first second rename)
    (sentinel : ∀ side, (first.node Ref.nil).child side = Ref.nil)
    (orderedSecond : secondAfter.WellFormed restSecond)
    (spared : ∀ ref side, first.Held ref →
      (firstAfter.node ref).child side = (first.node ref).child side)
    (sparedSecond : ∀ ref side, second.Held ref →
      (secondAfter.node ref).child side = (second.node ref).child side) :
    Renaming firstAfter secondAfter rename := by
  have embedded : Embedded first.Held firstAfter secondAfter rename := by
    constructor
    · exact .nil first
    · exact fun root isRoot => .root isRoot
    · intro ref side held
      rw [spared ref side held]
      exact held.child sentinel side
    · exact fun ref other held otherHeld => alike.injective held otherHeld
    · exact alike.nil
    · exact alike.root
    · intro ref held side
      rw [spared ref side held, sparedSecond _ side (alike.held held)]
      exact alike.child ref held side
  exact embedded.toRenaming orderedSecond

/-- The same link is made in both heaps. -/
theorem linked {parent target : Ref} {side : Side} (alike : Renaming first second rename)
    (ordered : first.WellFormed free) (orderedSecond : secondAfter.WellFormed restSecond)
    (parentHeld : first.Held parent) (targetHeld : first.Held target)
    (linked : Linked first parent side target firstAfter)
    (linkedSecond : Linked second (rename parent) side (rename target) secondAfter) :
    Renaming firstAfter secondAfter rename := by
  have embedded : Embedded first.Held firstAfter secondAfter rename := by
    constructor
    · exact .nil first
    · exact fun root isRoot => .root isRoot
    · intro ref otherSide held
      rw [linked.child]
      split
      · exact targetHeld
      · exact held.child ordered.sentinelChild otherSide
    · exact fun ref other held otherHeld => alike.injective held otherHeld
    · exact alike.nil
    · exact alike.root
    · intro ref held otherSide
      rw [linked.child, linkedSecond.child]
      by_cases written : ref = parent ∧ otherSide = side
      · rw [if_pos written, if_pos ⟨congrArg rename written.1, written.2⟩]
      · have writtenSecond : ¬ (rename ref = rename parent ∧ otherSide = side) :=
          fun hit => written ⟨alike.injective held parentHeld hit.1, hit.2⟩
        rw [if_neg written, if_neg writtenSecond]
        exact alike.child ref held otherSide
  exact embedded.toRenaming orderedSecond

end Renaming

/-- The slots that mutators find once a node has been allocated below `parent`. -/
theorem child_grown
    {before middle after : Heap} {first parent ref : Ref} {side : Side}
    (popped : Popped before first middle) (linked : Linked middle parent side first after)
    (notHead : ref ≠ Ref.freeRoot) (other : Side) :
    (after.node ref).child other =
      if ref = parent ∧ other = side then first
      else if ref = first then Ref.nil
      else (before.node ref).child other := by
  rw [linked.child, popped.child]
  apply if_congr Iff.rfl rfl
  apply if_congr Iff.rfl rfl
  rw [if_neg (fun head => notHead head.1)]

/-- A node is allocated below the same parent in both heaps. -/
theorem Renaming.grown
    {first second firstMiddle secondMiddle firstAfter secondAfter : Heap} {rename : Ref → Ref}
    {free freeSecond restSecond : List Ref} {parent : Ref} {side : Side}
    (alike : Renaming first second rename)
    (ordered : first.WellFormed free) (orderedSecond : second.WellFormed freeSecond)
    (safe : first.Safe) (safeSecond : second.Safe)
    (orderedSecondAfter : secondAfter.WellFormed restSecond)
    (parentHeld : first.Held parent)
    (available : first.firstFree ≠ Ref.nil) (availableSecond : second.firstFree ≠ Ref.nil)
    (popped : Popped first first.firstFree firstMiddle)
    (linked : Linked firstMiddle parent side first.firstFree firstAfter)
    (poppedSecond : Popped second second.firstFree secondMiddle)
    (linkedSecond :
      Linked secondMiddle (rename parent) side second.firstFree secondAfter) :
    Renaming firstAfter secondAfter
      (Function.update rename first.firstFree second.firstFree) := by
  have fresh : ∀ ref, first.Held ref → ref ≠ first.firstFree := fun ref held =>
    held.ne_firstFree ordered safe available
  have freshSecond : ∀ ref, second.Held ref → ref ≠ second.firstFree := fun ref held =>
    held.ne_firstFree orderedSecond safeSecond availableSecond
  have kept : ∀ ref, first.Held ref →
      Function.update rename first.firstFree second.firstFree ref = rename ref :=
    fun ref held => Function.update_of_ne (fresh ref held) _ _
  have notHead : first.firstFree ≠ Ref.freeRoot := ordered.headUnlinked Ref.freeRoot .right
  have notHeadSecond : second.firstFree ≠ Ref.freeRoot :=
    orderedSecond.headUnlinked Ref.freeRoot .right
  have embedded : Embedded (fun ref => first.Held ref ∨ ref = first.firstFree)
      firstAfter secondAfter (Function.update rename first.firstFree second.firstFree) := by
    constructor
    · exact .inl (.nil first)
    · exact fun root isRoot => .inl (.root isRoot)
    · intro ref other here
      have proper : ref ≠ Ref.freeRoot := by
        rcases here with held | rfl
        · exact held.ne_freeRoot ordered
        · exact notHead
      rw [child_grown popped linked proper]
      split
      · exact .inr rfl
      · split
        · exact .inl (.nil first)
        · rename_i old
          exact .inl ((here.resolve_right old).child ordered.sentinelChild other)
    · rintro ref other (held | rfl) (otherHeld | rfl) same
      · rw [kept ref held, kept other otherHeld] at same
        exact alike.injective held otherHeld same
      · rw [kept ref held, Function.update_self] at same
        exact absurd same (freshSecond _ (alike.held held))
      · rw [kept other otherHeld, Function.update_self] at same
        exact absurd same.symm (freshSecond _ (alike.held otherHeld))
      · rfl
    · rw [kept Ref.nil (.nil first)]
      exact alike.nil
    · intro root isRoot
      rw [kept root (.root isRoot)]
      exact alike.root root isRoot
    · rintro ref (held | rfl) other
      · have heldSecond := alike.held held
        rw [kept ref held, child_grown popped linked (held.ne_freeRoot ordered),
          child_grown poppedSecond linkedSecond (heldSecond.ne_freeRoot orderedSecond),
          if_neg (fresh ref held), if_neg (freshSecond _ heldSecond)]
        by_cases written : ref = parent ∧ other = side
        · rw [if_pos written, if_pos ⟨congrArg rename written.1, written.2⟩,
            Function.update_self]
        · have writtenSecond : ¬ (rename ref = rename parent ∧ other = side) :=
            fun hit => written ⟨alike.injective held parentHeld hit.1, hit.2⟩
          rw [if_neg written, if_neg writtenSecond, kept _ (held.child ordered.sentinelChild other)]
          exact alike.child ref held other
      · -- The new node is empty in both heaps, for it is not its own parent.
        have notParent := (fresh parent parentHeld).symm
        have notParentSecond := (freshSecond _ (alike.held parentHeld)).symm
        have empty : (firstAfter.node first.firstFree).child other = Ref.nil := by
          simp [child_grown popped linked notHead, notParent]
        have emptySecond : (secondAfter.node second.firstFree).child other = Ref.nil := by
          simp [child_grown poppedSecond linkedSecond notHeadSecond, notParentSecond]
        rw [Function.update_self, empty, emptySecond, kept Ref.nil (.nil first)]
        exact alike.nil
  exact embedded.toRenaming orderedSecondAfter

/-- Collector work changes no slot of what mutators hold. -/
theorem Safe.child_worked
    {before after : Heap} {free : List Ref} {ref : Ref} (safe : before.Safe)
    (ordered : before.WellFormed free) (worked : Worked before after) (held : before.Held ref)
    (side : Side) :
    (after.node ref).child side = (before.node ref).child side :=
  worked.child_of_usable (held.usable ordered safe) (held.ne_freeRoot ordered) side

end Heap

end Tricolor
