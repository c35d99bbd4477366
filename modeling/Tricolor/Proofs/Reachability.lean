import Mathlib.Logic.Relation
import Tricolor.Proofs.FreshHeap

/-!
# Reachability through child slots

`Reaches` follows child slots from one node to another, and `ReachableFrom`
starts at any of several roots.  A set of nodes that holds the roots and is
closed under child slots holds everything reachable: all that is proved about
reachable nodes goes through this one fact.
-/

namespace Tricolor

namespace Heap

/-- A slot of `parent` holds `child`. -/
def Edge (heap : Heap) (parent child : Ref) : Prop :=
  ∃ side, (heap.node parent).child side = child

/-- Following child slots leads from one node to the other. -/
def Reaches (heap : Heap) : Ref → Ref → Prop :=
  Relation.ReflTransGen heap.Edge

/-- Following child slots leads from one of the roots to the node. -/
def ReachableFrom (heap : Heap) (roots : List Ref) (ref : Ref) : Prop :=
  ∃ root ∈ roots, heap.Reaches root ref

/-- What mutators can get to. -/
abbrev MutatorReachable (heap : Heap) (ref : Ref) : Prop :=
  heap.ReachableFrom Ref.mutatorRoots ref

theorem edge_child (heap : Heap) (parent : Ref) (side : Side) :
    heap.Edge parent ((heap.node parent).child side) :=
  ⟨side, rfl⟩

namespace Reaches

variable {heap before after : Heap} {start ref : Ref}

theorem refl (heap : Heap) (ref : Ref) : heap.Reaches ref ref :=
  Relation.ReflTransGen.refl

theorem child (reaches : heap.Reaches start ref) (side : Side) :
    heap.Reaches start ((heap.node ref).child side) :=
  Relation.ReflTransGen.tail reaches (heap.edge_child ref side)

theorem trans {middle : Ref} (first : heap.Reaches start middle)
    (second : heap.Reaches middle ref) :
    heap.Reaches start ref :=
  Relation.ReflTransGen.trans first second

theorem closed (reaches : heap.Reaches start ref) (inside : Ref → Prop)
    (stable : ∀ parent side, inside parent → inside ((heap.node parent).child side))
    (holds : inside start) :
    inside ref := by
  induction reaches with
  | refl => exact holds
  | tail _ edge induction =>
      obtain ⟨side, rfl⟩ := edge
      exact stable _ side induction

/-- A path is still there if no slot on it was written. -/
theorem frame (reaches : before.Reaches start ref)
    (same : ∀ parent side, before.Reaches start parent →
      (after.node parent).child side = (before.node parent).child side) :
    after.Reaches start ref := by
  induction reaches with
  | refl => exact refl after start
  | tail path edge induction =>
      obtain ⟨side, rfl⟩ := edge
      rw [← same _ side path]
      exact induction.child side

theorem sameShape (reaches : before.Reaches start ref) (same : SameShape before after) :
    after.Reaches start ref :=
  reaches.frame fun parent side _ => same.child parent side

end Reaches

namespace ReachableFrom

variable {heap before after : Heap} {roots : List Ref} {ref : Ref}

theorem root (isRoot : ref ∈ roots) : heap.ReachableFrom roots ref :=
  ⟨ref, isRoot, Reaches.refl heap ref⟩

theorem child (reachable : heap.ReachableFrom roots ref) (side : Side) :
    heap.ReachableFrom roots ((heap.node ref).child side) := by
  obtain ⟨root, isRoot, reaches⟩ := reachable
  exact ⟨root, isRoot, reaches.child side⟩

theorem trans {target : Ref} (reachable : heap.ReachableFrom roots ref)
    (reaches : heap.Reaches ref target) :
    heap.ReachableFrom roots target := by
  obtain ⟨root, isRoot, path⟩ := reachable
  exact ⟨root, isRoot, path.trans reaches⟩

theorem mono {more : List Ref} (subset : roots ⊆ more)
    (reachable : heap.ReachableFrom roots ref) :
    heap.ReachableFrom more ref := by
  obtain ⟨root, isRoot, path⟩ := reachable
  exact ⟨root, subset isRoot, path⟩

theorem closed (reachable : heap.ReachableFrom roots ref) (inside : Ref → Prop)
    (stable : ∀ parent side, inside parent → inside ((heap.node parent).child side))
    (holds : ∀ root ∈ roots, inside root) :
    inside ref := by
  obtain ⟨root, isRoot, path⟩ := reachable
  exact path.closed inside stable (holds root isRoot)

/-- Nothing becomes reachable as long as no slot of a reachable node is
written. -/
theorem of_spared (reachable : after.ReachableFrom roots ref)
    (spared : ∀ parent side, before.ReachableFrom roots parent →
      (after.node parent).child side = (before.node parent).child side) :
    before.ReachableFrom roots ref := by
  refine reachable.closed (before.ReachableFrom roots) (fun parent side inside => ?_)
    fun root isRoot => .root isRoot
  rw [spared parent side inside]
  exact inside.child side

end ReachableFrom

theorem mutatorRoots_subset : Ref.mutatorRoots ⊆ Ref.roots := by
  decide

/-- The head of the free list is out of reach of mutators: they do not start
from it, and no slot leads to it. -/
theorem Shaped.ne_freeRoot_of_reachable
    {heap : Heap} {free : List Ref} (shaped : heap.Shaped free) {ref : Ref}
    (reachable : heap.MutatorReachable ref) :
    ref ≠ Ref.freeRoot :=
  reachable.closed (· ≠ Ref.freeRoot)
    (fun parent side _ => shaped.headUnlinked parent side) (by decide)

/-- From the sentinel there is no way out. -/
theorem WellFormed.eq_nil_of_reaches
    {heap : Heap} {free : List Ref} (ordered : heap.WellFormed free) {ref : Ref}
    (reaches : heap.Reaches Ref.nil ref) :
    ref = Ref.nil := by
  refine reaches.closed (· = Ref.nil) (fun parent side here => ?_) rfl
  rw [here, ordered.sentinelChild]

theorem Chain.reaches
    {heap : Heap} {start : Ref} {chain : List Ref} (linked : heap.Chain start chain) :
    ∀ member ∈ chain, heap.Reaches start member := by
  induction linked with
  | nil => simp
  | @cons ref rest _ _ induction =>
      intro member inChain
      rcases List.mem_cons.mp inChain with rfl | inRest
      · exact .refl heap member
      · have next : heap.Reaches ref (heap.node ref).right :=
          (Reaches.refl heap ref).child .right
        exact next.trans (induction member inRest)

/-- The free list hangs off a marking root, so its members are traced. -/
theorem Shaped.reachable_of_free
    {heap : Heap} {free : List Ref} (shaped : heap.Shaped free) {ref : Ref}
    (member : ref ∈ free) :
    heap.ReachableFrom Ref.roots ref := by
  have head : heap.Reaches Ref.freeRoot heap.firstFree :=
    (Reaches.refl heap Ref.freeRoot).child .right
  exact ⟨Ref.freeRoot, by decide, head.trans (shaped.chain.reaches ref member)⟩

end Heap

end Tricolor
