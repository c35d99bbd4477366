import Mathlib.Order.Interval.Finset.Nat
import Tricolor.Proofs.FreshHeap
import Tricolor.Proofs.HeapChecking
import Tricolor.Proofs.Moves

/-!
# The free list keeps exact accounts

Two operations put nodes on the free list and two take nodes off it, and the
number of free nodes is kept apart from the list.  `Heap.Accounted` says that the
list, the use flags and the counter nevertheless tell the same story, so that a
checker can only ever complain about a link to a free node.
-/

namespace Tricolor

namespace Heap

/-- The nodes in use; the sentinel does not count. -/
def liveNodes (heap : Heap) : Finset Ref :=
  (Finset.Ico 1 heap.capacity).filter fun ref => (heap.node ref).live = true

/-- A heap of `size` nodes whose free list holds the free nodes and no others, and
whose counters are exact. -/
structure Accounted (heap : Heap) (size : Nat) : Prop where
  capacity : heap.capacity = size
  chain : heap.Chain heap.firstFree heap.freeList
  distinct : heap.freeList.Nodup
  mem_iff : ∀ ref, ref ∈ heap.freeList ↔
    1 ≤ ref ∧ ref < size ∧ (heap.node ref).live = false
  rooted : ∀ ref ∈ heap.freeList, minCapacity ≤ ref
  emptyLeft : ∀ ref ∈ heap.freeList, (heap.node ref).left = Ref.nil
  freeCount : heap.freeCount = heap.freeList.length
  liveCount : heap.liveCount = heap.liveNodes.card
  total : heap.freeCount + heap.liveCount = size - 1
  listed : ∀ ref, 1 ≤ ref → ref < size →
    ∃ node, heap.get ref = .ok node ∧ heap.freeList.contains ref = !node.live
  sentinel : heap.node Ref.nil = Node.sentinel
  violation : ∀ violation, heap.violation? = some violation →
    ∃ ref side child, violation = .danglingChild ref side child ∧
      heap.Dangling ref side child
  fault : ∀ fault, heap.checkInvariants = .error fault →
    ∃ ref side child,
      fault = .invariantViolated (Violation.danglingChild ref side child).message ∧
        heap.Dangling ref side child

theorem get_of_lt {heap : Heap} {ref : Ref} (inside : ref < heap.capacity) :
    heap.get ref = .ok (heap.node ref) := by
  rw [get, checkRange, if_pos inside]
  rfl

namespace WellFormed

variable {heap : Heap} {free : List Ref}

/-- The nodes other than the sentinel are free or live, but not both. -/
theorem card_liveNodes (ordered : heap.WellFormed free) :
    free.length + heap.liveNodes.card = heap.capacity - 1 := by
  have freeNodes : (Finset.Ico 1 heap.capacity).filter
      (fun ref => ¬ (heap.node ref).live = true) = free.toFinset := by
    ext ref
    rw [Finset.mem_filter, Finset.mem_Ico, List.mem_toFinset, Bool.not_eq_true,
      ← ordered.mem_iff]
    apply and_iff_right_of_imp
    intro member
    exact ⟨Nat.pos_of_ne_zero (ne_nil_of_rooted (ordered.rootFree ref member)),
      ordered.lt_capacity member⟩
  have split := Finset.card_filter_add_card_filter_not (s := Finset.Ico 1 heap.capacity)
    fun ref => (heap.node ref).live = true
  rw [freeNodes, List.toFinset_card_of_nodup ordered.distinct, Nat.card_Ico] at split
  exact (Nat.add_comm _ _).trans split

theorem liveCount_eq (ordered : heap.WellFormed free) :
    heap.liveCount = heap.liveNodes.card := by
  have split := ordered.card_liveNodes
  rw [liveCount, ordered.counted]
  omega

theorem fault_of_checkInvariants (ordered : heap.WellFormed free) {fault : Fault}
    (failed : heap.checkInvariants = .error fault) :
    ∃ ref side child,
      fault = .invariantViolated (Violation.danglingChild ref side child).message ∧
        heap.Dangling ref side child := by
  unfold checkInvariants at failed
  split at failed
  · rename_i violation found
    obtain ⟨ref, side, child, rfl, dangling⟩ := ordered.dangling_of_violation? found
    cases failed
    exact ⟨ref, side, child, rfl, dangling⟩
  · cases failed

theorem accounted (ordered : heap.WellFormed free) : heap.Accounted heap.capacity := by
  have listing := ordered.freeList_eq
  refine
    { capacity := rfl
      chain := listing ▸ ordered.chain
      distinct := listing ▸ ordered.distinct
      mem_iff := fun ref => ?_
      rooted := listing ▸ ordered.rootFree
      emptyLeft := listing ▸ ordered.emptyLeft
      freeCount := listing ▸ ordered.counted
      liveCount := ordered.liveCount_eq
      total := ?_
      listed := fun ref _ inside => ⟨heap.node ref, get_of_lt inside, ?_⟩
      sentinel := ordered.sentinel
      violation := fun _ found => ordered.dangling_of_violation? found
      fault := fun _ failed => ordered.fault_of_checkInvariants failed }
  · rw [listing, ← ordered.mem_iff]
    constructor
    · intro member
      exact ⟨Nat.pos_of_ne_zero (ne_nil_of_rooted (ordered.rootFree ref member)),
        ordered.lt_capacity member, member⟩
    · exact fun free => free.2.2
  · rw [ordered.liveCount_eq, ordered.counted, ordered.card_liveNodes]
  · rw [listing, Bool.eq_iff_iff, List.contains_iff_mem, ordered.mem_iff]
    simp

end WellFormed

end Heap

namespace Session

theorem Meets.capacity
    {session : Session} {collection : Collection} (met : session.Meets collection)
    (consistent : session.collection.Consistent) :
    collection.heap.capacity = session.heap.capacity := by
  have stable : Collection.WorkStable fun collection =>
      collection.Consistent ∧ collection.heap.capacity = session.heap.capacity :=
    Collection.workStable_of_worked fun _ worked same => worked.capacity.trans same
  exact (met.of_workStable stable ⟨consistent, rfl⟩).2

/-- At every moment of every run, whatever is asked for and in whatever order, the
accounts of the free list are exact. -/
theorem run_accounted
    {capacity : Nat} {initial : Heap} {requests : List Request} {collection : Collection}
    (built : Heap.ofCapacity capacity = .ok initial)
    (met : ((ofHeap initial).run requests).Meets collection) :
    collection.heap.Accounted capacity := by
  have consistent : collection.Consistent :=
    met.of_workStable Collection.consistent_workStable (run_consistent built requests)
  obtain ⟨free, ordered⟩ := consistent.ordered
  have size := met.capacity (run_consistent built requests)
  rw [run_capacity built] at size
  exact size ▸ ordered.accounted

/-- The pass has released a node that another piece of garbage leads to, and the
collector is detached before that one's turn comes.  The link is all that the
checker finds. -/
theorem run_accounted_after_detaching :
    let requests : List Request :=
      [.attach, .allocate, .allocate, .setChild 5 .left 4, .sweep, .step 4, .detach,
        .allocate, .shade 5, .release 4]
    let session := (ofHeap (Heap.fresh 6)).run requests
    Heap.ofCapacity 6 = .ok (Heap.fresh 6) ∧ session.Meets session.collection ∧
      session.collection.heap.Accounted 6 := by
  intro requests session
  have built : Heap.ofCapacity 6 = .ok (Heap.fresh 6) := rfl
  have met : session.Meets session.collection := .outset
  exact ⟨built, met, run_accounted built met⟩

end Session

end Tricolor
