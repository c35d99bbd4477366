import Tricolor.Proofs.GuardedMoves

/-!
# What the collector makes known

Where the collector stands is its own affair.  Mutators go by what it leaves in the heap: the
phase and the frontier tell the write barrier and the allocator what is asked of them, and
the grey counter tells the collector what they have done in the meantime.  None of the three
ever says anything else than the position and the marks do.
-/

namespace Tricolor

namespace Position

/-- The phase that is published at a position. -/
def phase : Position → Phase
  | .idle => .idle
  | .sweeping _ _ => .marking
  | .reclaiming _ => .reclaiming

/-- The frontier that is published at a position, in a heap of `size` nodes. -/
def frontier (size : Nat) : Position → Nat
  | .reclaiming cursor => cursor
  | _ => size

variable {position : Position}

theorem eq_idle_iff : position = .idle ↔ position.phase = .idle := by
  cases position <;> simp [phase]

theorem eq_sweeping_iff :
    (∃ cursor clean, position = .sweeping cursor clean) ↔ position.phase = .marking := by
  cases position <;> simp [phase]

theorem eq_reclaiming_iff :
    (∃ cursor, position = .reclaiming cursor) ↔ position.phase = .reclaiming := by
  cases position <;> simp [phase]

end Position

namespace Heap.InPhase

variable {heap : Heap} {position : Position}

theorem phase_eq (inPhase : heap.InPhase position) : heap.phase = position.phase := by
  cases position with
  | idle => exact inPhase.phase
  | sweeping cursor clean => exact inPhase.1.phase
  | reclaiming cursor => exact inPhase.phase

theorem frontier_eq (inPhase : heap.InPhase position) :
    heap.frontier = position.frontier heap.capacity := by
  cases position with
  | idle => exact inPhase.frontier
  | sweeping cursor clean => exact inPhase.1.frontier
  | reclaiming cursor => exact inPhase.frontier

end Heap.InPhase

namespace Collection

/-- The grey counter of a heap of `size` nodes is exact and never lowered below zero, so that
the test for rest may go by it alone. -/
structure GreyExact (collection : Collection) (size : Nat) : Prop where
  capacity : collection.heap.capacity = size
  counted : collection.heap.greyCount =
    ((Finset.range size).filter fun ref => (collection.heap.node ref).color = .grey).card
  sentinel : (collection.heap.node Ref.nil).color = .black
  /-- Whatever comes next, under guard the counter is not found empty when it is lowered. -/
  lowered : ∀ move, collection.Possible move →
    Guarded.perform collection move = .ok (collection.perform move)
  settles : ∀ cursor, (collection.tryQuiesce cursor).collector.position = .reclaiming 1 ↔
    ∀ ref < size, (collection.heap.node ref).color ≠ .grey
  resumes : ∀ cursor, (∃ ref < size, (collection.heap.node ref).color = .grey) →
    collection.tryQuiesce cursor =
      ⟨collection.heap, { collection.collector with position := .sweeping cursor size }⟩

/-- In a heap of `size` nodes, what is published and marked is what the position calls for. -/
structure Published (collection : Collection) (size : Nat) : Prop where
  idle : collection.collector.position = .idle ↔ collection.heap.phase = .idle
  marking : (∃ cursor clean, collection.collector.position = .sweeping cursor clean) ↔
    collection.heap.phase = .marking
  reclaiming : (∃ cursor, collection.collector.position = .reclaiming cursor) ↔
    collection.heap.phase = .reclaiming
  frontier : collection.heap.frontier = collection.collector.position.frontier size
  scan : ∀ cursor clean, collection.collector.position = .sweeping cursor clean →
    cursor < size ∧ clean ≤ size
  pass : ∀ cursor, collection.collector.position = .reclaiming cursor →
    1 ≤ cursor ∧ cursor ≤ size
  unmarked : collection.heap.phase = .idle → ∀ ref < size, ref ≠ Ref.nil →
    (collection.heap.node ref).color ≠ .black
  rootsMarked : collection.heap.phase = .marking → ∀ root ∈ Ref.roots,
    (collection.heap.node root).color = .grey ∨ (collection.heap.node root).color = .black
  blackAhead : ∀ cursor, collection.collector.position = .reclaiming cursor →
    ∀ ref, ref ≠ Ref.nil → (collection.heap.node ref).color = .black → cursor ≤ ref
  rootsBlack : ∀ cursor, collection.collector.position = .reclaiming cursor →
    ∀ root ∈ Ref.roots, cursor ≤ root → (collection.heap.node root).color = .black
  rootsSpared : ∀ root ∈ Ref.roots, ¬ collection.heap.Condemned root

namespace Consistent

variable {collection : Collection}

/-- Nothing but the counter decides whether marking comes to rest. -/
theorem settles_iff (consistent : collection.Consistent) (cursor : Nat) :
    (collection.tryQuiesce cursor).collector.position = .reclaiming 1 ↔
      ∀ ref, (collection.heap.node ref).color ≠ .grey := by
  obtain ⟨free, ordered⟩ := consistent.ordered
  obtain ⟨heap, collector⟩ := collection
  rw [← ordered.greyCounted.eq_zero_iff, Collection.tryQuiesce]
  split
  · rename_i pending
    exact ⟨fun settled => Position.noConfusion settled, fun zero => absurd zero pending.ne'⟩
  · rename_i settled
    exact ⟨fun _ => Nat.eq_zero_of_not_pos settled, fun _ => rfl⟩

theorem greyExact (consistent : collection.Consistent) :
    collection.GreyExact collection.heap.capacity := by
  obtain ⟨free, ordered⟩ := consistent.ordered
  refine
    { capacity := rfl
      counted := ordered.greyCounted
      sentinel := by rw [ordered.sentinel]; rfl
      lowered := fun _ possible => Guarded.perform_eq_ok consistent possible
      settles := fun cursor => ?_
      resumes := fun cursor pending => ?_ }
  · rw [consistent.settles_iff cursor]
    constructor
    · exact fun settled ref _ => settled ref
    · exact fun settled ref grey => settled ref (Heap.lt_capacity_of_grey grey) grey
  · obtain ⟨ref, _, grey⟩ := pending
    have positive : 0 < collection.heap.greyCount :=
      Nat.pos_of_ne_zero fun zero => ordered.greyCounted.eq_zero_iff.mp zero ref grey
    exact if_pos positive

/-- Only the pass condemns nodes, and it finds every root that is ahead of it black. -/
theorem root_not_condemned (consistent : collection.Consistent) {root : Ref}
    (isRoot : root ∈ Ref.roots) :
    ¬ collection.heap.Condemned root := by
  rintro ⟨phase, ahead, white⟩
  rw [consistent.inPhase.phase_eq] at phase
  obtain ⟨cursor, position⟩ := Position.eq_reclaiming_iff.mpr phase
  have reclaiming := consistent.reclaiming position
  have black := reclaiming.rootsBlack root isRoot (reclaiming.frontier ▸ ahead)
  exact Color.noConfusion (white.symm.trans black)

theorem published (consistent : collection.Consistent) :
    collection.Published collection.heap.capacity := by
  have phase := consistent.inPhase.phase_eq
  refine
    { idle := by rw [phase]; exact Position.eq_idle_iff
      marking := by rw [phase]; exact Position.eq_sweeping_iff
      reclaiming := by rw [phase]; exact Position.eq_reclaiming_iff
      frontier := consistent.inPhase.frontier_eq
      scan := fun cursor clean position => (consistent.sweeping position).2
      pass := fun cursor position => ?pass
      unmarked := fun phase ref inside proper black => ?unmarked
      rootsMarked := fun marking root isRoot => ?rootsMarked
      blackAhead := fun cursor position => (consistent.reclaiming position).blackAhead
      rootsBlack := fun cursor position => (consistent.reclaiming position).rootsBlack
      rootsSpared := fun root isRoot => consistent.root_not_condemned isRoot }
  case pass =>
    have reclaiming := consistent.reclaiming position
    exact ⟨reclaiming.started, reclaiming.bounded⟩
  case unmarked =>
    have resting := consistent.resting (consistent.phase_eq_idle_iff.mpr phase)
    exact Nat.not_le.mpr inside (resting.unmarked ref proper black)
  case rootsMarked =>
    have notWhite := (consistent.marking marking).rootsMarked root isRoot
    cases color : (collection.heap.node root).color with
    | white => exact absurd color notWhite
    | grey => exact .inl rfl
    | black => exact .inr rfl

end Consistent

end Collection

namespace Session

section Runs

variable {capacity : Nat} {initial : Heap}

theorem Meets.consistent {session : Session} {collection : Collection}
    (met : session.Meets collection) (consistent : session.collection.Consistent) :
    collection.Consistent :=
  met.of_workStable Collection.consistent_workStable consistent

/-- At every moment of every run, whatever is asked for and in whatever order, the grey
counter is the number of grey nodes: it is not taken below zero by anything that may come
next, and marking comes to rest exactly if no node is grey. -/
theorem run_greyExact {requests : List Request} {collection : Collection}
    (built : Heap.ofCapacity capacity = .ok initial)
    (met : ((ofHeap initial).run requests).Meets collection) :
    collection.GreyExact capacity := by
  have consistent := met.consistent (run_consistent built requests)
  have size := met.capacity (run_consistent built requests)
  rw [run_capacity built] at size
  exact size ▸ consistent.greyExact

/-- Two nodes are grey: the free-list root, and a free node that has been shaded after its
release. -/
theorem run_greyExact_shaded_on_free_list :
    let session := (ofHeap (Heap.fresh 6)).run
      [.attach, .allocate, .markRoots, .release 4, .shade 4, .step 3]
    Heap.ofCapacity 6 = .ok (Heap.fresh 6) ∧ session.Meets session.collection ∧
      session.collection.GreyExact 6 := by
  intro session
  have built : Heap.ofCapacity 6 = .ok (Heap.fresh 6) := rfl
  have met : session.Meets session.collection := .outset
  exact ⟨built, met, run_greyExact built met⟩

/-- At every moment of every run, whatever is asked for and in whatever order, the heap
publishes what the position of the collector calls for; and nothing is published as being in
progress once the collector is gone. -/
theorem run_published (requests : List Request)
    (built : Heap.ofCapacity capacity = .ok initial) :
    let session := (ofHeap initial).run requests
    (session.driver = .unattended → session.heap.phase = .idle) ∧
      ∀ collection, session.Meets collection → collection.Published capacity := by
  intro session
  have consistent : session.collection.Consistent := run_consistent built requests
  constructor
  · intro unattended
    apply consistent.phase_eq_idle_iff.mp
    rw [collection, collector, unattended]
  · intro collection met
    have size := met.capacity consistent
    rw [run_capacity built] at size
    exact size ▸ (met.consistent consistent).published

/-- The pass has whitened the first root again, and the second is still black. -/
theorem run_published_between_roots :
    let requests : List Request := [.attach, .allocate, .sweep, .step 1]
    let session := (ofHeap (Heap.fresh 5)).run requests
    Heap.ofCapacity 5 = .ok (Heap.fresh 5) ∧
      (session.driver = .unattended → session.heap.phase = .idle) ∧
      ∀ collection, session.Meets collection → collection.Published 5 := by
  intro requests session
  have built : Heap.ofCapacity 5 = .ok (Heap.fresh 5) := rfl
  exact ⟨built, run_published requests built⟩

end Runs

end Session

end Tricolor
