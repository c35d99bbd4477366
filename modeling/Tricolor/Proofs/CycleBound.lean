import Mathlib.Algebra.Order.BigOperators.Group.Finset
import Mathlib.Order.Interval.Finset.Nat
import Mathlib.Tactic.Ring
import Tricolor.Proofs.SteppedCycles
import Tricolor.Proofs.Tracing

/-!
# The length of a cycle under interference

Mutators can prolong a cycle only so far.  In one cycle a node is blackened at most
twice, for the only way back from black leads over the free list, and from there the
node returns grey and in use.  Between two blackenings lie at most a clean round, a
test for rest that fails, and one more round, which meets the grey node that made
the test fail.
-/

namespace Tricolor

/-- How often the node may still be blackened while marking lasts.  A free node has
one chance more than a node in use, since it may be handed out. -/
def Node.chances (node : Node) : Nat :=
  match node.color, node.live with
  | .white, _ => 2
  | .grey, false => 2
  | .grey, true => 1
  | .black, false => 1
  | .black, true => 0

namespace Node

variable {before after node : Node}

theorem chances_le_two (node : Node) : node.chances ≤ 2 := by
  unfold chances
  split <;> simp

theorem chances_of_white (white : node.color = .white) : node.chances = 2 := by
  simp [chances, white]

theorem one_le_chances_of_dead (dead : node.live = false) : 1 ≤ node.chances := by
  cases color : node.color <;> simp [chances, color, dead]

/-- A node that is handed out while marking lasts. -/
theorem chances_of_fresh (grey : node.color = .grey) (live : node.live = true) :
    node.chances = 1 := by
  simp [chances, grey, live]

theorem chances_of_blackened (grey : before.color = .grey) (black : after.color = .black)
    (live : after.live = before.live) :
    after.chances + 1 = before.chances := by
  cases used : before.live <;> simp [chances, grey, black, live, used]

end Node

namespace Heap

/-- How often the node may still be blackened in the cycle. -/
def chances (heap : Heap) (ref : Ref) : Nat :=
  match heap.phase with
  | .idle => 2
  | .marking => (heap.node ref).chances
  | .reclaiming => 0

/-- How many nodes may still be blackened in the cycle; the sentinel does not count. -/
def chancesLeft (heap : Heap) : Nat :=
  ∑ ref ∈ Finset.Ico 1 heap.capacity, heap.chances ref

/-- One of the next `clean` nodes from the cursor on is grey. -/
def GreyWithin (heap : Heap) (cursor clean : Nat) : Prop :=
  ∃ offset, offset < clean ∧
    (heap.node ((cursor + offset) % heap.capacity)).color = .grey

instance decidableGreyWithin (heap : Heap) (cursor clean : Nat) :
    Decidable (heap.GreyWithin cursor clean) :=
  inferInstanceAs (Decidable (∃ offset, offset < clean ∧ _))

/-- A bound on the units of work until a node is blackened or marking comes to rest. -/
def roundLeft (heap : Heap) (cursor clean : Nat) : Nat :=
  if heap.GreyWithin cursor clean then clean else clean + heap.capacity + 1

section Chances

variable {before after heap : Heap} {free : List Ref} {request : Request} {ref first : Ref}

theorem chances_le_two (heap : Heap) (ref : Ref) : heap.chances ref ≤ 2 := by
  unfold chances
  split
  · exact Nat.le_refl 2
  · exact Node.chances_le_two _
  · exact Nat.zero_le 2

theorem chances_of_marking (marking : heap.phase = .marking) (ref : Ref) :
    heap.chances ref = (heap.node ref).chances := by
  rw [chances, marking]

theorem chances_of_reclaiming (reclaiming : heap.phase = .reclaiming) (ref : Ref) :
    heap.chances ref = 0 := by
  rw [chances, reclaiming]

theorem chancesLeft_le (heap : Heap) : heap.chancesLeft ≤ 2 * (heap.capacity - 1) := by
  calc
    heap.chancesLeft ≤ ∑ _ref ∈ Finset.Ico 1 heap.capacity, 2 :=
      Finset.sum_le_sum fun ref _ => heap.chances_le_two ref
    _ = (Finset.Ico 1 heap.capacity).card * 2 := Finset.sum_const_nat fun _ _ => rfl
    _ = 2 * (heap.capacity - 1) := by rw [Nat.card_Ico, Nat.mul_comm]

theorem chancesLeft_mono (capacity : after.capacity = before.capacity)
    (fewer : ∀ ref, after.chances ref ≤ before.chances ref) :
    after.chancesLeft ≤ before.chancesLeft := by
  unfold chancesLeft
  rw [capacity]
  exact Finset.sum_le_sum fun ref _ => fewer ref

theorem KeptOrShaded.grey (kept : KeptOrShaded before after ref)
    (grey : (before.node ref).color = .grey) :
    (after.node ref).color = .grey := by
  rcases kept with same | ⟨white, _⟩
  · exact same.trans grey
  · exact Color.noConfusion (white.symm.trans grey)

theorem KeptOrShaded.chances_le (kept : KeptOrShaded before after ref)
    (live : (after.node ref).live = (before.node ref).live) :
    (after.node ref).chances ≤ (before.node ref).chances := by
  rcases kept with same | ⟨white, _⟩
  · simp [Node.chances, same, live]
  · rw [Node.chances_of_white white]
    exact Node.chances_le_two _

theorem Popped.firstGrey (popped : Popped before first after)
    (marking : before.phase = .marking) :
    (after.node first).color = .grey := by
  rw [popped.firstColor, if_pos (.inl marking)]

theorem Popped.grey (popped : Popped before first after) (marking : before.phase = .marking)
    (grey : (before.node ref).color = .grey) :
    (after.node ref).color = .grey := by
  by_cases hit : ref = first
  · exact hit ▸ popped.firstGrey marking
  · exact (popped.color ref hit).grey grey

theorem Popped.chances_le (popped : Popped before first after)
    (marking : before.phase = .marking) (dead : (before.node first).live = false) :
    (after.node ref).chances ≤ (before.node ref).chances := by
  by_cases hit : ref = first
  · subst hit
    have live : (after.node ref).live = true := by rw [popped.live, if_pos rfl]
    rw [Node.chances_of_fresh (popped.firstGrey marking) live]
    exact Node.one_le_chances_of_dead dead
  · apply (popped.color ref hit).chances_le
    rw [popped.live, if_neg hit]

namespace Performed

/-- While marking lasts no mutator takes back a chance that has been used up. -/
theorem chances_le (performed : Performed before request after)
    (ordered : before.WellFormed free) (marking : before.phase = .marking) (ref : Ref) :
    (after.node ref).chances ≤ (before.node ref).chances := by
  cases performed with
  | refused => exact Nat.le_refl _
  | allocated available popped =>
      exact popped.chances_le marking (ordered.firstFree_dead available)
  | @released released barred _ releasable shading guarded pushed =>
      by_cases hit : ref = released
      · subst hit
        rw [Node.chances_of_white releasable.white]
        exact Node.chances_le_two _
      · have live : (after.node ref).live = (barred.node ref).live := by
          rw [pushed.live, if_neg hit]
        have kept : KeptOrShaded barred after ref := .inl (pushed.color ref)
        exact (kept.chances_le live).trans ((shading.color ref).chances_le (shading.live ref))
  | linked linkable linked => exact (linked.color ref).chances_le (linked.live ref)
  | grown available usable popped linkable linked =>
      apply ((linked.color ref).chances_le (linked.live ref)).trans
      exact popped.chances_le marking (ordered.firstFree_dead available)
  | shaded inside shading => exact (shading.color ref).chances_le (shading.live ref)

/-- While marking lasts no mutator erases a grey mark. -/
theorem grey (performed : Performed before request after) (marking : before.phase = .marking)
    (grey : (before.node ref).color = .grey) :
    (after.node ref).color = .grey := by
  cases performed with
  | refused => exact grey
  | allocated available popped => exact popped.grey marking grey
  | released releasable shading guarded pushed =>
      rw [pushed.color]
      exact (shading.color ref).grey grey
  | linked linkable linked => exact (linked.color ref).grey grey
  | grown available usable popped linkable linked =>
      exact (linked.color ref).grey (popped.grey marking grey)
  | shaded inside shading => exact (shading.color ref).grey grey

end Performed

/-- The node that is scanned has used up a chance. -/
theorem Scanned.chances_succ {cursor : Ref} (scanned : Scanned before cursor after) :
    (after.node cursor).chances + 1 = (before.node cursor).chances :=
  Node.chances_of_blackened scanned.grey scanned.black (scanned.live cursor)

theorem Scanned.chances_le {cursor : Ref} (scanned : Scanned before cursor after) (ref : Ref) :
    (after.node ref).chances ≤ (before.node ref).chances := by
  by_cases hit : ref = cursor
  · subst hit
    exact Nat.le_of_succ_le (Nat.le_of_eq scanned.chances_succ)
  · exact (scanned.color ref hit).chances_le (scanned.live ref)

theorem Scanned.chancesLeft_lt {cursor : Ref} (scanned : Scanned before cursor after)
    (ordered : before.WellFormed free) (marking : before.phase = .marking) :
    after.chancesLeft < before.chancesLeft := by
  have inside : cursor < before.capacity := lt_capacity_of_grey scanned.grey
  have proper : 1 ≤ cursor := Nat.pos_of_ne_zero (ordered.ne_nil_of_grey scanned.grey)
  have used : after.chances cursor < before.chances cursor := by
    rw [chances_of_marking marking, chances_of_marking (scanned.phase.trans marking)]
    exact Nat.le_of_eq scanned.chances_succ
  unfold chancesLeft
  rw [scanned.capacity]
  apply Finset.sum_lt_sum
  · intro ref _
    rw [chances_of_marking marking, chances_of_marking (scanned.phase.trans marking)]
    exact scanned.chances_le ref
  · exact ⟨cursor, Finset.mem_Ico.mpr ⟨proper, inside⟩, used⟩

end Chances

namespace GreyWithin

variable {before after heap : Heap} {cursor clean : Nat}

/-- A whole round meets every grey node. -/
theorem of_round {ref : Ref} (inside : cursor < heap.capacity)
    (grey : (heap.node ref).color = .grey) :
    heap.GreyWithin cursor heap.capacity := by
  obtain ⟨offset, bounded, rfl⟩ := windowed_of_round inside ref grey
  exact ⟨offset, bounded, grey⟩

theorem mono (within : before.GreyWithin cursor clean)
    (capacity : after.capacity = before.capacity)
    (grey : ∀ ref, (before.node ref).color = .grey → (after.node ref).color = .grey) :
    after.GreyWithin cursor clean := by
  obtain ⟨offset, bounded, found⟩ := within
  refine ⟨offset, bounded, ?_⟩
  rw [capacity]
  exact grey _ found

theorem advance (within : heap.GreyWithin cursor clean) (inside : cursor < heap.capacity)
    (unmarked : (heap.node cursor).color ≠ .grey) :
    heap.GreyWithin ((cursor + 1) % heap.capacity) (clean - 1) := by
  obtain ⟨offset, bounded, found⟩ := within
  cases offset with
  | zero =>
      rw [Nat.add_zero, Nat.mod_eq_of_lt inside] at found
      exact absurd found unmarked
  | succ offset =>
      refine ⟨offset, by omega, ?_⟩
      rw [Nat.mod_add_mod, Nat.add_assoc, Nat.add_comm 1 offset]
      exact found

end GreyWithin

section Rounds

variable {before after heap : Heap} {cursor clean : Nat}

theorem roundLeft_le (heap : Heap) (cursor clean : Nat) :
    heap.roundLeft cursor clean ≤ clean + heap.capacity + 1 := by
  unfold roundLeft
  split
  · omega
  · exact Nat.le_refl _

theorem le_roundLeft (heap : Heap) (cursor clean : Nat) :
    clean ≤ heap.roundLeft cursor clean := by
  unfold roundLeft
  split
  · exact Nat.le_refl clean
  · omega

theorem roundLeft_mono (capacity : after.capacity = before.capacity)
    (grey : ∀ ref, (before.node ref).color = .grey → (after.node ref).color = .grey) :
    after.roundLeft cursor clean ≤ before.roundLeft cursor clean := by
  by_cases within : before.GreyWithin cursor clean
  · have still : after.GreyWithin cursor clean := within.mono capacity grey
    rw [roundLeft, roundLeft, if_pos within, if_pos still]
  · have bounded := after.roundLeft_le cursor clean
    rw [capacity] at bounded
    rwa [roundLeft.eq_def before, if_neg within]

theorem roundLeft_advance (inside : cursor < heap.capacity) (pending : clean ≠ 0)
    (unmarked : (heap.node cursor).color ≠ .grey) :
    heap.roundLeft ((cursor + 1) % heap.capacity) (clean - 1) <
      heap.roundLeft cursor clean := by
  by_cases within : heap.GreyWithin cursor clean
  · rw [roundLeft, roundLeft, if_pos within, if_pos (within.advance inside unmarked)]
    omega
  · have bounded := heap.roundLeft_le ((cursor + 1) % heap.capacity) (clean - 1)
    rw [roundLeft.eq_def heap cursor, if_neg within]
    omega

/-- At the end of a clean round that leaves something grey one more round is due, and
that one meets a grey node. -/
theorem roundLeft_resume {ref : Ref} (inside : cursor < heap.capacity)
    (grey : (heap.node ref).color = .grey) :
    heap.roundLeft cursor heap.capacity < heap.roundLeft cursor 0 := by
  have within := GreyWithin.of_round inside grey
  have expired : ¬ heap.GreyWithin cursor 0 := by
    rintro ⟨offset, bounded, _⟩
    exact Nat.not_lt_zero offset bounded
  rw [roundLeft, roundLeft, if_pos within, if_neg expired]
  omega

end Rounds

end Heap

namespace Collection

/-- A bound on the units of work left to the cycle, whatever mutators do. -/
def workLeft (collection : Collection) : Nat :=
  let capacity := collection.heap.capacity
  match collection.collector.position with
  | .idle => 4 * capacity * capacity - 1
  | .sweeping cursor clean =>
      collection.heap.chancesLeft * (2 * capacity + 1) +
        collection.heap.roundLeft cursor clean
  | .reclaiming cursor => capacity - cursor

/-- The nodes that are blackened, in this order. -/
def blackened : Collection → List Move → List Ref :=
  noted fun _ before after => before.color != .black && after.color == .black

/-- The next visit finds after a clean round that something is grey. -/
def TestFails (collection : Collection) : Prop :=
  ∃ cursor, collection.collector.position = .sweeping cursor 0 ∧
    collection.visit.heap.phase = .marking

section WorkLeft

variable {collection : Collection} {cursor clean : Nat}

theorem workLeft_of_idle (idle : collection.collector.position = .idle) :
    collection.workLeft = 4 * collection.heap.capacity * collection.heap.capacity - 1 := by
  rw [workLeft, idle]

theorem workLeft_of_sweeping
    (position : collection.collector.position = .sweeping cursor clean) :
    collection.workLeft = collection.heap.chancesLeft * (2 * collection.heap.capacity + 1) +
      collection.heap.roundLeft cursor clean := by
  rw [workLeft, position]

theorem workLeft_of_reclaiming
    (position : collection.collector.position = .reclaiming cursor) :
    collection.workLeft = collection.heap.capacity - cursor := by
  rw [workLeft, position]

end WorkLeft

namespace Consistent

variable {collection start : Collection} {move : Move} {moves : List Move} {ref : Ref}

/-- A mutator adds no work to a cycle. -/
theorem workLeft_mutate (consistent : collection.Consistent) (request : Request) :
    (collection.perform (.mutate request)).workLeft ≤ collection.workLeft := by
  obtain ⟨free, ordered⟩ := consistent.ordered
  have performed := ordered.performed_change request
  have capacity := (performed.kept ordered).1.capacity
  obtain ⟨heap, collector⟩ := collection
  change Heap.Performed heap request (request.change heap) at performed
  change workLeft ⟨request.change heap, collector⟩ ≤ _
  generalize request.change heap = after at *
  cases position : collector.position with
  | idle =>
      rw [workLeft_of_idle position, workLeft_of_idle position, capacity]
  | sweeping cursor clean =>
      have phase := (consistent.sweeping position).1.phase
      have sameCycle := (performed.kept ordered).1.phase
      rw [workLeft_of_sweeping position, workLeft_of_sweeping position, capacity]
      apply Nat.add_le_add
      · apply Nat.mul_le_mul_right
        apply Heap.chancesLeft_mono capacity
        intro ref
        rw [Heap.chances_of_marking phase, Heap.chances_of_marking (sameCycle.trans phase)]
        exact performed.chances_le ordered phase ref
      · exact Heap.roundLeft_mono capacity fun ref => performed.grey phase
  | reclaiming cursor =>
      rw [workLeft_of_reclaiming position, workLeft_of_reclaiming position, capacity]

/-- The bound of a cycle that has not started covers all the work there can be. -/
theorem workLeft_markRoots (consistent : collection.Consistent)
    (idle : collection.collector.position = .idle) :
    collection.markRoots.workLeft ≤ collection.workLeft := by
  obtain ⟨free, ordered⟩ := consistent.ordered
  have started := started_markRoots idle
  have chances := collection.markRoots.heap.chancesLeft_le
  have round := collection.markRoots.heap.roundLeft_le 0 collection.heap.capacity
  rw [workLeft_of_idle idle, workLeft_of_sweeping started.next]
  rw [started.capacity] at chances round ⊢
  have roomy : 1 ≤ collection.heap.capacity := Nat.le_trans (by decide) ordered.roomy
  obtain ⟨spare, size⟩ := Nat.exists_eq_add_of_le roomy
  rw [size] at chances round ⊢
  have product := Nat.mul_le_mul_right (2 * (1 + spare) + 1) chances
  have total : 2 * (1 + spare - 1) * (2 * (1 + spare) + 1) + (2 * (1 + spare) + 1) =
      4 * (1 + spare) * (1 + spare) - 1 := by
    rw [Nat.add_sub_cancel_left]
    apply Nat.eq_sub_of_add_eq
    ring
  omega

/-- Every visit takes a unit off the work left. -/
theorem workLeft_visit (consistent : collection.Consistent)
    (active : collection.collector.position ≠ .idle) (pending : collection.isSpent = false) :
    collection.visit.workLeft < collection.workLeft := by
  obtain ⟨free, ordered⟩ := consistent.ordered
  cases consistent.visited active pending with
  | @scanned cursor clean position pendingRound scanned next =>
      -- The node that is blackened pays for the two rounds that may follow.
      have phase := (consistent.sweeping position).1.phase
      have fewer := scanned.chancesLeft_lt ordered phase
      have paid := Nat.mul_le_mul_right (2 * collection.heap.capacity + 1) fewer
      have due := collection.heap.le_roundLeft cursor clean
      have round := collection.visit.heap.roundLeft_le
        ((cursor + 1) % collection.heap.capacity) collection.heap.capacity
      rw [workLeft_of_sweeping position, workLeft_of_sweeping next]
      rw [scanned.capacity] at round ⊢
      rw [Nat.succ_mul] at paid
      omega
  | passed position pendingRound unmarked same next =>
      have inside := (consistent.sweeping position).2.1
      rw [workLeft_of_sweeping position, workLeft_of_sweeping next, same]
      apply Nat.add_lt_add_left
      exact Heap.roundLeft_advance inside pendingRound unmarked
  | resumed position grey same next =>
      obtain ⟨ref, grey⟩ := grey
      have inside := (consistent.sweeping position).2.1
      rw [workLeft_of_sweeping position, workLeft_of_sweeping next, same]
      apply Nat.add_lt_add_left
      exact Heap.roundLeft_resume inside grey
  | @settled cursor position settled same phase next =>
      have unmarked : ¬ collection.heap.GreyWithin cursor 0 := by
        rintro ⟨offset, _, grey⟩
        exact settled _ grey
      rw [workLeft_of_sweeping position, workLeft_of_reclaiming next, same.capacity,
        Heap.roundLeft, if_neg unmarked]
      omega
  | freed position inside garbage pushed next =>
      have capacity : collection.visit.heap.capacity = collection.heap.capacity :=
        pushed.capacity
      rw [workLeft_of_reclaiming position, workLeft_of_reclaiming next, capacity]
      omega
  | spared position inside spared whitened next =>
      have capacity : collection.visit.heap.capacity = collection.heap.capacity :=
        whitened ▸ (Heap.whiten_moveFrontier_sameShape ..).capacity
      rw [workLeft_of_reclaiming position, workLeft_of_reclaiming next, capacity]
      omega

/-- As long as a cycle is unfinished its visits are paid for. -/
theorem count_visit_add_workLeft (consistent : start.Consistent) (legal : start.Legal moves)
    (interim : ∀ move ∈ moves, move.Interim) :
    moves.count .visit + (start.replay moves).workLeft ≤ start.workLeft := by
  induction moves generalizing start with
  | nil => simp
  | cons move moves induction =>
      obtain ⟨possible, rest⟩ := legal
      have later := induction (consistent.perform possible) rest
        fun move member => interim move (List.mem_cons_of_mem _ member)
      have now := interim move List.mem_cons_self
      rw [replay_cons]
      cases move with
      | mutate request =>
          rw [List.count_cons_of_ne (by simp)]
          exact later.trans (consistent.workLeft_mutate request)
      | markRoots =>
          rw [List.count_cons_of_ne (by simp)]
          exact later.trans (consistent.workLeft_markRoots possible)
      | visit =>
          have lower := consistent.workLeft_visit possible.1 possible.2
          change _ + (start.visit.replay moves).workLeft ≤ start.visit.workLeft at later
          change _ + (start.visit.replay moves).workLeft ≤ _
          rw [List.count_cons_self]
          omega
      | _ => exact now.elim

/-- A move that blackens a node uses up one of the node's chances. -/
theorem chances_perform (consistent : collection.Consistent)
    (possible : collection.Possible move) (interim : move.Interim) (ref : Ref) :
    (collection.perform move).heap.chances ref ≤ collection.heap.chances ref ∧
      ((collection.heap.node ref).color ≠ .black →
        ((collection.perform move).heap.node ref).color = .black →
        (collection.perform move).heap.chances ref < collection.heap.chances ref) := by
  obtain ⟨free, ordered⟩ := consistent.ordered
  cases move with
  | mutate request =>
      have performed := ordered.performed_change request
      have kept := (performed.kept ordered).1
      rw [Collection.perform]
      refine ⟨?_, fun notBlack black => absurd (kept.black ref black) notBlack⟩
      rw [Heap.chances, Heap.chances, kept.phase]
      cases phase : collection.heap.phase with
      | idle => exact Nat.le_refl 2
      | marking => exact performed.chances_le ordered phase ref
      | reclaiming => exact Nat.le_refl 0
  | markRoots =>
      have resting := consistent.resting possible
      have started := started_markRoots possible
      rw [Collection.perform]
      constructor
      · rw [Heap.chances.eq_def collection.heap, resting.phase]
        exact Heap.chances_le_two _ ref
      · intro notBlack black
        rw [started.color] at black
        split at black
        · cases black
        · exact absurd black notBlack
  | visit =>
      rw [Collection.perform]
      cases consistent.visited possible.1 possible.2 with
      | @scanned cursor clean position pending scanned next =>
          have phase := (consistent.sweeping position).1.phase
          rw [Heap.chances_of_marking phase,
            Heap.chances_of_marking (scanned.phase.trans phase)]
          refine ⟨scanned.chances_le ref, fun notBlack black => ?_⟩
          have hit : ref = cursor := by
            apply Decidable.by_contra
            intro different
            exact notBlack ((scanned.color ref different).black_iff.mp black)
          subst hit
          exact Nat.lt_of_succ_le (Nat.le_of_eq scanned.chances_succ)
      | passed position pending unmarked same next =>
          rw [same]
          exact ⟨Nat.le_refl _, fun notBlack black => absurd black notBlack⟩
      | resumed position grey same next =>
          rw [same]
          exact ⟨Nat.le_refl _, fun notBlack black => absurd black notBlack⟩
      | settled position settled same phase next =>
          rw [Heap.chances_of_reclaiming phase, same.node]
          exact ⟨Nat.zero_le _, fun notBlack black => absurd black notBlack⟩
      | @freed cursor position inside garbage pushed next =>
          have phase := (consistent.reclaiming position).phase
          rw [Heap.chances_of_reclaiming (pushed.phase.trans phase), pushed.color]
          exact ⟨Nat.zero_le _, fun notBlack black => absurd black notBlack⟩
      | @spared cursor position inside spared whitened next =>
          have phase := (consistent.reclaiming position).phase
          have phaseAfter : collection.visit.heap.phase = .reclaiming := by
            rw [whitened, Heap.phase_whiten_moveFrontier, phase]
          rw [Heap.chances_of_reclaiming phaseAfter, whitened, Heap.color_whiten]
          refine ⟨Nat.zero_le _, fun notBlack black => ?_⟩
          split at black
          · cases black
          · exact absurd black notBlack
  | _ => exact interim.elim

/-- A weight that no move raises and every blackening lowers bounds the blackenings. -/
theorem count_blackened_add_weight (weight : Heap → Nat) (ref : Ref) {admits : Move → Prop}
    (pays : ∀ {collection : Collection} {move : Move}, collection.Consistent →
      collection.Possible move → admits move →
      weight (collection.perform move).heap ≤ weight collection.heap ∧
        ((collection.heap.node ref).color ≠ .black →
          ((collection.perform move).heap.node ref).color = .black →
          weight (collection.perform move).heap < weight collection.heap))
    (consistent : start.Consistent) (legal : start.Legal moves)
    (admitted : ∀ move ∈ moves, admits move) :
    (start.blackened moves).count ref + weight (start.replay moves).heap ≤
      weight start.heap := by
  induction moves generalizing start with
  | nil => simp [blackened, noted]
  | cons move moves induction =>
      obtain ⟨possible, rest⟩ := legal
      have later := induction (consistent.perform possible) rest
        fun move member => admitted move (List.mem_cons_of_mem _ member)
      obtain ⟨lower, paid⟩ := pays consistent possible (admitted move List.mem_cons_self)
      rw [blackened] at later ⊢
      rw [count_noted_cons, replay_cons]
      split
      · rename_i noted
        simp only [Bool.and_eq_true, bne_iff_ne, beq_iff_eq] at noted
        have less := paid noted.2.1 noted.2.2
        omega
      · omega

/-- In the course of a cycle a node is blackened no more often than it has chances. -/
theorem count_blackened_add_chances (consistent : start.Consistent) (legal : start.Legal moves)
    (interim : ∀ move ∈ moves, move.Interim) (ref : Ref) :
    (start.blackened moves).count ref + (start.replay moves).heap.chances ref ≤
      start.heap.chances ref :=
  count_blackened_add_weight (·.chances ref) ref
    (fun consistent possible interim => consistent.chances_perform possible interim ref)
    consistent legal interim

/-- While a grey node is within the round that the scan has begun, a node is blackened
before the scan has passed it. -/
theorem blackened_of_greyWithin (consistent : start.Consistent) (legal : start.Legal moves)
    (interim : ∀ move ∈ moves, move.Interim) {cursor clean : Nat}
    (position : start.collector.position = .sweeping cursor clean)
    (within : start.heap.GreyWithin cursor clean) (enough : clean ≤ moves.count .visit) :
    start.blackened moves ≠ [] := by
  induction moves generalizing start cursor clean with
  | nil =>
      obtain ⟨offset, bounded, _⟩ := within
      rw [List.count_nil, Nat.le_zero] at enough
      exact absurd bounded (enough ▸ Nat.not_lt_zero offset)
  | cons move moves induction =>
      obtain ⟨possible, rest⟩ := legal
      obtain ⟨free, ordered⟩ := consistent.ordered
      have phase := (consistent.sweeping position).1.phase
      have consistentAfter := consistent.perform possible
      have interimRest : ∀ move ∈ moves, move.Interim :=
        fun move member => interim move (List.mem_cons_of_mem _ member)
      have now := interim move List.mem_cons_self
      have later : (start.perform move).blackened moves ≠ [] →
          start.blackened (move :: moves) ≠ [] :=
        List.append_ne_nil_of_right_ne_nil _
      cases move with
      | mutate request =>
          have performed := ordered.performed_change request
          have capacity := (performed.kept ordered).1.capacity
          rw [List.count_cons_of_ne (by simp)] at enough
          exact later (induction consistentAfter rest interimRest position
            (within.mono capacity fun ref => performed.grey phase) enough)
      | markRoots => exact absurd (position.symm.trans possible) Position.noConfusion
      | visit =>
          rw [List.count_cons_self] at enough
          cases consistent.visited possible.1 possible.2 with
          | @scanned cursor clean _ pending scanned next =>
              have inside : cursor < start.heap.capacity := Heap.lt_capacity_of_grey scanned.grey
              have listed : cursor ∈ start.blackened (.visit :: moves) := by
                apply List.mem_append_left
                rw [List.mem_filter, List.mem_range]
                refine ⟨inside, ?_⟩
                change (_ && (start.visit.heap.node cursor).color == .black) = true
                simp [scanned.grey, scanned.black]
              exact List.ne_nil_of_mem listed
          | passed positionNow pending unmarked same next =>
              cases position.symm.trans positionNow
              have inside := (consistent.sweeping position).2.1
              apply later
              apply induction consistentAfter rest interimRest next
              · change start.visit.heap.GreyWithin _ _
                rw [same]
                exact within.advance inside unmarked
              · omega
          | resumed positionNow grey same next =>
              cases position.symm.trans positionNow
              obtain ⟨offset, bounded, _⟩ := within
              exact absurd bounded (Nat.not_lt_zero offset)
          | settled positionNow settled =>
              obtain ⟨offset, _, grey⟩ := within
              exact absurd grey (settled _)
          | freed positionNow =>
              exact absurd (position.symm.trans positionNow) Position.noConfusion
          | spared positionNow =>
              exact absurd (position.symm.trans positionNow) Position.noConfusion
      | _ => exact now.elim

/-- A test for rest that fails is followed by a blackening within a round. -/
theorem blackened_of_testFails (consistent : start.Consistent)
    (legal : start.Legal (.visit :: moves)) (interim : ∀ move ∈ moves, move.Interim)
    (fails : start.TestFails) (enough : start.heap.capacity ≤ moves.count .visit) :
    (start.perform .visit).blackened moves ≠ [] := by
  obtain ⟨cursor, position, marking⟩ := fails
  obtain ⟨possible, rest⟩ := legal
  have consistentAfter := consistent.perform possible
  cases consistent.visited possible.1 possible.2 with
  | scanned positionNow pending =>
      cases position.symm.trans positionNow
      exact absurd rfl pending
  | passed positionNow pending =>
      cases position.symm.trans positionNow
      exact absurd rfl pending
  | resumed positionNow grey same next =>
      cases position.symm.trans positionNow
      obtain ⟨ref, grey⟩ := grey
      have inside := (consistent.sweeping position).2.1
      apply consistentAfter.blackened_of_greyWithin rest interim next ?_ enough
      change start.visit.heap.GreyWithin _ _
      rw [same]
      exact .of_round inside grey
  | settled positionNow settled same phase =>
      exact Phase.noConfusion (phase.symm.trans marking)
  | freed positionNow => exact absurd (position.symm.trans positionNow) Position.noConfusion
  | spared positionNow => exact absurd (position.symm.trans positionNow) Position.noConfusion

end Consistent

end Collection

namespace Session

/-- Steps that are taken from rest and all return without a report have a total budget
below four times the square of the capacity, whatever mutators do in between.  Until
then each node is blackened at most twice, and after a test for rest that fails there
is a blackening among the next visits, as many as there are nodes. -/
theorem run_cycleBounded
    {capacity : Nat} {initial : Heap} {requests cycle : List Request} {session : Session}
    {collector : Collector} (built : Heap.ofCapacity capacity = .ok initial)
    (reached : (ofHeap initial).run requests = session)
    (attached : session.driver = .stepping collector) (idle : session.heap.phase = .idle)
    (unfinished : session.Unfinished cycle) :
    (cycle.map Request.budget).sum < 4 * capacity * capacity ∧
    (∀ ref, (session.collection.blackened (session.trace cycle)).count ref ≤ 2) ∧
    ∀ before within after, session.trace cycle = before ++ .visit :: (within ++ after) →
      (session.collection.replay before).TestFails → capacity ≤ within.count .visit →
      (session.collection.replay (before ++ [.visit])).blackened within ≠ [] := by
  subst reached
  have consistent := run_consistent built requests
  have capacityNow := run_capacity built requests
  generalize (ofHeap initial).run requests = session at *
  obtain ⟨counted, interim⟩ := unfinished.moves attached
  have legal := (session.run_leads cycle).legal
  refine ⟨?_, fun ref => ?_, ?_⟩
  · have atRest : session.collection.collector.position = .idle :=
      consistent.phase_eq_idle_iff.mpr idle
    have spent := consistent.count_visit_add_workLeft legal interim
    rw [Collection.workLeft_of_idle atRest, counted] at spent
    change _ ≤ 4 * session.heap.capacity * session.heap.capacity - 1 at spent
    have roomy := (Heap.of_ofCapacity built).1
    have positive : 0 < 4 * capacity * capacity :=
      Nat.mul_pos (Nat.mul_pos (by decide) (Nat.lt_of_lt_of_le (by decide) roomy))
        (Nat.lt_of_lt_of_le (by decide) roomy)
    rw [capacityNow] at spent
    omega
  · have used := consistent.count_blackened_add_chances legal interim ref
    exact (Nat.le_of_add_right_le used).trans (Heap.chances_le_two _ ref)
  · intro before within after split fails enough
    rw [split] at legal interim
    obtain ⟨legalBefore, possible, legalRest⟩ := Collection.legal_append.mp legal
    obtain ⟨legalWithin, _⟩ := Collection.legal_append.mp legalRest
    have interimWithin : ∀ move ∈ within, move.Interim := by
      intro move member
      exact interim move (by simp [member])
    rw [Collection.replay_append]
    apply (consistent.replay legalBefore).blackened_of_testFails ⟨possible, legalWithin⟩
      interimWithin fails
    rw [consistent.capacity_replay legalBefore]
    exact capacityNow.symm ▸ enough

/-- Node 4 is garbage; it is shaded after the scan has passed it for the last time. -/
theorem run_cycleBounded_shaded_behind_cursor :
    let session := (ofHeap (Heap.fresh 5)).run [.attach, .allocate]
    let cycle : List Request := [.step 9, .shade 4, .step 6]
    let before := (session.trace cycle).take 11
    let within := (session.trace cycle).drop 12
    session.driver = .stepping {} ∧ session.heap.phase = .idle ∧ session.Unfinished cycle ∧
      session.trace cycle = before ++ .visit :: (within ++ []) ∧
      (session.collection.replay before).TestFails ∧ 5 ≤ within.count .visit ∧
      (cycle.map Request.budget).sum < 4 * 5 * 5 ∧
      (session.collection.blackened (session.trace cycle)).count 4 ≤ 2 ∧
      (session.collection.replay (before ++ [.visit])).blackened within ≠ [] := by
  intro session cycle before within
  have built : Heap.ofCapacity 5 = .ok (Heap.fresh 5) := rfl
  have attached : session.driver = .stepping {} := by decide
  have idle : session.heap.phase = .idle := by decide
  have unfinished : session.Unfinished cycle := ⟨rfl, rfl, rfl, trivial⟩
  have split : session.trace cycle = before ++ .visit :: (within ++ []) := by decide
  have fails : (session.collection.replay before).TestFails := ⟨4, by decide, by decide⟩
  have enough : 5 ≤ within.count .visit := by decide
  obtain ⟨bounded, twice, followed⟩ := run_cycleBounded built rfl attached idle unfinished
  exact ⟨attached, idle, unfinished, split, fails, enough, bounded, twice 4,
    followed before within [] split fails enough⟩

end Session

end Tricolor
