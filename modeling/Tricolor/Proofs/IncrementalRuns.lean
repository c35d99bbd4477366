import Tricolor.Simulation.Run
import Tricolor.Proofs.Damage
import Tricolor.Proofs.Ledger
import Tricolor.Proofs.Transparency

/-!
# Incremental simulations

A simulated mutator takes its decisions at random, but it only walks along slots from the
mutator roots.  Whatever it draws, and wherever the collector stands, the nodes that it
comes to are in use and stay in use, so that no operation fails for any other reason than
a lack of memory, and the counters of the mutator, of the collector and of the heap agree
in the end.
-/

namespace Tricolor

variable {σ : Type} [DrawSource σ]

/-- A node that a walk may end at. -/
structure Heap.Walkable (heap : Heap) (ref : Ref) : Prop where
  reachable : heap.MutatorReachable ref
  proper : ref ≠ Ref.nil

namespace Heap

variable {heap : Heap}

end Heap

namespace Attempt

/-- The attempt is about nodes that a walk may end at. -/
def Walkable (heap : Heap) : Attempt → Prop
  | .allocate parent _ => heap.Walkable parent
  | .detach parent _ => heap.Walkable parent
  | .relink parent _ target => heap.Walkable parent ∧ heap.Walkable target
  | .shade ref => heap.Walkable ref

/-- What the attempt asks of the heap. -/
def request : Attempt → Request
  | .allocate parent side => .allocateChild parent side
  | .detach parent side => .setChild parent side Ref.nil
  | .relink parent side target => .setChild parent side target
  | .shade ref => .shade ref

theorem dropResult_snd {α : Type} (outcome : Outcome α) : (dropResult outcome).2 = outcome.2 := by
  obtain ⟨value | fault, heap⟩ := outcome <;> rfl

theorem mutation_request (attempt : Attempt) :
    attempt.request.mutation? = some fun heap => (attempt.perform heap).2 := by
  cases attempt <;> simp only [request, Request.mutation?, perform, dropResult_snd]

end Attempt

namespace Heap

variable {heap : Heap} {free : List Ref} {parent target : Ref}

theorem Walkable.held (walkable : heap.Walkable parent) : heap.Held parent :=
  .inr walkable.reachable

/-- A link below a node that a walk ends at is always made. -/
theorem setChild_of_walkable (ordered : heap.WellFormed free) (safe : heap.Safe)
    (walkable : heap.Walkable parent) (held : heap.Held target) (side : Side) :
    heap.setChild parent side target = (.ok (), heap.relink parent side target) := by
  rcases heap.setChild_cases parent side target with ⟨fault, same⟩ | ⟨_, linked⟩
  · rcases setChild_of_held ordered safe walkable.held held side with
      ⟨empty, _⟩ | ⟨_, _, done, _⟩
    · exact absurd empty walkable.proper
    · rw [same] at done
      cases done
  · exact linked

/-- An allocation below such a node fails for lack of memory only. -/
theorem allocateChild_of_walkable (ordered : heap.WellFormed free) (safe : heap.Safe)
    (walkable : heap.Walkable parent) (side : Side) :
    heap.allocateChild parent side = (.error .outOfMemory, heap) ∨
      heap.firstFree ≠ Ref.nil ∧
        heap.allocateChild parent side =
          (.ok heap.firstFree, (heap.popFree.2.relink parent side heap.firstFree).reportLive) := by
  rcases ordered.allocateChild_cases parent side with ⟨fault, same⟩ | ⟨available, _, _, grown⟩
  · left
    rcases allocateChild_of_held ordered safe walkable.held side with
      ⟨empty, _⟩ | exhausted | ⟨_, _, _, _, _, done, _⟩
    · exact absurd empty walkable.proper
    · exact exhausted
    · rw [same] at done
      cases done
  · exact .inr ⟨available, grown⟩

end Heap

/-- The heap is in order and holds nothing against the mutators or the checker, and the
accounts agree. -/
structure Collection.Sound (collection : Collection) (capacity allocations : Nat) : Prop where
  consistent : collection.Consistent
  capacity : collection.heap.capacity = capacity
  safe : collection.heap.Safe
  closed : collection.heap.UsableClosed
  books : collection.Books allocations

namespace Collection

theorem sound_workStable (capacity allocations : Nat) :
    WorkStable fun collection => collection.Sound capacity allocations := by
  have advance : ∀ {before after : Collection}, before.Sound capacity allocations →
      Advances before after → after.Books allocations → after.Sound capacity allocations := by
    intro before after sound advances books
    obtain ⟨free, ordered⟩ := sound.consistent.ordered
    exact
      { consistent := advances.consistent
        capacity := advances.worked.capacity.trans sound.capacity
        safe := sound.safe.worked ordered advances.worked
        closed := sound.closed.worked ordered advances.worked
        books }
  exact
    { markRoots := fun sound => advance sound sound.consistent.markRoots sound.books.markRoots
      visit := fun sound pending =>
        advance sound (sound.consistent.visit pending) (sound.books.visit sound.consistent pending)
      finish := fun sound spent =>
        advance sound (sound.consistent.finish spent) (sound.books.finish spent) }

namespace Sound

variable {heap : Heap} {collector : Collector} {capacity allocations : Nat} {attempt : Attempt}

/-- Whatever comes of an attempt, it does no harm. -/
theorem perform (sound : Sound ⟨heap, collector⟩ capacity allocations)
    (walkable : attempt.Walkable heap) {counted : Nat}
    (books : Books ⟨(attempt.perform heap).2, collector⟩ counted) :
    Sound ⟨(attempt.perform heap).2, collector⟩ capacity counted := by
  obtain ⟨free, ordered⟩ := sound.consistent.ordered
  have performs := attempt.mutation_request
  have performed := ordered.performed performs
  have disciplined : heap.Disciplined attempt.request := by
    cases attempt with
    | allocate parent side => exact walkable.reachable
    | detach parent side => exact ⟨walkable.reachable, .inl rfl⟩
    | relink parent side target => exact ⟨walkable.1.reachable, .inr walkable.2.reachable⟩
    | shade ref => exact walkable.reachable
  have harmless : heap.Harmless attempt.request := by
    cases attempt with
    | allocate parent side => trivial
    | detach parent side => trivial
    | relink parent side target => trivial
    | shade ref =>
        intro _ condemned
        exact absurd condemned (sound.safe ref walkable.reachable).2
  exact
    { consistent := sound.consistent.mutation performs
      capacity := (performed.kept ordered).1.capacity.trans sound.capacity
      safe := sound.safe.performed ordered performed disciplined
      closed := sound.closed.mutation ordered performs harmless
      books }

theorem perform_of_done {after : Heap} (sound : Sound ⟨heap, collector⟩ capacity allocations)
    (walkable : attempt.Walkable heap) (done : attempt.perform heap = (none, after))
    {counted : Nat} (books : Books ⟨after, collector⟩ counted) :
    (attempt.perform heap).1 = none ∧
      Sound ⟨(attempt.perform heap).2, collector⟩ capacity counted := by
  have same : (attempt.perform heap).2 = after := congrArg Prod.snd done
  exact ⟨congrArg Prod.fst done, sound.perform walkable (same ▸ books)⟩

/-- An attempt succeeds and is accounted for, or it finds no free node. -/
theorem outcome (sound : Sound ⟨heap, collector⟩ capacity allocations)
    (walkable : attempt.Walkable heap) :
    attempt.operation = .allocate ∧ attempt.perform heap = (some .outOfMemory, heap) ∨
      (attempt.perform heap).1 = none ∧
        Sound ⟨(attempt.perform heap).2, collector⟩ capacity
          (allocations + if attempt.operation = .allocate then 1 else 0) := by
  obtain ⟨free, ordered⟩ := sound.consistent.ordered
  cases attempt with
  | allocate parent side =>
      rcases Heap.allocateChild_of_walkable ordered sound.safe walkable side with
        exhausted | ⟨available, grown⟩
      · exact .inl ⟨rfl, by simp only [Attempt.perform, exhausted, Attempt.dropResult]⟩
      · right
        obtain ⟨entered, counted, cyclesStarted⟩ := ordered.entered_grown available
        have done : (Attempt.allocate parent side).perform heap =
            (none, (heap.popFree.2.relink parent side heap.firstFree).reportLive) := by
          simp only [Attempt.perform, grown, Attempt.dropResult]
        exact sound.perform_of_done walkable done
          (sound.books.allocated entered counted cyclesStarted)
  | detach parent side =>
      have linked := Heap.setChild_of_walkable ordered sound.safe walkable (Heap.Held.nil heap) side
      have done : (Attempt.detach parent side).perform heap =
          (none, heap.relink parent side Ref.nil) := by
        simp only [Attempt.perform, linked, Attempt.dropResult]
      exact .inr (sound.perform_of_done walkable done
        (sound.books.silent (Heap.relink_silent ..)
          (Heap.insertionBarrier_shaded ..).cyclesStarted))
  | relink parent side target =>
      have linked := Heap.setChild_of_walkable ordered sound.safe walkable.1 walkable.2.held side
      have done : (Attempt.relink parent side target).perform heap =
          (none, heap.relink parent side target) := by
        simp only [Attempt.perform, linked, Attempt.dropResult]
      exact .inr (sound.perform_of_done walkable done
        (sound.books.silent (Heap.relink_silent ..)
          (Heap.insertionBarrier_shaded ..).cyclesStarted))
  | shade ref =>
      obtain ⟨marked, shaded⟩ := Heap.shadeNode_of_held ordered walkable.held
      have done : (Attempt.shade ref).perform heap = (none, heap.shade ref) := by
        simp only [Attempt.perform, shaded, Attempt.dropResult]
      have shading := Heap.shade_shaded heap ref
      exact .inr (sound.perform_of_done walkable done
        (sound.books.silent shading.silent shading.cyclesStarted))

end Sound

end Collection

/-- The counters tell what came of each of so many operations, and none was rejected. -/
structure MutatorStats.Complete (stats : MutatorStats) (operations : Nat) : Prop where
  operations : stats.operations = operations
  kinds : stats.operations =
    stats.allocations + stats.detaches + stats.relinks + stats.shades + stats.outOfMemory
  rejected : stats.rejected = 0

namespace MutatorStats.Complete

variable {stats : MutatorStats} {operations : Nat}

end MutatorStats.Complete

/-- The counters of a mutator after so many operations agree with the stage it works on. -/
structure Stage.Balanced (stage : Stage) (capacity : Nat) (stats : MutatorStats)
    (operations : Nat) : Prop where
  sound : stage.collection.Sound capacity stats.allocations
  complete : stats.Complete operations
  forced : stats.outOfMemory ≤ stage.forced

namespace Stage

variable {stage : Stage} {capacity : Nat} {worker : Worker σ} {operations : Nat}

theorem perform_of_done {heap after : Heap} {collector : Collector} {forced : Nat}
    {attempt : Attempt} (done : attempt.perform heap = (none, after)) :
    perform ⟨⟨heap, collector⟩, forced⟩ attempt = (none, ⟨⟨after, collector⟩, forced⟩) := by
  simp only [perform, done]

/-- In the end the collector is brought to rest, which is nothing to the mutator. -/
theorem Balanced.settle {stats : MutatorStats}
    (balanced : stage.Balanced capacity stats operations) :
    stage.settle.Balanced capacity stats operations ∧
      stage.settle.collection.heap.phase = .idle := by
  unfold Stage.settle
  by_cases active : stage.collection.heap.phase.isActive = true
  · rw [if_pos active]
    have consistent := balanced.sound.consistent
    have announced : stage.collection.heap.phase ≠ .idle := by
      simpa [Phase.isActive] using active
    obtain ⟨_, _, idle⟩ :=
      consistent.runCycle_ends (mt consistent.phase_eq_idle_iff.mp announced)
    exact ⟨⟨(Collection.sound_workStable capacity _).reclaim balanced.sound, balanced.complete,
      balanced.forced⟩, idle⟩
  · rw [if_neg active]
    exact ⟨balanced, by simpa [Phase.isActive] using active⟩

end Stage

namespace Config

variable {config : Config}

end Config

end Tricolor
