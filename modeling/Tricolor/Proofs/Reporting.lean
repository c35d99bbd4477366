import Tricolor.Proofs.CycleNumbers
import Tricolor.Proofs.Ledger
import Tricolor.Proofs.SteppedCycles

/-!
# A run as it is reported

A node that goes into use or out of use is reported, with the number of live nodes that this
makes; a cycle that completes is reported, with its number; and nothing else is.  So the reports
account for all nodes and for all cycles of a run, down to the last move.
-/

namespace Tricolor

namespace Event

def passNumber? : Event → Option Nat
  | .liveNodes _ => none
  | .passComplete cycle => some cycle

/-- The numbers of the completed cycles among the events, in order. -/
def passNumbers (events : List Event) : List Nat :=
  events.filterMap passNumber?

end Event

namespace Request

/-- The node that a mutator obtains. -/
def obtained (heap : Heap) : Request → List Ref
  | .allocate => heap.allocate.1.toOption.toList
  | .allocateChild parent side => (heap.allocateChild parent side).1.toOption.toList
  | _ => []

/-- The node that a mutator returns. -/
def returned (heap : Heap) : Request → List Ref
  | .release ref => (heap.release ref).1.toOption.toList.map fun _ => ref
  | _ => []

end Request

namespace Heap

/-- The numbers of the cycles that have been reported, in order. -/
def reportedNumbers (heap : Heap) : List Nat := Event.passNumbers heap.events.toList

/-- No node changes hands and nothing is reported, or one does and is. -/
inductive Turnover (before after : Heap) : (obtained returned : List Ref) → Prop where
  | none (silent : Silent before after) : Turnover before after [] []
  | obtained {ref : Ref} (entered : Entered before after)
      (live : after.liveCount = before.liveCount + 1) : Turnover before after [ref] []
  | returned {ref : Ref} (entered : Entered before after)
      (live : after.liveCount + 1 = before.liveCount) : Turnover before after [] [ref]

variable {first second third heap : Heap} {free : List Ref}

theorem Silent.refl (heap : Heap) : Silent heap heap :=
  ⟨rfl, rfl, rfl⟩

theorem Silent.entered (silent : Silent first second) (entered : Entered second third) :
    Entered first third where
  capacity := entered.capacity.trans silent.capacity
  events := entered.events.trans (by rw [silent.events])

namespace Turnover

variable {before after : Heap} {obtained returned : List Ref}

theorem events (turnover : before.Turnover after obtained returned) :
    after.events.toList = before.events.toList ++
      (obtained ++ returned).map fun _ => .liveNodes after.liveCount := by
  cases turnover with
  | none silent => simp [silent.events]
  | obtained entered live => simp [entered.events]
  | returned entered live => simp [entered.events]

theorem length_le_one (turnover : before.Turnover after obtained returned) :
    (obtained ++ returned).length ≤ 1 := by
  cases turnover <;> simp

theorem liveCount (turnover : before.Turnover after obtained returned) :
    after.liveCount + returned.length = before.liveCount + obtained.length := by
  cases turnover with
  | none silent => simp [silent.liveCount]
  | obtained entered live => simp [live]
  | returned entered live => simp [live]

end Turnover

theorem WellFormed.turnover_allocate (ordered : heap.WellFormed free) :
    heap.Turnover heap.allocate.2 heap.allocate.1.toOption.toList [] := by
  rcases heap.allocate_cases with ⟨_, refused⟩ | ⟨available, allocated⟩
  · rw [refused]
    exact .none (Silent.refl heap)
  · have popped := ordered.popped_popFree available
    have events := heap.events_popFree
    rw [allocated]
    generalize heap.popFree.2 = after at *
    apply Turnover.obtained
    · exact ⟨popped.capacity, by rw [← events]; rfl⟩
    · exact ordered.liveCount_taken available popped.capacity popped.freeCount

theorem WellFormed.turnover_allocateChild (ordered : heap.WellFormed free)
    (parent : Ref) (side : Side) :
    heap.Turnover (heap.allocateChild parent side).2
      (heap.allocateChild parent side).1.toOption.toList [] := by
  rcases ordered.allocateChild_cases parent side with
    ⟨fault, refused⟩ | ⟨available, _, _, grown⟩
  · rw [refused]
    exact .none (Silent.refl heap)
  · rw [grown]
    apply Turnover.obtained
    · exact (ordered.entered_grown available).1
    · exact (ordered.entered_grown available).2.1

theorem WellFormed.turnover_release (ordered : heap.WellFormed free) (ref : Ref) :
    heap.Turnover (heap.release ref).2 []
      ((heap.release ref).1.toOption.toList.map fun _ => ref) := by
  obtain ⟨_, freeAfter, orderedAfter⟩ := (ordered.performed_change (.release ref)).kept ordered
  change WellFormed (heap.release ref).2 freeAfter at orderedAfter
  rcases heap.release_cases ref with ⟨fault, refused⟩ | ⟨releasable, released⟩
  · rw [refused]
    exact .none (Silent.refl heap)
  · have barred := (insertionBarrier_shaded heap Ref.freeRoot ref).silent
    have entered := barred.entered ((heap.insertionBarrier Ref.freeRoot ref).entered_pushFree ref)
    have freeCount := (heap.insertionBarrier Ref.freeRoot ref).freeCount_pushFree ref
    rw [barred.freeCount] at freeCount
    rw [released] at orderedAfter ⊢
    exact .returned entered (ordered.liveCount_put orderedAfter entered.capacity freeCount)

theorem WellFormed.turnover (ordered : heap.WellFormed free) (request : Request) :
    heap.Turnover (request.change heap) (request.obtained heap) (request.returned heap) := by
  cases request with
  | allocate => exact ordered.turnover_allocate
  | allocateChild parent side => exact ordered.turnover_allocateChild parent side
  | release ref => exact ordered.turnover_release ref
  | setChild parent side child =>
      change heap.Turnover (heap.setChild parent side child).2 [] []
      rcases heap.setChild_cases parent side child with ⟨fault, refused⟩ | ⟨_, linked⟩
      · rw [refused]
        exact .none (Silent.refl heap)
      · rw [linked]
        exact .none (relink_silent heap parent side child)
  | shade ref =>
      change heap.Turnover (heap.shadeNode ref).2 [] []
      rcases heap.shadeNode_cases ref with ⟨fault, refused⟩ | ⟨_, shaded⟩
      · rw [refused]
        exact .none (Silent.refl heap)
      · rw [shaded]
        exact .none (shade_recolored heap ref).silent
  | _ => exact .none (Silent.refl heap)

end Heap

namespace Collection

/-- The number of cycles in progress. -/
def inProgress (collection : Collection) : Nat :=
  if collection.collector.position = .idle then 0 else 1

/-- The nodes that mutators obtain by the move. -/
def obtained (collection : Collection) : Move → List Ref
  | .mutate request => request.obtained collection.heap
  | _ => []

/-- The nodes that mutators return by the move. -/
def returned (collection : Collection) : Move → List Ref
  | .mutate request => request.returned collection.heap
  | _ => []

/-- The report on the cycle that the move completes. -/
def completed (collection : Collection) : Move → List CycleReport
  | .finish => [collection.finish.1]
  | _ => []

/-- The report that there will not be on the cycle that the move abandons. -/
def abandoned (collection : Collection) : Move → List CycleReport
  | .detach =>
      if collection.collector.position = .idle then [] else [collection.collector.current]
  | _ => []

/-- The nodes that go into use or out of use by the move. -/
def turnedOver (collection : Collection) (move : Move) : List Ref :=
  collection.obtained move ++ collection.returned move ++ collection.collected [move]

/-- What there is to report on the move: the number of nodes in use after it, for each node that
it turns over, and the number of the cycle that it completes. -/
def entries (collection : Collection) (move : Move) : List Event :=
  (collection.turnedOver move).map
      (fun _ => .liveNodes (collection.perform move).heap.liveCount) ++
    (collection.completed move).map fun report => .passComplete report.cycle

/-- What the moves of a run come to, one after the other. -/
def along {α : Type} (account : Collection → Move → List α) :
    Collection → List Move → List α
  | _, [] => []
  | collection, move :: moves =>
      account collection move ++ along account (collection.perform move) moves

theorem along_append {α : Type} (account : Collection → Move → List α)
    (collection : Collection) (moves more : List Move) :
    collection.along account (moves ++ more) =
      collection.along account moves ++ (collection.replay moves).along account more := by
  induction moves generalizing collection with
  | nil => rfl
  | cons move moves induction =>
      simp only [List.cons_append, along, induction, replay_cons, List.append_assoc]

theorem along_snoc {α : Type} (account : Collection → Move → List α)
    (collection : Collection) (moves : List Move) (move : Move) :
    collection.along account (moves ++ [move]) =
      collection.along account moves ++ account (collection.replay moves) move := by
  rw [along_append, along, along, List.append_nil]

/-- The accounts of the collector are those of the cycle in progress, and empty at rest. -/
structure Tidy (collection : Collection) : Prop where
  consistent : collection.Consistent
  numbered : collection.Numbered
  cleared : collection.collector.position = .idle → collection.collector.current = {}

/-- What a move comes to in the accounts. -/
structure Booked (before : Collection) (move : Move) : Prop where
  events : (before.perform move).heap.events.toList =
    before.heap.events.toList ++ before.entries move
  single : (before.turnedOver move).length ≤ 1
  live : (before.perform move).heap.liveCount +
      ((before.returned move).length + (before.collected [move]).length) =
    before.heap.liveCount + (before.obtained move).length
  cycles : (before.perform move).heap.cyclesStarted + before.inProgress =
    before.heap.cyclesStarted + (before.completed move).length +
      (before.abandoned move).length + (before.perform move).inProgress
  reclaimed : (before.perform move).collector.current.reclaimed +
      ((before.completed move ++ before.abandoned move).map (·.reclaimed)).sum =
    before.collector.current.reclaimed + (before.collected [move]).length
  numbers : ∀ report ∈ before.completed move,
    report.cycle = before.heap.cyclesStarted ∧ before.inProgress = 1

/-- The reports account for all nodes and all cycles of a run that has come so far.  What has
been collected is on a report, on the one that an abandoned cycle does not get to give, or yet to
be reported. -/
structure Chronicled (start : Collection) (moves : List Move) : Prop where
  events : (start.replay moves).heap.events.toList = start.along entries moves
  counts : (3 :: (start.replay moves).heap.reportedCounts).IsChain fun before after =>
    after = before + 1 ∨ before = after + 1
  last : (3 :: (start.replay moves).heap.reportedCounts).getLast? =
    some (start.replay moves).heap.liveCount
  numbers : (start.replay moves).heap.reportedNumbers =
    (start.along completed moves).map (·.cycle)
  increasing : (start.replay moves).heap.reportedNumbers.Pairwise (· < ·)
  bounded : ∀ number ∈ (start.replay moves).heap.reportedNumbers,
    number + (start.replay moves).inProgress ≤ (start.replay moves).heap.cyclesStarted
  cycles : (start.replay moves).heap.reportedNumbers.length +
      (start.along abandoned moves).length + (start.replay moves).inProgress =
    (start.replay moves).heap.cyclesStarted
  balance : (start.replay moves).heap.liveCount + (start.along returned moves).length +
      ((start.along completed moves ++ start.along abandoned moves).map (·.reclaimed)).sum +
      (start.replay moves).collector.current.reclaimed =
    3 + (start.along obtained moves).length

/-- Nothing is left out, and nothing will be: what comes next is reported if it puts a node into
use or out of use, or completes a cycle, and else not. -/
structure Reported (start : Collection) (moves : List Move) : Prop
    extends Chronicled start moves where
  next : ∀ move, (start.replay moves).Possible move →
    ((start.replay moves).perform move).heap.events.toList =
      (start.replay moves).heap.events.toList ++ (start.replay moves).entries move
  undisturbed : start.along abandoned moves = [] →
    ((start.replay moves).heap.liveCount : Int) =
      3 + (start.along obtained moves).length - (start.along returned moves).length -
        (((start.along completed moves).map (·.reclaimed)).sum +
          (start.replay moves).collector.current.reclaimed)

section Moves

variable {before after : Collection} {collection : Collection} {move : Move}

/-- Where no node goes out of use, none is collected. -/
theorem collected_of_sameShape
    (same : Heap.SameShape collection.heap (collection.perform move).heap) :
    collection.collected [move] = [] := by
  simp [collected, noted, same.live]

/-- Work that puts one node out of use collects this node. -/
theorem collected_of_freed (work : move.isWork = true) {ref : Ref}
    (inside : ref < collection.heap.capacity) (used : (collection.heap.node ref).live = true)
    (live : ∀ other, ((collection.perform move).heap.node other).live =
      if other = ref then false else (collection.heap.node other).live) :
    collection.collected [move] = [ref] := by
  have freed : ∀ other, (move.isWork && (collection.heap.node other).live &&
      !((collection.perform move).heap.node other).live) = (other == ref) := by
    intro other
    rw [work, live]
    by_cases hit : other = ref
    · simp [hit, used]
    · simp [hit]
  have once : (List.range collection.capacity).count ref = 1 := by
    rw [List.nodup_range.count]
    exact if_pos (List.mem_range.mpr inside)
  simp only [collected, noted, freed, List.filter_beq, once, List.append_nil]
  rfl

theorem silent_detach (collection : Collection) :
    Heap.Silent collection.heap collection.detach ∧
      collection.detach.cyclesStarted = collection.heap.cyclesStarted := by
  have whitened := Heap.whitenAll_recolored collection.heap
  unfold Collection.detach Heap.abandonCycle
  split
  · exact ⟨Heap.Silent.refl _, rfl⟩
  · split
    · exact ⟨⟨whitened.capacity, whitened.freeCount, whitened.events⟩, whitened.cyclesStarted⟩
    · exact ⟨Heap.Silent.refl _, rfl⟩

theorem Visited.sameShape_or_pushed (visited : Visited before after) :
    Heap.SameShape before.heap after.heap ∨ ∃ cursor,
      cursor < before.heap.capacity ∧ before.heap.Garbage cursor ∧
        Heap.Pushed (before.heap.moveFrontier (cursor + 1)) cursor after.heap := by
  cases visited with
  | scanned position pending scanned next => exact .inl scanned.toRecolored.toSameShape
  | passed position pending unmarked same next =>
      exact .inl (same ▸ (Heap.Recolored.refl _).toSameShape)
  | resumed position grey same next =>
      exact .inl (same ▸ (Heap.Recolored.refl _).toSameShape)
  | settled position settled same phase next => exact .inl same.sameShape
  | freed position inside garbage pushed next => exact .inr ⟨_, inside, garbage, pushed⟩
  | spared position inside spared whitened next =>
      exact .inl (whitened ▸ Heap.whiten_moveFrontier_sameShape ..)

theorem Consistent.turnover_visit (consistent : collection.Consistent)
    (active : collection.collector.position ≠ .idle) (pending : collection.isSpent = false) :
    collection.heap.Turnover collection.visit.heap [] (collection.collected [.visit]) ∧
      collection.visit.collector.current.reclaimed =
        collection.collector.current.reclaimed + (collection.collected [.visit]).length := by
  have stats := collection.stats_visit
  -- The shape tells which node has been freed, and the tally that it has been reported; they
  -- cannot differ, because both know the number of free nodes.
  rcases (consistent.visited active pending).sameShape_or_pushed with
    same | ⟨cursor, inside, garbage, pushed⟩
  · rw [collected_of_sameShape same]
    cases collection.tallied_visit with
    | silent silent reclaimed =>
        rw [Collection.reclaimed, Collection.reclaimed, stats] at reclaimed
        exact ⟨.none silent, Nat.add_left_cancel reclaimed⟩
    | freed entered freeCount reclaimed =>
        have same := freeCount.symm.trans same.freeCount
        omega
  · have collected : collection.collected [.visit] = [cursor] :=
      collected_of_freed rfl inside garbage.2.1 pushed.live
    rw [collected]
    cases collection.tallied_visit with
    | silent silent reclaimed =>
        have same := pushed.freeCount.symm.trans silent.freeCount
        change collection.heap.freeCount + 1 = collection.heap.freeCount at same
        omega
    | freed entered freeCount reclaimed =>
        obtain ⟨free, ordered⟩ := consistent.ordered
        obtain ⟨freeAfter, orderedAfter⟩ := (consistent.visit pending).consistent.ordered
        rw [Collection.reclaimed, Collection.reclaimed, stats, Nat.add_assoc] at reclaimed
        refine ⟨.returned entered ?_, Nat.add_left_cancel reclaimed⟩
        exact ordered.liveCount_put orderedAfter entered.capacity freeCount

theorem Booked.of_turnover
    (turnover : collection.heap.Turnover (collection.perform move).heap
      (collection.obtained move) (collection.returned move ++ collection.collected [move]))
    (completed : collection.completed move = [])
    (cycles : (collection.perform move).heap.cyclesStarted + collection.inProgress =
      collection.heap.cyclesStarted + (collection.abandoned move).length +
        (collection.perform move).inProgress)
    (reclaimed : (collection.perform move).collector.current.reclaimed +
        ((collection.abandoned move).map (·.reclaimed)).sum =
      collection.collector.current.reclaimed + (collection.collected [move]).length) :
    collection.Booked move := by
  have events := turnover.events
  have single := turnover.length_le_one
  have live := turnover.liveCount
  rw [← List.append_assoc] at events single
  rw [List.length_append] at live
  refine ⟨?_, single, live, ?_, ?_, ?_⟩
  · rw [entries, completed, List.map_nil, List.append_nil]
    exact events
  · rw [completed]
    exact cycles
  · rw [completed]
    exact reclaimed
  · rw [completed]
    exact fun report member => absurd member List.not_mem_nil

namespace Tidy

theorem perform (tidy : collection.Tidy) (possible : collection.Possible move) :
    (collection.perform move).Tidy := by
  have consistent := tidy.consistent.perform possible
  cases move with
  | mutate request =>
      obtain ⟨free, ordered⟩ := tidy.consistent.ordered
      have kept := ((ordered.performed_change request).kept ordered).1
      refine ⟨consistent, fun active => ?_, tidy.cleared⟩
      change 0 < (request.change collection.heap).cyclesStarted ∧
        _ = (request.change collection.heap).cyclesStarted
      rw [kept.cyclesStarted]
      exact tidy.numbered active
  | markRoots =>
      exact ⟨consistent, tidy.numbered.markRoots,
        fun idle => absurd idle collection.position_markRoots⟩
  | visit =>
      have active := tidy.consistent.active_visit possible.1 possible.2
      have visited := numbered_workStable.visit ⟨tidy.consistent, tidy.numbered⟩ possible.2
      exact ⟨consistent, visited.2, fun idle => absurd idle active⟩
  | finish => exact ⟨consistent, fun active => absurd rfl active, fun _ => rfl⟩
  | attach => exact ⟨consistent, fun active => absurd rfl active, fun _ => rfl⟩
  | detach => exact ⟨consistent, fun active => absurd rfl active, fun _ => rfl⟩

theorem booked_mutate (tidy : collection.Tidy) (request : Request) :
    collection.Booked (.mutate request) := by
  obtain ⟨free, ordered⟩ := tidy.consistent.ordered
  have kept := ((ordered.performed_change request).kept ordered).1
  have collected : collection.collected [.mutate request] = [] := by
    simp [Collection.collected, noted, Move.isWork]
  apply Booked.of_turnover
  · rw [collected, List.append_nil]
    exact ordered.turnover request
  · rfl
  · exact congrArg (· + collection.inProgress) kept.cyclesStarted
  · rw [collected]
    rfl

theorem booked_markRoots (tidy : collection.Tidy) (idle : collection.collector.position = .idle) :
    collection.Booked .markRoots := by
  obtain ⟨silent, _, reclaimed⟩ := silent_markRoots idle
  have same := (started_markRoots idle).toSameShape
  have collected : collection.collected [.markRoots] = [] := collected_of_sameShape same
  apply Booked.of_turnover
  · rw [collected]
    exact .none silent
  · rfl
  · rw [perform_markRoots, cyclesStarted_markRoots idle, inProgress, inProgress, if_pos idle,
      if_neg collection.position_markRoots]
    rfl
  · rw [collected, perform_markRoots, reclaimed, tidy.cleared idle]
    rfl

theorem booked_visit (tidy : collection.Tidy) (active : collection.collector.position ≠ .idle)
    (pending : collection.isSpent = false) :
    collection.Booked .visit := by
  obtain ⟨turnover, reclaimed⟩ := tidy.consistent.turnover_visit active pending
  apply Booked.of_turnover
  · exact turnover
  · rfl
  · have activeAfter := tidy.consistent.active_visit active pending
    rw [perform_visit, collection.numbers_visit.1, inProgress, inProgress, if_neg active,
      if_neg activeAfter]
    rfl
  · exact reclaimed

theorem booked_finish (tidy : collection.Tidy) (spent : collection.isSpent = true) :
    collection.Booked .finish := by
  obtain ⟨cursor, position, _⟩ := (isSpent_iff collection).mp spent
  have active : collection.collector.position ≠ .idle := by simp [position]
  have same : Heap.SameShape collection.heap (collection.perform .finish).heap :=
    ⟨rfl, fun _ _ => rfl, fun _ => rfl, rfl⟩
  have collected : collection.collected [.finish] = [] := collected_of_sameShape same
  have progress : collection.inProgress = 1 := if_neg active
  have turnedOver : collection.turnedOver .finish = [] := collected
  refine ⟨?_, ?_, ?_, ?_, ?_, ?_⟩
  · rw [entries, turnedOver]
    exact Array.toList_push
  · rw [turnedOver]
    exact Nat.zero_le 1
  · rw [collected]
    rfl
  · rw [progress]
    rfl
  · rw [collected]
    exact Nat.zero_add _
  · intro report member
    rw [List.mem_singleton.mp member]
    exact ⟨(tidy.numbered active).2, progress⟩

theorem booked_attach (tidy : collection.Tidy) (new : collection.collector = {}) :
    collection.Booked .attach := by
  obtain ⟨heap, collector⟩ := collection
  cases (new : collector = {})
  have same : Collection.perform ⟨heap, {}⟩ .attach = ⟨heap, {}⟩ := tidy.consistent.attach_eq
  have collected : Collection.collected ⟨heap, {}⟩ [.attach] = [] := by
    apply collected_of_sameShape
    rw [same]
    exact (Heap.Recolored.refl heap).toSameShape
  apply Booked.of_turnover
  · rw [collected, same]
    exact .none (Heap.Silent.refl heap)
  · rfl
  · rw [same]
    rfl
  · rw [collected, same]
    rfl

theorem booked_detach (tidy : collection.Tidy) : collection.Booked .detach := by
  have collected : collection.collected [.detach] = [] :=
    collected_of_sameShape tidy.consistent.detach.1
  obtain ⟨silent, cyclesStarted⟩ := collection.silent_detach
  apply Booked.of_turnover
  · rw [collected]
    exact .none silent
  · rfl
  · change collection.detach.cyclesStarted + collection.inProgress = _
    rw [cyclesStarted, abandoned, inProgress]
    split <;> rfl
  · rw [collected, abandoned]
    split
    · rename_i idle
      rw [tidy.cleared idle]
      rfl
    · exact Nat.zero_add _

theorem booked (tidy : collection.Tidy) (possible : collection.Possible move) :
    collection.Booked move := by
  cases move with
  | mutate request => exact tidy.booked_mutate request
  | markRoots => exact tidy.booked_markRoots possible
  | visit => exact tidy.booked_visit possible.1 possible.2
  | finish => exact tidy.booked_finish possible
  | attach => exact tidy.booked_attach possible
  | detach => exact tidy.booked_detach

end Tidy

theorem liveCounts_entries (collection : Collection) (move : Move) :
    Event.liveCounts (collection.entries move) =
      (collection.turnedOver move).map fun _ => (collection.perform move).heap.liveCount := by
  unfold entries Event.liveCounts
  rw [List.filterMap_append, List.filterMap_map, List.filterMap_map]
  simp [Function.comp_def, Event.liveCount?]

theorem passNumbers_entries (collection : Collection) (move : Move) :
    Event.passNumbers (collection.entries move) =
      (collection.completed move).map (·.cycle) := by
  unfold entries Event.passNumbers
  rw [List.filterMap_append, List.filterMap_map, List.filterMap_map]
  simp [Function.comp_def, Event.passNumber?]

namespace Booked

theorem reportedCounts (booked : collection.Booked move) :
    (collection.perform move).heap.reportedCounts =
      collection.heap.reportedCounts ++
        (collection.turnedOver move).map fun _ => (collection.perform move).heap.liveCount := by
  rw [Heap.reportedCounts, booked.events, Event.liveCounts, List.filterMap_append]
  exact congrArg _ (collection.liveCounts_entries move)

theorem reportedNumbers (booked : collection.Booked move) :
    (collection.perform move).heap.reportedNumbers =
      collection.heap.reportedNumbers ++ (collection.completed move).map (·.cycle) := by
  rw [Heap.reportedNumbers, booked.events, Event.passNumbers, List.filterMap_append]
  exact congrArg _ (collection.passNumbers_entries move)

/-- The number of live nodes stays, and nothing is added to the counts, or it changes by one, and
this is added. -/
theorem counts (booked : collection.Booked move) :
    (collection.perform move).heap.reportedCounts = collection.heap.reportedCounts ∧
        (collection.perform move).heap.liveCount = collection.heap.liveCount ∨
      (collection.perform move).heap.reportedCounts =
          collection.heap.reportedCounts ++ [(collection.perform move).heap.liveCount] ∧
        ((collection.perform move).heap.liveCount = collection.heap.liveCount + 1 ∨
          collection.heap.liveCount = (collection.perform move).heap.liveCount + 1) := by
  have reported := booked.reportedCounts
  have live := booked.live
  have length : (collection.turnedOver move).length =
      (collection.obtained move).length + (collection.returned move).length +
        (collection.collected [move]).length := by
    rw [turnedOver, List.length_append, List.length_append]
  rcases Nat.le_one_iff_eq_zero_or_eq_one.mp booked.single with none | one
  · rw [List.eq_nil_of_length_eq_zero none, List.map_nil, List.append_nil] at reported
    exact .inl ⟨reported, by omega⟩
  · obtain ⟨ref, single⟩ := List.length_eq_one_iff.mp one
    rw [single, List.map_singleton] at reported
    exact .inr ⟨reported, by omega⟩

end Booked

/-- One more move, and its reports. -/
theorem Chronicled.snoc {start : Collection} {moves : List Move}
    (chronicled : start.Chronicled moves) (booked : (start.replay moves).Booked move) :
    start.Chronicled (moves ++ [move]) := by
  obtain ⟨events, counts, last, numbers, increasing, bounded, cycles, balance⟩ := chronicled
  have after : start.replay (moves ++ [move]) = (start.replay moves).perform move := by simp
  have live := booked.live
  have booking := booked.cycles
  have reclaimed := booked.reclaimed
  -- The cycle that completes is the one in progress, so that no number is higher than its own.
  have completes : ∀ number ∈ ((start.replay moves).completed move).map (·.cycle),
      number = (start.replay moves).heap.cyclesStarted ∧ (start.replay moves).inProgress = 1 ∧
        1 ≤ ((start.replay moves).completed move).length := by
    intro number member
    obtain ⟨report, completed, rfl⟩ := List.mem_map.mp member
    obtain ⟨latest, progress⟩ := booked.numbers report completed
    exact ⟨latest, progress, List.length_pos_of_mem completed⟩
  constructor <;> simp only [after, along_snoc]
  case events => rw [booked.events, events]
  case counts =>
    rcases booked.counts with ⟨same, _⟩ | ⟨added, step⟩
    · rwa [same]
    · rw [added, ← List.cons_append, List.isChain_append, last]
      refine ⟨counts, List.isChain_singleton _, ?_⟩
      intro before isLast after isNext
      cases isLast
      cases isNext
      exact step
  case last =>
    rcases booked.counts with ⟨same, live⟩ | ⟨added, step⟩
    · rw [same, live, last]
    · rw [added, ← List.cons_append, List.getLast?_concat]
  case numbers => rw [booked.reportedNumbers, numbers, List.map_append]
  case increasing =>
    rw [booked.reportedNumbers, List.pairwise_append]
    refine ⟨increasing, ?_, fun earlier reported number member => ?_⟩
    · cases move <;> simp [completed]
    · obtain ⟨latest, progress, _⟩ := completes number member
      have below := bounded earlier reported
      omega
  case bounded =>
    rw [booked.reportedNumbers]
    intro number member
    rcases List.mem_append.mp member with reported | completed
    · have below := bounded number reported
      omega
    · obtain ⟨latest, progress, some⟩ := completes number completed
      omega
  case cycles =>
    rw [booked.reportedNumbers]
    simp only [List.length_append, List.length_map]
    omega
  case balance =>
    simp only [List.map_append, List.sum_append, List.length_append] at balance reclaimed ⊢
    omega

theorem Chronicled.liveCount_of_unabandoned {start : Collection} {moves : List Move}
    (chronicled : start.Chronicled moves) (undisturbed : start.along abandoned moves = []) :
    ((start.replay moves).heap.liveCount : Int) =
      3 + (start.along obtained moves).length - (start.along returned moves).length -
        (((start.along completed moves).map (·.reclaimed)).sum +
          (start.replay moves).collector.current.reclaimed) := by
  have balance := chronicled.balance
  rw [undisturbed, List.append_nil] at balance
  omega

theorem chronicled_of_legal {start : Collection} {moves : List Move} (tidy : start.Tidy)
    (chronicled : start.Chronicled []) (legal : start.Legal moves) :
    (start.replay moves).Tidy ∧ start.Chronicled moves := by
  induction moves using List.reverseRecOn with
  | nil => exact ⟨tidy, chronicled⟩
  | append_singleton moves move induction =>
      obtain ⟨before, possible, _⟩ := legal_append.mp legal
      obtain ⟨tidyBefore, chronicledBefore⟩ := induction before
      rw [replay_append]
      exact ⟨tidyBefore.perform possible, chronicledBefore.snoc (tidyBefore.booked possible)⟩

end Moves

end Collection

namespace Session

variable {capacity : Nat} {initial : Heap}

theorem tidy_ofHeap (built : Heap.ofCapacity capacity = .ok initial) :
    (ofHeap initial).collection.Tidy where
  consistent := consistent_ofHeap built
  numbered active := absurd rfl active
  cleared _ := rfl

/-- A fresh heap has nothing to report but its roots. -/
theorem chronicled_ofHeap (built : Heap.ofCapacity capacity = .ok initial) :
    (ofHeap initial).collection.Chronicled [] := by
  obtain ⟨roomy, rfl⟩ := Heap.of_ofCapacity built
  have live : (Heap.fresh capacity).liveCount = 3 := by
    rw [Heap.liveCount, Heap.capacity_fresh]
    simp only [Heap.fresh, Heap.minCapacity] at roomy ⊢
    omega
  exact
    { events := rfl
      counts := List.isChain_singleton 3
      last := congrArg some live.symm
      numbers := rfl
      increasing := List.Pairwise.nil
      bounded := fun number member => absurd member List.not_mem_nil
      cycles := rfl
      balance := live }

/-- At every moment of every run, whatever is asked for and in whatever order, the reports
account for all that has happened, and so they will after the next move. -/
theorem run_reported {requests : List Request} {moves : List Move}
    (built : Heap.ofCapacity capacity = .ok initial)
    (made : moves <+: (ofHeap initial).trace requests) :
    (ofHeap initial).collection.Reported moves := by
  obtain ⟨rest, split⟩ := made
  have legal := ((ofHeap initial).run_leads requests).legal
  rw [← split] at legal
  obtain ⟨tidy, chronicled⟩ := Collection.chronicled_of_legal (tidy_ofHeap built)
    (chronicled_ofHeap built) (Collection.legal_append.mp legal).1
  exact
    { toChronicled := chronicled
      next := fun _ possible => (tidy.booked possible).events
      undisturbed := chronicled.liveCount_of_unabandoned }

/-- The first cycle is abandoned when it has released one node of two, and the second, which
completes, releases the other one. -/
theorem run_reported_after_abandoned_cycle :
    let requests : List Request :=
      [.attach, .allocate, .allocate, .allocateChild 1 .left, .release 6, .sweep, .step 4,
        .allocateChild 4 .left, .detach, .attach, .runCycle]
    let moves := (ofHeap (Heap.fresh 7)).trace requests
    Heap.ofCapacity 7 = .ok (Heap.fresh 7) ∧
      moves <+: (ofHeap (Heap.fresh 7)).trace requests ∧
      (ofHeap (Heap.fresh 7)).collection.Reported moves := by
  intro requests moves
  have built : Heap.ofCapacity 7 = .ok (Heap.fresh 7) := rfl
  have made : moves <+: (ofHeap (Heap.fresh 7)).trace requests := List.prefix_rfl
  exact ⟨built, made, run_reported built made⟩

end Session

end Tricolor
