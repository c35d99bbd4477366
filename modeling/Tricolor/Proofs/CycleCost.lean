import Tricolor.Proofs.Budgets
import Tricolor.Proofs.CycleBound

/-!
# The cost of a cycle without interference

The first four visits of a cycle blacken the three roots.  From then on less than a round lies
between two blackenings, for after a node has been scanned all grey nodes are among the others.
A last round finds nothing grey, the test for rest succeeds, and the reclaim pass comes to each
node once.  `Pace` keeps count of the visits, and the number of nodes to be blackened bounds
them.
-/

namespace Tricolor

/-- The number of visits by which so many nodes are black, if nobody interferes. -/
def latestBlackening (capacity blackened : Nat) : Nat :=
  4 + (blackened - 3) * (capacity - 1)

section Arithmetic

variable {capacity blackened passes cursor : Nat}

theorem latestBlackening_succ (rooted : 3 ≤ blackened) :
    latestBlackening capacity (blackened + 1) =
      latestBlackening capacity blackened + (capacity - 1) := by
  unfold latestBlackening
  rw [Nat.succ_sub rooted, Nat.succ_mul, Nat.add_assoc]

/-- At most all nodes but the sentinel are blackened. -/
theorem latestBlackening_le (roomy : 4 ≤ capacity) (fits : blackened ≤ capacity - 1) :
    2 * capacity + latestBlackening capacity blackened ≤
      capacity * capacity - 3 * capacity + 8 := by
  have most : (blackened - 3) * (capacity - 1) ≤ (capacity - 4) * (capacity - 1) :=
    Nat.mul_le_mul_right _ (by omega)
  obtain ⟨rest, rfl⟩ := Nat.exists_eq_add_of_le roomy
  have reduced : 4 + rest - 4 = rest := by omega
  have less : 4 + rest - 1 = rest + 3 := by omega
  have square : (4 + rest) * (4 + rest) = rest * (rest + 3) + 5 * rest + 16 := by ring
  rw [reduced, less] at most
  unfold latestBlackening
  rw [less, square]
  omega

/-- Rounds are longer than the way from one blackening to the next. -/
theorem passes_le_pred (roomy : 4 ≤ capacity) (rooted : 3 ≤ blackened)
    (bounded : passes * capacity ≤ capacity + latestBlackening capacity blackened) :
    passes ≤ blackened - 1 := by
  apply Nat.le_of_not_lt
  intro more
  obtain ⟨others, rfl⟩ := Nat.exists_eq_add_of_le rooted
  have rounds : (3 + others) * capacity ≤ passes * capacity :=
    Nat.mul_le_mul_right _ (by omega)
  have shorter : others * (capacity - 1) ≤ others * capacity :=
    Nat.mul_le_mul_left _ (Nat.sub_le ..)
  have extra : 3 + others - 3 = others := by omega
  rw [Nat.add_mul] at rounds
  rw [latestBlackening, extra] at bounded
  omega

/-- The cursor and the number of passes tell how many nodes have been scanned. -/
theorem scanned_succ (inside : cursor < capacity) (passes : Nat) :
    passes * capacity + cursor + 1 =
      (passes + if (cursor + 1) % capacity = 0 then 1 else 0) * capacity +
        (cursor + 1) % capacity := by
  by_cases last : cursor + 1 = capacity
  · rw [last, Nat.mod_self, if_pos rfl, Nat.succ_mul]
    omega
  · rw [Nat.mod_eq_of_lt (by omega), if_neg (Nat.succ_ne_zero cursor)]
    rfl

end Arithmetic

/-- A cycle without interference may still blacken the node. -/
def Heap.Due (heap : Heap) (ref : Ref) : Prop :=
  heap.phase ≠ .reclaiming ∧ (heap.node ref).color ≠ .black

instance Heap.decidableDue (heap : Heap) (ref : Ref) : Decidable (heap.Due ref) :=
  inferInstanceAs (Decidable (_ ∧ _))

namespace Collection

/-- How many visits a cycle has taken so far, if nobody has interfered. -/
inductive Pace (heap : Heap) (report : CycleReport) (visits : Nat) : Position → Prop where
  /-- The scan has not got past the roots yet, and those ahead are grey. -/
  | opening {clean : Nat} (early : visits ≤ Ref.freeRoot)
      (roots : ∀ root ∈ Ref.roots, visits ≤ root → (heap.node root).color = .grey)
      (round : heap.capacity ≤ clean + visits)
      (blackened : report.blackened = visits - 1) (passes : report.passes = 0) :
      Pace heap report visits (.sweeping visits clean)
  /-- All grey nodes lie within the round, and none of them at its end. -/
  | scanning {cursor clean : Nat} (tight : heap.Windowed cursor (clean - 1))
      (rooted : 3 ≤ report.blackened) (scanned : visits = report.passes * heap.capacity + cursor)
      (round : heap.capacity ≤ clean + visits)
      (bounded : clean + visits ≤
        heap.capacity + latestBlackening heap.capacity report.blackened) :
      Pace heap report visits (.sweeping cursor clean)
  | reclaiming {cursor : Nat} (some : 1 ≤ report.passes)
      (few : report.passes ≤ report.blackened - 1)
      (bounded : visits ≤
        heap.capacity + latestBlackening heap.capacity report.blackened + cursor) :
      Pace heap report visits (.reclaiming cursor)

abbrev Paced (collection : Collection) (visits : Nat) : Prop :=
  Pace collection.heap collection.collector.current visits collection.collector.position

namespace Undisturbed

variable {start : Heap} {free : List Ref} {collection : Collection}

theorem blackened_le (undisturbed : collection.Undisturbed start free)
    (ordered : start.WellFormed free) :
    collection.collector.current.blackened ≤ collection.heap.capacity - 1 := by
  have stage := undisturbed.stage
  generalize collection.collector.position = position at stage
  cases stage with
  | tracing traced windowed blackened reclaimed =>
      rw [blackened]
      exact collection.heap.card_blackNodes_le
  | sweeping swept blackened reclaimed =>
      have within : start.retained ⊆ Finset.Ico 1 start.capacity := by
        intro ref member
        have retained := ordered.mem_retained_iff.mp member
        exact Finset.mem_Ico.mpr
          ⟨Nat.pos_of_ne_zero retained.1, ordered.lt_of_retained retained⟩
      have bounded := Finset.card_le_card within
      rwa [Nat.card_Ico, ← blackened, ← swept.capacity] at bounded

end Undisturbed

theorem paced_markRoots {collection : Collection} (consistent : collection.Consistent)
    (idle : collection.collector.position = .idle) :
    collection.markRoots.Paced 0 := by
  have started := started_markRoots idle
  have resting := consistent.resting idle
  obtain ⟨free, ordered⟩ := consistent.ordered
  have report : collection.markRoots.collector.current.blackened = 0 ∧
      collection.markRoots.collector.current.passes = 0 := by
    obtain ⟨heap, collector⟩ := collection
    rw [markRoots_of_idle idle]
    exact ⟨rfl, rfl⟩
  have roots : ∀ root ∈ Ref.roots,
      (collection.markRoots.heap.node root).color = .grey := by
    intro root isRoot
    have proper := (Ref.mem_roots_iff.mp isRoot).1
    have inside := Nat.lt_of_lt_of_le (Ref.lt_of_mem_roots isRoot) ordered.roomy
    have unmarked := resting.not_black (Nat.ne_of_gt proper) inside
    rw [started.color]
    cases color : (collection.heap.node root).color with
    | white => simp [isRoot]
    | grey => simp
    | black => exact absurd color unmarked
  unfold Paced
  rw [started.next]
  apply Pace.opening (Nat.zero_le _) (fun root isRoot _ => roots root isRoot) _ report.1 report.2
  exact Nat.le_of_eq started.capacity

namespace Pace

variable {heap after : Heap} {collector : Collector} {cursor clean visits : Nat}

/-- A scan that blackens a node has a whole round before it, and no grey node at its end. -/
theorem scanning_of_scanned (inside : cursor < heap.capacity)
    (scanned : Heap.Scanned heap cursor after) (rooted : 2 ≤ collector.current.blackened)
    (counted : visits = collector.current.passes * heap.capacity + cursor)
    (bounded : visits + 1 ≤ latestBlackening heap.capacity (collector.current.blackened + 1)) :
    Paced ⟨after, collector.scanned heap.capacity cursor clean true⟩ (visits + 1) := by
  have capacity : after.capacity = heap.capacity := scanned.capacity
  have unmarked : (after.node cursor).color ≠ .grey := by simp [scanned.black]
  have insideAfter : cursor < after.capacity := capacity.symm ▸ inside
  have tight := (Heap.windowed_of_round insideAfter).advance insideAfter unmarked
  rw [capacity] at tight
  apply Pace.scanning tight
  · exact Nat.succ_le_succ rooted
  · rw [capacity, counted]
    exact scanned_succ inside _
  · rw [capacity]
    exact Nat.le_add_right ..
  · rw [capacity]
    exact Nat.add_le_add_left bounded _

/-- The sentinel is not grey, and the first visit only moves on to the roots. -/
theorem sweepVisit_sentinel {free : List Ref} (ordered : heap.WellFormed free)
    (roots : ∀ root ∈ Ref.roots, (heap.node root).color = .grey)
    (round : heap.capacity ≤ clean) (blackened : collector.current.blackened = 0)
    (passes : collector.current.passes = 0) :
    (sweepVisit ⟨heap, collector⟩ 0 clean).Paced 1 := by
  have roomy : 4 ≤ heap.capacity := ordered.roomy
  have unmarked : (heap.node 0).color ≠ .grey := by simp [ordered.sentinelBlack]
  have next : (0 + 1) % heap.capacity = 1 := Nat.mod_eq_of_lt (by omega)
  rw [sweepVisit_of_not_grey unmarked]
  change Pace heap (collector.scanned heap.capacity 0 clean false).current 1
    (.sweeping ((0 + 1) % heap.capacity) (clean - 1))
  rw [next]
  apply Pace.opening (by decide) (fun root isRoot _ => roots root isRoot)
  · omega
  · exact blackened
  · simp [Collector.scanned, passes, next]

theorem sweepVisit_root {free : List Ref} (ordered : heap.WellFormed free)
    (early : visits ≤ Ref.freeRoot) (started : visits ≠ 0)
    (roots : ∀ root ∈ Ref.roots, visits ≤ root → (heap.node root).color = .grey)
    (blackened : collector.current.blackened = visits - 1)
    (passes : collector.current.passes = 0) :
    (sweepVisit ⟨heap, collector⟩ visits clean).Paced (visits + 1) := by
  have roomy : 4 ≤ heap.capacity := ordered.roomy
  have isRoot : visits ∈ Ref.roots :=
    Ref.mem_roots_iff.mpr ⟨Nat.pos_of_ne_zero started, early⟩
  have grey := roots visits isRoot (Nat.le_refl visits)
  have scanned := Heap.scanned_scan grey
  rw [sweepVisit_of_grey grey]
  generalize heap.scan visits = after at *
  by_cases last : visits = Ref.freeRoot
  · subst last
    apply scanning_of_scanned roomy scanned
    · exact Nat.le_of_eq blackened.symm
    · simp [passes]
    · simp [blackened, latestBlackening]
  · have ahead : visits + 1 ≤ Ref.freeRoot := Nat.lt_of_le_of_ne early last
    have next : (visits + 1) % heap.capacity = visits + 1 :=
      Nat.mod_eq_of_lt (Nat.lt_of_le_of_lt ahead roomy)
    change Pace after (collector.scanned heap.capacity visits clean true).current (visits + 1)
      (.sweeping ((visits + 1) % heap.capacity) heap.capacity)
    rw [next]
    apply Pace.opening ahead
    · intro root other later
      have different : root ≠ visits := Nat.ne_of_gt later
      exact (scanned.color root different).grey (roots root other (Nat.le_of_succ_le later))
    · rw [scanned.capacity]
      exact Nat.le_add_right ..
    · change collector.current.blackened + 1 = visits + 1 - 1
      omega
    · simp [Collector.scanned, passes, next]

theorem sweepVisit {free : List Ref} (ordered : heap.WellFormed free)
    (inside : cursor < heap.capacity) (pending : clean ≠ 0)
    (pace : Pace heap collector.current visits (.sweeping cursor clean)) :
    (Collection.sweepVisit ⟨heap, collector⟩ cursor clean).Paced (visits + 1) := by
  cases pace with
  | opening early roots round blackened passes =>
      by_cases started : cursor = 0
      · subst started
        exact sweepVisit_sentinel ordered
          (fun root isRoot => roots root isRoot (Nat.zero_le root)) round blackened passes
      · exact sweepVisit_root ordered early started roots blackened passes
  | scanning tight rooted counted round bounded =>
      by_cases grey : (heap.node cursor).color = .grey
      · have scanned := Heap.scanned_scan grey
        obtain ⟨offset, within, _⟩ := tight cursor grey
        rw [sweepVisit_of_grey grey]
        apply scanning_of_scanned inside scanned (Nat.le_of_succ_le rooted) counted
        rw [latestBlackening_succ rooted]
        omega
      · rw [sweepVisit_of_not_grey grey]
        change Pace heap (collector.scanned heap.capacity cursor clean false).current (visits + 1)
          (.sweeping ((cursor + 1) % heap.capacity) (clean - 1))
        apply Pace.scanning (tight.advance inside grey)
        · exact rooted
        · rw [counted]
          exact scanned_succ inside _
        · omega
        · change clean - 1 + (visits + 1) ≤
            heap.capacity + latestBlackening heap.capacity collector.current.blackened
          omega

/-- Nothing is grey after a clean round, so that the reclaim pass begins. -/
theorem tryQuiesce {free : List Ref} (ordered : heap.WellFormed free)
    (inside : cursor < heap.capacity)
    (pace : Pace heap collector.current visits (.sweeping cursor 0)) :
    (Collection.tryQuiesce ⟨heap, collector⟩ cursor).Paced (visits + 1) := by
  have roomy : 4 ≤ heap.capacity := ordered.roomy
  cases pace with
  | opening early roots round blackened passes =>
      have lowest : cursor ≤ 3 := early
      omega
  | scanning tight rooted counted round bounded =>
      have settled := ordered.greyCounted.eq_zero_iff.mpr tight.noGrey
      rw [tryQuiesce_of_settled settled]
      apply Pace.reclaiming
      · -- Without a pass the scan would not have come round to its cursor.
        apply Nat.pos_of_ne_zero
        intro none
        rw [none] at counted
        omega
      · apply passes_le_pred roomy rooted
        change collector.current.passes * heap.capacity ≤ _
        omega
      · change visits + 1 ≤
          heap.capacity + latestBlackening heap.capacity collector.current.blackened + 1
        omega

theorem reclaiming_succ {report reportAfter : CycleReport}
    (pace : Pace heap report visits (.reclaiming cursor))
    (capacity : after.capacity = heap.capacity)
    (blackened : reportAfter.blackened = report.blackened)
    (passes : reportAfter.passes = report.passes) :
    Pace after reportAfter (visits + 1) (.reclaiming (cursor + 1)) := by
  cases pace with
  | reclaiming some few bounded =>
      apply Pace.reclaiming
      · rwa [passes]
      · rwa [passes, blackened]
      · rw [capacity, blackened]
        exact Nat.succ_le_succ bounded

theorem reclaimVisit (consistent : Consistent ⟨heap, collector⟩)
    (position : collector.position = .reclaiming cursor) (inside : cursor < heap.capacity)
    (pace : Pace heap collector.current visits (.reclaiming cursor)) :
    (Collection.reclaimVisit ⟨heap, collector⟩ cursor).Paced (visits + 1) := by
  have capacity := (consistent.reclaimVisit position inside).worked.capacity
  by_cases garbage : heap.Garbage cursor
  · rw [reclaimVisit_of_garbage garbage] at capacity ⊢
    exact pace.reclaiming_succ capacity rfl rfl
  · rw [reclaimVisit_of_not_garbage garbage] at capacity ⊢
    exact pace.reclaiming_succ capacity rfl rfl

end Pace

theorem Paced.visit {collection : Collection} {visits : Nat} (paced : collection.Paced visits)
    (consistent : collection.Consistent) (active : collection.collector.position ≠ .idle)
    (pending : collection.isSpent = false) :
    collection.visit.Paced (visits + 1) := by
  obtain ⟨heap, collector⟩ := collection
  obtain ⟨free, ordered⟩ := consistent.ordered
  unfold Collection.visit
  unfold Paced at paced
  cases position : collector.position with
  | idle => exact absurd position active
  | sweeping cursor clean =>
      have inside := (consistent.sweeping position).2.1
      rw [position] at paced
      by_cases expired : clean = 0
      · subst expired
        exact paced.tryQuiesce ordered inside
      · simp only [if_neg expired]
        exact paced.sweepVisit ordered inside expired
  | reclaiming cursor =>
      rw [position] at paced
      exact paced.reclaimVisit consistent position (inside_of_pending pending position)

/-- What is left of the cycle does not matter: the visits made so far are within the bound. -/
theorem Undisturbed.visits_le {start : Heap} {free : List Ref} {collection : Collection}
    {visits : Nat} (undisturbed : collection.Undisturbed start free)
    (ordered : start.WellFormed free) (paced : collection.Paced visits) :
    visits ≤ collection.heap.capacity * collection.heap.capacity -
      3 * collection.heap.capacity + 8 := by
  obtain ⟨_, orderedNow⟩ := undisturbed.consistent.ordered
  have roomy : 4 ≤ collection.heap.capacity := orderedNow.roomy
  have within := latestBlackening_le roomy (undisturbed.blackened_le ordered)
  have consistent := undisturbed.consistent
  cases position : collection.collector.position with
  | idle => exact absurd position undisturbed.not_idle
  | sweeping cursor clean =>
      rw [Paced, position] at paced
      cases paced with
      | opening early roots round blackened passes =>
          have lowest : visits ≤ 3 := early
          omega
      | scanning tight rooted counted round bounded => omega
  | reclaiming cursor =>
      have reached := (consistent.reclaiming position).bounded
      rw [Paced, position] at paced
      cases paced with
      | reclaiming some few bounded => omega

/-- A cycle that is taken from rest, as far as the moves have got, without interference. -/
structure Efficient (start : Collection) (work : List Move) : Prop where
  bounded : work.count .visit ≤
    start.heap.capacity * start.heap.capacity - 3 * start.heap.capacity + 8
  once : ∀ ref, (start.blackened work).count ref ≤ 1
  /-- A test for rest succeeds, so there is only one. -/
  settles : ∀ before rest cursor, work = before ++ .visit :: rest →
    (start.replay before).collector.position = .sweeping cursor 0 →
    (start.replay (before ++ [.visit])).heap.phase = .reclaiming
  /-- Once the reclaim pass is through, the report tells of at least one pass, and of fewer
  than nodes blackened. -/
  reports : (start.replay work).isSpent = true →
    1 ≤ (start.replay work).finish.1.passes ∧
      (start.replay work).finish.1.passes ≤ (start.replay work).finish.1.blackened - 1

section Work

variable {start collection : Collection} {begun : Heap} {free : List Ref} {visits : Nat}
  {work : List Move}

/-- The visits of a cycle in progress. -/
theorem Undisturbed.replay (undisturbed : collection.Undisturbed begun free)
    (ordered : begun.WellFormed free) (paced : collection.Paced visits)
    (legal : collection.Legal work) (visiting : ∀ move ∈ work, move = .markRoots ∨ move = .visit) :
    (collection.replay work).Undisturbed begun free ∧
      (collection.replay work).Paced (visits + work.count .visit) := by
  induction work generalizing collection visits with
  | nil => exact ⟨undisturbed, paced⟩
  | cons move work induction =>
      obtain ⟨possible, rest⟩ := legal
      have later : ∀ move ∈ work, move = .markRoots ∨ move = .visit :=
        fun move member => visiting move (List.mem_cons_of_mem _ member)
      rcases visiting move List.mem_cons_self with rfl | rfl
      · exact absurd possible undisturbed.not_idle
      · have advanced := (undisturbed.visit ordered possible.2).1
        have pacedAfter := paced.visit undisturbed.consistent possible.1 possible.2
        rw [List.count_cons_self, Nat.add_comm _ 1, ← Nat.add_assoc]
        exact induction advanced pacedAfter rest later

/-- From rest the roots are marked first, unless there is nothing done at all. -/
theorem Consistent.undisturbed_replay (consistent : start.Consistent)
    (idle : start.collector.position = .idle) (ordered : start.heap.WellFormed free)
    (legal : start.Legal work) (visiting : ∀ move ∈ work, move = .markRoots ∨ move = .visit) :
    work = [] ∨ (start.replay work).Undisturbed start.heap free ∧
      (start.replay work).Paced (work.count .visit) := by
  cases work with
  | nil => exact .inl rfl
  | cons move work =>
      obtain ⟨possible, rest⟩ := legal
      have later : ∀ move ∈ work, move = .markRoots ∨ move = .visit :=
        fun move member => visiting move (List.mem_cons_of_mem _ member)
      rcases visiting move List.mem_cons_self with rfl | rfl
      · have begun := Undisturbed.markRoots consistent idle ordered
        have continued := begun.replay ordered (paced_markRoots consistent idle) rest later
        rw [Nat.zero_add] at continued
        exact .inr continued
      · exact absurd idle possible.1

/-- Nothing that a collector does in a cycle makes a node due again. -/
theorem Consistent.due_perform {move : Move} (consistent : collection.Consistent)
    (possible : collection.Possible move) (visiting : move = .markRoots ∨ move = .visit)
    (ref : Ref) :
    ((collection.perform move).heap.Due ref → collection.heap.Due ref) ∧
      ((collection.heap.node ref).color ≠ .black →
        ((collection.perform move).heap.node ref).color = .black → collection.heap.Due ref) := by
  rcases visiting with rfl | rfl
  · have phase := (consistent.resting possible).phase
    have started := started_markRoots possible
    have still : (collection.heap.node ref).color = .black →
        (collection.markRoots.heap.node ref).color = .black := by
      intro black
      simp [started.color, black]
    have notReclaiming : collection.heap.phase ≠ .reclaiming := by simp [phase]
    exact ⟨fun due => ⟨notReclaiming, fun black => due.2 (still black)⟩,
      fun notBlack _ => ⟨notReclaiming, notBlack⟩⟩
  · cases consistent.visited possible.1 possible.2 with
    | @scanned cursor clean position pending scanned next =>
        have phase := (consistent.sweeping position).1.phase
        have notReclaiming : collection.heap.phase ≠ .reclaiming := by simp [phase]
        have still : (collection.heap.node ref).color = .black →
            (collection.visit.heap.node ref).color = .black := by
          intro black
          have different : ref ≠ cursor := by
            rintro rfl
            exact Color.noConfusion (scanned.grey.symm.trans black)
          exact (scanned.color ref different).black_iff.mpr black
        exact ⟨fun due => ⟨notReclaiming, fun black => due.2 (still black)⟩,
          fun notBlack _ => ⟨notReclaiming, notBlack⟩⟩
    | passed position pending unmarked same next =>
        rw [perform_visit, same]
        exact ⟨id, fun notBlack black => absurd black notBlack⟩
    | resumed position grey same next =>
        rw [perform_visit, same]
        exact ⟨id, fun notBlack black => absurd black notBlack⟩
    | settled position settled same phase next =>
        rw [perform_visit, same.node]
        exact ⟨fun due => absurd phase due.1, fun notBlack black => absurd black notBlack⟩
    | freed position inside garbage pushed next =>
        have phase := pushed.phase.trans (consistent.reclaiming position).phase
        rw [perform_visit, pushed.color]
        exact ⟨fun due => absurd phase due.1, fun notBlack black => absurd black notBlack⟩
    | @spared cursor position inside spared whitened next =>
        have phase : collection.visit.heap.phase = .reclaiming := by
          rw [whitened, Heap.phase_whiten_moveFrontier, (consistent.reclaiming position).phase]
        refine ⟨fun due => absurd phase due.1, fun notBlack black => ?_⟩
        rw [perform_visit, whitened, Heap.color_whiten] at black
        split at black
        · cases black
        · exact absurd black notBlack

theorem Consistent.count_blackened_le_one (consistent : start.Consistent)
    (legal : start.Legal work) (visiting : ∀ move ∈ work, move = .markRoots ∨ move = .visit)
    (ref : Ref) :
    (start.blackened work).count ref ≤ 1 := by
  have paid : (start.blackened work).count ref +
      (if (start.replay work).heap.Due ref then 1 else 0) ≤
        if start.heap.Due ref then 1 else 0 := by
    apply count_blackened_add_weight (fun heap => if heap.Due ref then 1 else 0) ref _
      consistent legal visiting
    intro collection move consistent possible visiting
    obtain ⟨lower, due⟩ := consistent.due_perform possible visiting ref
    constructor
    · split
      · rename_i still
        rw [if_pos (lower still)]
      · exact Nat.zero_le _
    · intro notBlack black
      rw [if_pos (due notBlack black), if_neg (fun still => still.2 black)]
      exact Nat.zero_lt_one
  have once : (if start.heap.Due ref then 1 else 0) ≤ 1 := by split <;> simp
  exact (Nat.le_of_add_right_le paid).trans once

/-- After a clean round there is nothing grey, and the test for rest succeeds. -/
theorem Undisturbed.settles {cursor : Nat} (undisturbed : collection.Undisturbed begun free)
    (position : collection.collector.position = .sweeping cursor 0) :
    collection.visit.heap.phase = .reclaiming := by
  obtain ⟨_, ordered⟩ := undisturbed.consistent.ordered
  have stage := undisturbed.stage
  rw [position] at stage
  cases stage with
  | tracing traced windowed blackened reclaimed =>
      have settled := ordered.greyCounted.eq_zero_iff.mpr windowed.noGrey
      have tested : collection.visit = collection.tryQuiesce cursor := by
        simp [Collection.visit, position]
      obtain ⟨heap, collector⟩ := collection
      rw [tested, tryQuiesce_of_settled settled]

theorem Consistent.efficient (consistent : start.Consistent)
    (idle : start.collector.position = .idle) (legal : start.Legal work)
    (visiting : ∀ move ∈ work, move = .markRoots ∨ move = .visit) :
    start.Efficient work := by
  obtain ⟨free, ordered⟩ := consistent.ordered
  refine
    { bounded := ?_
      once := consistent.count_blackened_le_one legal visiting
      settles := ?_
      reports := fun spent => ?_ }
  · rcases consistent.undisturbed_replay idle ordered legal visiting with
      rfl | ⟨undisturbed, paced⟩
    · exact Nat.zero_le _
    · have bounded := undisturbed.visits_le ordered paced
      rwa [consistent.capacity_replay legal] at bounded
  · rintro before rest cursor rfl position
    obtain ⟨legalBefore, possible, _⟩ := legal_append.mp legal
    have visitingBefore : ∀ move ∈ before, move = .markRoots ∨ move = .visit :=
      fun move member => visiting move (List.mem_append_left _ member)
    rcases consistent.undisturbed_replay idle ordered legalBefore visitingBefore with
      rfl | ⟨undisturbed, paced⟩
    · exact absurd idle possible.1
    · rw [replay_append]
      exact undisturbed.settles position
  · obtain ⟨cursor, position, _⟩ := (isSpent_iff _).mp spent
    rcases consistent.undisturbed_replay idle ordered legal visiting with
      rfl | ⟨undisturbed, paced⟩
    · exact Position.noConfusion (idle.symm.trans position)
    · rw [Paced, position] at paced
      cases paced with
      | reclaiming some few bounded => exact ⟨some, few⟩

/-- A step from rest completes the cycle if its budget exceeds the number of visits. -/
theorem Consistent.exists_cost (consistent : start.Consistent)
    (idle : start.collector.position = .idle) :
    ∃ visits report after,
      visits ≤ start.heap.capacity * start.heap.capacity - 3 * start.heap.capacity + 8 ∧
      (∀ budget ≤ visits, (start.step budget).1 = none) ∧
      (∀ budget, visits < budget → start.step budget = (some report, after)) ∧
      1 ≤ report.passes ∧ report.passes ≤ report.blackened - 1 := by
  generalize least : start.heap.capacity * start.heap.capacity -
    3 * start.heap.capacity + 8 = bound
  have enough : (start.step (bound + 1)).1.isSome = true := by
    rw [Option.isSome_iff_ne_none]
    intro unreported
    obtain ⟨counted, visiting⟩ := stepMoves_of_none unreported
    have bounded := (consistent.efficient idle (start.step_leads _).legal visiting).bounded
    omega
  have eventually : ∃ budget, (start.step budget).1.isSome = true := ⟨bound + 1, enough⟩
  have started : Nat.find eventually ≠ 0 := by
    intro none
    have reported := Nat.find_spec eventually
    rw [none] at reported
    cases reported
  obtain ⟨visits, found⟩ := Nat.exists_eq_succ_of_ne_zero started
  obtain ⟨report, reported⟩ := Option.isSome_iff_exists.mp (Nat.find_spec eventually)
  have soonest := Nat.find_min' eventually enough
  rw [found] at reported soonest
  refine ⟨visits, report, (start.step (visits + 1)).2, Nat.le_of_succ_le_succ soonest,
    fun budget within => ?_, fun budget more => ?_, ?_⟩
  · have early : budget < Nat.find eventually := found ▸ Nat.lt_succ_of_le within
    exact Option.not_isSome_iff_eq_none.mp (Nat.find_min eventually early)
  · obtain ⟨rest, rfl⟩ := Nat.exists_eq_add_of_le (Nat.succ_le_of_lt more)
    rw [step_add_of_some reported]
    exact Prod.ext reported rfl
  · obtain ⟨work, split, visiting, rfl⟩ := stepMoves_of_some reported
    have legal := (start.step_leads (visits + 1)).legal
    rw [split] at legal
    obtain ⟨legalWork, spent, _⟩ := legal_append.mp legal
    exact (consistent.efficient idle legalWork visiting).reports spent

end Work

end Collection

namespace Session

/-- It does not matter in how many steps a cycle is taken: a step has a report to give if it gets
past the visits that the cycle costs. -/
theorem exists_cost_stepping {collection : Collection} (consistent : collection.Consistent)
    (idle : collection.collector.position = .idle) (handles : List Handle) :
    ∃ visits report after,
      visits ≤ collection.heap.capacity * collection.heap.capacity -
        3 * collection.heap.capacity + 8 ∧
      (∀ budgets : List Nat, budgets.sum ≤ visits → ∀ budget,
        let answer := ((stepping collection handles).run (budgets.map .step)).apply (.step budget)
        (budgets.sum + budget ≤ visits → answer.1 = .report none) ∧
          (visits < budgets.sum + budget → answer = (.report (some report), after))) ∧
      1 ≤ report.passes ∧ report.passes ≤ report.blackened - 1 := by
  obtain ⟨visits, report, after, bounded, unreported, reported, passes⟩ :=
    consistent.exists_cost idle
  refine ⟨visits, report, stepping after handles, bounded, fun budgets within budget => ?_,
    passes⟩
  rw [apply_step_run_steps (unreported _ within)]
  constructor
  · exact fun few => congrArg Reply.report (unreported _ few)
  · intro more
    rw [reported _ more]

/-- A cycle that starts from rest and that no mutator interferes with blackens each node at most
once, comes to rest at its first test, and takes a number of visits that is quadratic in the
number of nodes.  In however many steps it is taken, the one that gets past these visits has a
report to give, and the scan of which it reports has gone round less often than nodes have been
blackened. -/
theorem run_efficient {capacity : Nat} {initial : Heap} {requests : List Request}
    (built : Heap.ofCapacity capacity = .ok initial)
    (idle : ((ofHeap initial).run requests).heap.phase = .idle) :
    let session := (ofHeap initial).run requests
    (∀ work, session.collection.Legal work →
      (∀ move ∈ work, move = .markRoots ∨ move = .visit) → session.collection.Efficient work) ∧
    ∀ collector, session.driver = .stepping collector →
      ∃ visits report after, visits ≤ capacity * capacity - 3 * capacity + 8 ∧
        (∀ budgets : List Nat, budgets.sum ≤ visits → ∀ budget,
          let answer := (session.run (budgets.map .step)).apply (.step budget)
          (budgets.sum + budget ≤ visits → answer.1 = .report none) ∧
            (visits < budgets.sum + budget → answer = (.report (some report), after))) ∧
        session.apply (.step (capacity * capacity)) = (.report (some report), after) ∧
        1 ≤ report.passes ∧ report.passes ≤ report.blackened - 1 := by
  intro session
  have consistent : session.collection.Consistent := run_consistent built requests
  have atRest := consistent.phase_eq_idle_iff.mpr idle
  have size : session.collection.heap.capacity = capacity := run_capacity built requests
  refine ⟨fun work legal visiting => consistent.efficient atRest legal visiting,
    fun collector attached => ?_⟩
  obtain ⟨collection, handles, found⟩ :
      ∃ collection handles, session = stepping collection handles :=
    ⟨_, _, eq_stepping attached⟩
  rw [found] at consistent atRest size ⊢
  obtain ⟨visits, report, after, bounded, steps, passes⟩ :=
    exists_cost_stepping consistent atRest handles
  rw [size] at bounded
  have roomy : 4 ≤ capacity := (Heap.of_ofCapacity built).1
  have rounds : 4 * capacity ≤ capacity * capacity := Nat.mul_le_mul_right capacity roomy
  have enough : visits < ([] : List Nat).sum + capacity * capacity := by
    rw [List.sum_nil]
    omega
  exact ⟨visits, report, after, bounded, steps, (steps [] (Nat.zero_le _) _).2 enough, passes⟩

/-- Root 1 leads to node 5 and this to node 4, against the direction of the scan. -/
theorem run_efficient_against_scan :
    let requests : List Request := [.allocateChild 1 .right, .allocateChild 1 .left,
      .setChild 5 .left 4, .setChild 1 .right 0, .attach]
    let session := (ofHeap (Heap.fresh 6)).run requests
    let work := (session.moves (.step 36)).take 24
    Heap.ofCapacity 6 = .ok (Heap.fresh 6) ∧ session.heap.phase = .idle ∧
      session.driver = .stepping {} ∧ session.collection.Legal work ∧
      session.collection.Efficient work ∧
      ∃ visits report after, visits ≤ 26 ∧
        session.apply (.step 36) = (.report (some report), after) ∧
        (session.run [.step visits]).apply (.step 1) = (.report (some report), after) ∧
        report.passes ≤ report.blackened - 1 := by
  intro requests session work
  have built : Heap.ofCapacity 6 = .ok (Heap.fresh 6) := rfl
  have idle : session.heap.phase = .idle := by decide +kernel
  have attached : session.driver = .stepping {} := by decide +kernel
  have visiting : ∀ move ∈ work, move = .markRoots ∨ move = .visit := by decide +kernel
  have split : session.moves (.step 36) = work ++ [.finish] := by decide +kernel
  have legalStep := (session.apply_leads (.step 36)).legal
  rw [split] at legalStep
  have legal := (Collection.legal_append.mp legalStep).1
  obtain ⟨efficient, stepped⟩ := run_efficient built idle
  obtain ⟨visits, report, after, bounded, steps, reported, _, few⟩ := stepped {} attached
  have last := (steps [visits] (by simp) 1).2 (by simp)
  exact ⟨built, idle, attached, legal, efficient work legal visiting, visits, report, after,
    bounded, reported, last, few⟩

end Session

end Tricolor
