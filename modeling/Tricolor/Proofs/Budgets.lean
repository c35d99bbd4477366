import Mathlib.Data.Nat.Find
import Tricolor.Proofs.Completion
import Tricolor.Proofs.SteppedCycles

/-!
# Ways of driving a cycle

A cycle may be taken in steps of any size, scanned to rest first and reclaimed then, or
run in one go.  These are the same visits in the same order: each way comes down to a step
with some budget, a budget may be spent in several steps, and once a cycle has completed
what is left of the budget does not matter.
-/

namespace Tricolor

namespace Collection

section Step

variable {collection : Collection} {first second budget : Nat} {report again : CycleReport}

/-- A step without a report leaves nothing undone that the next one would do. -/
theorem step_add_of_none (unreported : (collection.step first).1 = none) (second : Nat) :
    collection.step (first + second) = (collection.step first).2.step second := by
  induction first generalizing collection with
  | zero =>
      rw [Nat.zero_add]
      rfl
  | succ first induction =>
      rw [step] at unreported
      rw [Nat.succ_add, step, step]
      cases spent : collection.markRoots.isSpent with
      | true => simp [spent] at unreported
      | false =>
          simp only [spent, Bool.false_eq_true, if_false] at unreported ⊢
          exact induction unreported

/-- The end of a cycle ends the step, whatever budget is left. -/
theorem step_add_of_some (reported : (collection.step first).1 = some report) (second : Nat) :
    collection.step (first + second) = collection.step first := by
  induction first generalizing collection with
  | zero => cases reported
  | succ first induction =>
      rw [step] at reported
      rw [Nat.succ_add, step, step]
      cases spent : collection.markRoots.isSpent with
      | true => simp only [if_true]
      | false =>
          simp only [spent, Bool.false_eq_true, if_false] at reported ⊢
          exact induction reported

/-- Two steps that both complete the cycle do the same. -/
theorem step_eq_of_reported (reported : (collection.step first).1 = some report)
    (reportedToo : (collection.step second).1 = some again) :
    collection.step first = collection.step second := by
  rcases Nat.le_total first second with shorter | longer
  · obtain ⟨more, rfl⟩ := Nat.exists_eq_add_of_le shorter
    exact (step_add_of_some reported more).symm
  · obtain ⟨more, rfl⟩ := Nat.exists_eq_add_of_le longer
    exact step_add_of_some reportedToo more

theorem step_none_of_add (unreported : (collection.step (first + second)).1 = none) :
    (collection.step first).1 = none := by
  cases found : (collection.step first).1 with
  | none => rfl
  | some report =>
      rw [step_add_of_some found, found] at unreported
      cases unreported

/-- Steps of one size until a report are one step with all their budget. -/
theorem stepUntilReport_eq_step (collection : Collection) (budget calls : Nat) :
    collection.stepUntilReport budget calls = collection.step (budget * calls) := by
  induction calls generalizing collection with
  | zero => rfl
  | succ calls induction =>
      have split : budget * (calls + 1) = budget + budget * calls := by
        rw [Nat.mul_succ, Nat.add_comm]
      unfold stepUntilReport
      rw [split]
      rcases found : collection.step budget with ⟨_ | report, after⟩
      · rw [step_add_of_none (by rw [found]), found]
        exact induction after
      · rw [step_add_of_some (by rw [found]), found]

theorem markRoots_markRoots (collection : Collection) :
    collection.markRoots.markRoots = collection.markRoots :=
  markRoots_of_active collection.position_markRoots

/-- Starting the cycle beforehand makes no difference to a step with any budget. -/
theorem step_markRoots (collection : Collection) (positive : 0 < budget) :
    collection.markRoots.step budget = collection.step budget := by
  obtain ⟨rest, rfl⟩ := Nat.exists_eq_add_of_lt positive
  rw [step, step, markRoots_markRoots]

/-- Scanning is stepping with a budget that runs out no later than the scan ends. -/
theorem exists_step_eq_sweepFor (collection : Collection) (limit : Nat) :
    ∃ units, collection.step units = (none, collection.sweepFor limit) := by
  induction limit generalizing collection with
  | zero => exact ⟨0, rfl⟩
  | succ limit induction =>
      unfold sweepFor
      split
      · rename_i cursor clean position
        obtain ⟨units, stepped⟩ := induction collection.visit
        have active : collection.collector.position ≠ .idle := by simp [position]
        refine ⟨units + 1, ?_⟩
        rw [step, markRoots_of_active active]
        simp only [isSpent_of_sweeping position, Bool.false_eq_true, if_false]
        exact stepped
      · exact ⟨0, rfl⟩

theorem cycleBound_pos (collection : Collection) : 0 < collection.cycleBound :=
  Nat.mul_pos (Nat.succ_pos _) (Nat.succ_pos _)

/-- What is left to do after scanning a step would have done as well. -/
theorem exists_step_sweep (collection : Collection) :
    ∃ units, ∀ more, 0 < more →
      collection.sweep.step more = collection.step (units + more) := by
  obtain ⟨units, stepped⟩ :=
    exists_step_eq_sweepFor collection.markRoots collection.markRoots.cycleBound
  refine ⟨units, fun more positive => ?_⟩
  have unreported : (collection.markRoots.step units).1 = none := by rw [stepped]
  rw [← step_markRoots collection (Nat.add_pos_right units positive),
    step_add_of_none unreported, stepped]
  rfl

/-- Running a cycle is a step with enough budget. -/
theorem exists_step_eq_runCycle (collection : Collection) :
    ∃ budget, 0 < budget ∧ collection.runCycle = collection.step budget := by
  obtain ⟨units, continued⟩ := collection.exists_step_sweep
  have positive := collection.sweep.cycleBound_pos
  exact ⟨_, Nat.add_pos_right units positive, continued _ positive⟩

end Step

namespace Consistent

variable {collection : Collection} {budget : Nat} {report : CycleReport}

/-- The bound of a cycle is budget enough, wherever the cycle stands. -/
theorem step_reports (consistent : collection.Consistent)
    (enough : collection.cycleBound ≤ budget) :
    ∃ report, (collection.step budget).1 = some report := by
  have started := consistent.markRoots
  have sameBound : collection.markRoots.cycleBound = collection.cycleBound := by
    unfold cycleBound capacity
    rw [started.worked.capacity]
  have left : collection.markRoots.visitsLeft < budget :=
    Nat.lt_of_lt_of_le started.consistent.visitsLeft_lt (sameBound ▸ enough)
  have anything : VisitStable fun _ => True := fun _ _ _ _ => trivial
  obtain ⟨spent, _, _, _, completed⟩ := started.consistent.step_completes
    collection.position_markRoots anything trivial left
  have positive := Nat.lt_of_lt_of_le collection.cycleBound_pos enough
  rw [← step_markRoots collection positive, completed]
  exact ⟨_, rfl⟩

/-- Running a cycle always comes to its end. -/
theorem runCycle_returns (consistent : collection.Consistent) :
    ∃ report after, collection.runCycle = (some report, after) := by
  have consistentSwept : collection.sweep.Consistent :=
    consistent_workStable.sweep consistent
  obtain ⟨report, reported⟩ := consistentSwept.step_reports (Nat.le_refl _)
  exact ⟨report, collection.runCycle.2, Prod.ext reported rfl⟩

/-- However a step comes to complete the cycle, it does what running the cycle does. -/
theorem step_eq_runCycle (consistent : collection.Consistent)
    (reported : (collection.step budget).1 = some report) :
    collection.step budget = collection.runCycle := by
  obtain ⟨enough, _, same⟩ := collection.exists_step_eq_runCycle
  obtain ⟨again, after, ran⟩ := consistent.runCycle_returns
  rw [same] at ran ⊢
  exact step_eq_of_reported reported (congrArg Prod.fst ran)

theorem step_cycleBound (consistent : collection.Consistent)
    (enough : collection.cycleBound ≤ budget) :
    collection.step budget = collection.runCycle :=
  have ⟨_, reported⟩ := consistent.step_reports enough
  consistent.step_eq_runCycle reported

/-- Scanning beforehand does not change what running the cycle comes to. -/
theorem runCycle_sweep (consistent : collection.Consistent) :
    collection.sweep.runCycle = collection.runCycle := by
  have consistentSwept : collection.sweep.Consistent :=
    consistent_workStable.sweep consistent
  obtain ⟨report, after, ran⟩ := consistentSwept.runCycle_returns
  obtain ⟨budget, positive, same⟩ := collection.sweep.exists_step_eq_runCycle
  obtain ⟨units, continued⟩ := collection.exists_step_sweep
  have stepped : collection.sweep.runCycle = collection.step (units + budget) :=
    same.trans (continued budget positive)
  rw [stepped] at ran ⊢
  exact consistent.step_eq_runCycle (congrArg Prod.fst ran)

/-- Steps of at least one unit run the cycle to its end. -/
theorem runCycleBy_eq_runCycle (consistent : collection.Consistent) (positive : 0 < budget) :
    collection.runCycleBy budget = collection.runCycle := by
  rw [runCycleBy, stepUntilReport_eq_step]
  exact consistent.step_cycleBound (Nat.le_mul_of_pos_left _ positive)

end Consistent

end Collection

namespace Session

/-- The session whose stepping collector stands where the collection says. -/
def stepping (collection : Collection) (handles : List Handle) : Session :=
  ⟨collection.heap, .stepping collection.collector, handles⟩

section Stepping

variable {collection : Collection} {handles : List Handle}

theorem eq_stepping {session : Session} {collector : Collector}
    (attached : session.driver = .stepping collector) :
    session = stepping ⟨session.heap, collector⟩ session.handles := by
  obtain ⟨heap, driver, handles⟩ := session
  cases attached
  rfl

@[simp] theorem apply_step_stepping (budget : Nat) :
    (stepping collection handles).apply (.step budget) =
      (.report (collection.step budget).1, stepping (collection.step budget).2 handles) :=
  rfl

@[simp] theorem apply_sweep_stepping :
    (stepping collection handles).apply .sweep =
      (.done, stepping collection.sweep handles) :=
  rfl

@[simp] theorem apply_reclaim_stepping :
    (stepping collection handles).apply .reclaim =
      (.report collection.reclaim.1, stepping collection.reclaim.2 handles) :=
  rfl

@[simp] theorem apply_runCycle_stepping :
    (stepping collection handles).apply .runCycle =
      (.report collection.runCycle.1, stepping collection.runCycle.2 handles) :=
  rfl

/-- Steps that leave the cycle unfinished are one step with all their budget. -/
theorem run_steps_stepping {budgets : List Nat}
    (unreported : (collection.step budgets.sum).1 = none) :
    (stepping collection handles).run (budgets.map .step) =
      stepping (collection.step budgets.sum).2 handles := by
  induction budgets generalizing collection with
  | nil => rfl
  | cons budget budgets induction =>
      rw [List.sum_cons] at unreported ⊢
      have first := Collection.step_none_of_add unreported
      rw [Collection.step_add_of_none first] at unreported ⊢
      exact induction unreported

/-- The next step does what one step with all their budget would have done last. -/
theorem apply_step_run_steps {budgets : List Nat}
    (unreported : (collection.step budgets.sum).1 = none) (budget : Nat) :
    ((stepping collection handles).run (budgets.map .step)).apply (.step budget) =
      let stepped := collection.step (budgets.sum + budget)
      (.report stepped.1, stepping stepped.2 handles) := by
  rw [run_steps_stepping unreported, apply_step_stepping,
    Collection.step_add_of_none unreported]

end Stepping

/-- The steps that the first `calls` of the budgets are for. -/
def stepsOf (budgets : Nat → Nat) (calls : Nat) : List Request :=
  (List.range calls).map fun call => .step (budgets call)

section StepsOf

variable {collection : Collection} {handles : List Handle} {budgets : Nat → Nat}

theorem le_sum_budgets (positive : ∀ call, 0 < budgets call) (calls : Nat) :
    calls ≤ ((List.range calls).map budgets).sum := by
  induction calls with
  | zero => exact Nat.zero_le _
  | succ calls induction =>
      have more := positive calls
      rw [List.range_succ, List.map_append, List.sum_append, List.map_singleton,
        List.sum_singleton]
      omega

theorem apply_step_stepsOf {calls : Nat}
    (unreported : (collection.step ((List.range calls).map budgets).sum).1 = none) :
    ((stepping collection handles).run (stepsOf budgets calls)).apply (.step (budgets calls)) =
      let stepped := collection.step ((List.range (calls + 1)).map budgets).sum
      (.report stepped.1, stepping stepped.2 handles) := by
  have steps : stepsOf budgets calls = ((List.range calls).map budgets).map .step := by
    rw [stepsOf, List.map_map]
    rfl
  rw [steps, apply_step_run_steps unreported, List.range_succ, List.map_append,
    List.sum_append, List.map_singleton, List.sum_singleton]

/-- Steps with any positive budgets get a cycle to its end, and all before the last
are without a report. -/
theorem exists_reporting_step (consistent : collection.Consistent) (handles : List Handle)
    (positive : ∀ call, 0 < budgets call) :
    ∃ calls,
      (∀ call < calls, (((stepping collection handles).run (stepsOf budgets call)).apply
        (.step (budgets call))).1 = .report none) ∧
      ((stepping collection handles).run (stepsOf budgets calls)).apply
          (.step (budgets calls)) =
        (.report collection.runCycle.1, stepping collection.runCycle.2 handles) := by
  let reports (calls : Nat) : Bool :=
    (collection.step ((List.range (calls + 1)).map budgets).sum).1.isSome
  have eventually : ∃ calls, reports calls = true := by
    refine ⟨collection.cycleBound, ?_⟩
    have enough := Nat.le_trans (Nat.le_succ _) (le_sum_budgets positive (collection.cycleBound + 1))
    obtain ⟨report, reported⟩ := consistent.step_reports enough
    simp [reports, reported]
  have unreported : ∀ call ≤ Nat.find eventually,
      (collection.step ((List.range call).map budgets).sum).1 = none := by
    intro call before
    cases call with
    | zero => rfl
    | succ call =>
        have early := Nat.find_min eventually (Nat.lt_of_succ_le before)
        simpa [reports] using early
  refine ⟨Nat.find eventually, fun call before => ?_, ?_⟩
  · rw [apply_step_stepsOf (unreported call (Nat.le_of_lt before))]
    exact congrArg Reply.report (unreported (call + 1) before)
  · obtain ⟨report, reported⟩ := Option.isSome_iff_exists.mp (Nat.find_spec eventually)
    rw [apply_step_stepsOf (unreported _ (Nat.le_refl _)),
      ← consistent.step_eq_runCycle reported]

end StepsOf

/-- Wherever the cycle stands, the budgets in which it is taken do not matter.  A step
without a report has spent all of its budget on visits, and the next one takes up where
a longer one would have been; and steps with any positive budgets, scanning first and
reclaiming then, and running the cycle in one go all end in the same report and in the
same session. -/
theorem run_drivenAlike
    {capacity : Nat} {initial : Heap} {requests : List Request} {collector : Collector}
    (built : Heap.ofCapacity capacity = .ok initial)
    (attached : ((ofHeap initial).run requests).driver = .stepping collector) :
    let session := (ofHeap initial).run requests
    (∀ first, (session.apply (.step first)).1 = .report none →
      (∃ moves, session.collection.Leads moves (session.apply (.step first)).2.collection ∧
        moves.count .visit = first ∧ ∀ move ∈ moves, move = .markRoots ∨ move = .visit) ∧
      ∀ second, (session.apply (.step first)).2.apply (.step second) =
        session.apply (.step (first + second))) ∧
    ∃ report after, session.apply .runCycle = (.report (some report), after) ∧
      (session.apply .sweep).2.apply .reclaim = (.report (some report), after) ∧
      ∀ budgets : Nat → Nat, (∀ call, 0 < budgets call) → ∃ calls,
        (∀ call < calls, ((session.run (stepsOf budgets call)).apply
          (.step (budgets call))).1 = .report none) ∧
        (session.run (stepsOf budgets calls)).apply (.step (budgets calls)) =
          (.report (some report), after) := by
  intro session
  have consistentRun : session.collection.Consistent := run_consistent built requests
  obtain ⟨collection, handles, found⟩ :
      ∃ collection handles, session = stepping collection handles :=
    ⟨_, _, eq_stepping attached⟩
  rw [found] at consistentRun ⊢
  have consistent : collection.Consistent := consistentRun
  constructor
  · intro first answered
    have unreported : (collection.step first).1 = none := Reply.report.inj answered
    obtain ⟨counted, interim⟩ := Collection.stepMoves_of_none unreported
    refine ⟨⟨_, collection.step_leads first, counted, interim⟩, fun second => ?_⟩
    rw [apply_step_stepping, apply_step_stepping, apply_step_stepping,
      Collection.step_add_of_none unreported]
  · obtain ⟨report, after, ran⟩ := consistent.runCycle_returns
    refine ⟨report, stepping after handles, ?_, ?_, fun budgets positive => ?_⟩
    · rw [apply_runCycle_stepping, ran]
    · have swept : collection.sweep.reclaim = (some report, after) :=
        consistent.runCycle_sweep.trans ran
      rw [apply_sweep_stepping, apply_reclaim_stepping, swept]
    · have reporting := exists_reporting_step consistent handles positive
      rwa [ran] at reporting

/-- Marking is under way and node 4 has been linked behind the cursor, so that the first
test for rest fails. -/
theorem run_drivenAlike_linked_behind_cursor :
    let session := (ofHeap (Heap.fresh 6)).run [.allocate, .attach, .step 11, .setChild 1 .left 4]
    session.driver = .stepping session.collector ∧
      session.collector.position = .sweeping 5 1 ∧
      (session.apply (.step 1)).2.apply (.step 6) = session.apply (.step 7) ∧
      ∃ report after, session.apply .runCycle = (.report (some report), after) ∧
        ∃ calls, (session.run (stepsOf (fun call => call + 1) calls)).apply (.step (calls + 1)) =
          (.report (some report), after) := by
  intro session
  have built : Heap.ofCapacity 6 = .ok (Heap.fresh 6) := rfl
  have attached : session.driver = .stepping session.collector := by decide
  obtain ⟨again, report, after, ran, _, stepped⟩ := run_drivenAlike built attached
  obtain ⟨calls, _, last⟩ := stepped (fun call => call + 1) Nat.succ_pos
  exact ⟨attached, by decide, (again 1 (by decide)).2 6, report, after, ran, calls, last⟩

end Session

end Tricolor
