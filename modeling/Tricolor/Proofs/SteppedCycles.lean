import Mathlib.Algebra.GroupWithZero.Nat
import Tricolor.Proofs.Moves
import Tricolor.Proofs.Visits

/-!
# Cycles taken step by step

The owner of a collector may take a cycle in steps and let mutators run in between.
Until a step has a report to give, the moves of such a run are those of mutators and
the visits that the budgets of its steps allow for.
-/

namespace Tricolor

/-- The units of work that a request allows for. -/
def Request.budget : Request → Nat
  | .step budget => budget
  | _ => 0

/-- The move leaves a cycle in progress and the collector attached. -/
def Move.Interim : Move → Prop
  | .mutate _ => True
  | .markRoots => True
  | .visit => True
  | _ => False

namespace Collection

variable {collection : Collection}

theorem noted_append
    (note : Move → Node → Node → Bool) (collection : Collection) (moves more : List Move) :
    collection.noted note (moves ++ more) =
      collection.noted note moves ++ (collection.replay moves).noted note more := by
  induction moves generalizing collection with
  | nil => rfl
  | cons move moves induction =>
      simp only [List.cons_append, noted, induction, replay_cons, List.append_assoc]

theorem mem_startMoves {move : Move} (member : move ∈ collection.startMoves) :
    move = .markRoots := by
  unfold startMoves at member
  split at member
  · simpa using member
  · cases member

theorem count_startMoves (collection : Collection) :
    collection.startMoves.count .visit = 0 := by
  rw [List.count_eq_zero]
  intro member
  exact Move.noConfusion (mem_startMoves member)

/-- A step without a report makes as many visits as it has budget for. -/
theorem stepMoves_of_none {budget : Nat} (unreported : (collection.step budget).1 = none) :
    (collection.stepMoves budget).count .visit = budget ∧
      ∀ move ∈ collection.stepMoves budget, move = .markRoots ∨ move = .visit := by
  induction budget generalizing collection with
  | zero => simp [stepMoves]
  | succ budget induction =>
      rw [step] at unreported
      rw [stepMoves]
      cases spent : collection.markRoots.isSpent with
      | true => simp [spent] at unreported
      | false =>
          simp only [spent, Bool.false_eq_true, if_false] at unreported ⊢
          obtain ⟨counted, interim⟩ := induction unreported
          constructor
          · rw [List.count_append, count_startMoves, List.count_cons_self, counted, Nat.zero_add]
          · intro move member
            rcases List.mem_append.mp member with start | rest
            · exact .inl (mem_startMoves start)
            · rcases List.mem_cons.mp rest with rfl | later
              · exact .inr rfl
              · exact interim move later

/-- A step with a report ends with the end of the cycle. -/
theorem stepMoves_of_some {budget : Nat} {report : CycleReport}
    (reported : (collection.step budget).1 = some report) :
    ∃ moves, collection.stepMoves budget = moves ++ [.finish] ∧
      (∀ move ∈ moves, move = .markRoots ∨ move = .visit) ∧
      report = (collection.replay moves).finish.1 := by
  induction budget generalizing collection with
  | zero => cases reported
  | succ budget induction =>
      have started := collection.markRoots_leads.replay
      rw [step] at reported
      rw [stepMoves]
      cases spent : collection.markRoots.isSpent with
      | true =>
          simp only [spent, if_true, Option.some.injEq] at reported
          refine ⟨collection.startMoves, rfl, fun move member => .inl (mem_startMoves member), ?_⟩
          rw [started]
          exact reported.symm
      | false =>
          simp only [spent, Bool.false_eq_true, if_false] at reported ⊢
          obtain ⟨moves, split, interim, finished⟩ := induction reported
          refine ⟨collection.startMoves ++ .visit :: moves, by simp [split], ?_, ?_⟩
          · intro move member
            rcases List.mem_append.mp member with start | rest
            · exact .inl (mem_startMoves start)
            · rcases List.mem_cons.mp rest with rfl | later
              · exact .inr rfl
              · exact interim move later
          · rw [replay_append, started, replay_cons, perform_visit]
            exact finished

end Collection

namespace Session

/-- Either a mutator makes the request, or it is a step after which there is nothing
to report yet. -/
def Interim (session : Session) (request : Request) : Prop :=
  match request with
  | .step budget => (session.apply (.step budget)).1 = .report none
  | _ => request.mutation?.isSome = true

/-- The requests leave a stepped cycle unfinished, or leave it to be started. -/
def Unfinished : Session → List Request → Prop
  | _, [] => True
  | session, request :: requests =>
      session.Interim request ∧ Unfinished (session.apply request).2 requests

/-- The nodes that collector work takes out of use in the course of a run. -/
def collected (session : Session) (requests : List Request) : List Ref :=
  session.collection.collected (session.trace requests)

variable {session : Session} {requests more : List Request} {request : Request}
  {collector : Collector}

theorem run_append (session : Session) (requests more : List Request) :
    session.run (requests ++ more) = (session.run requests).run more := by
  simp [run]

theorem trace_append (session : Session) (requests more : List Request) :
    session.trace (requests ++ more) =
      session.trace requests ++ (session.run requests).trace more := by
  induction requests generalizing session with
  | nil => rfl
  | cons request requests induction =>
      rw [List.cons_append, trace, trace, induction, List.append_assoc]
      rfl

theorem unfinished_append :
    session.Unfinished (requests ++ more) ↔
      session.Unfinished requests ∧ (session.run requests).Unfinished more := by
  induction requests generalizing session with
  | nil => simp [Unfinished, run]
  | cons request requests induction =>
      simp only [List.cons_append, Unfinished, induction, and_assoc]
      rfl

theorem moves_of_mutation (performs : request.mutation?.isSome = true) :
    session.moves request = [.mutate request] := by
  cases request with
  | allocate => rfl
  | release => rfl
  | setChild => rfl
  | allocateChild => rfl
  | shade => rfl
  | _ => cases performs

theorem driver_mutate
    {α : Type} (session : Session) (reply : α → Reply) (operation : Heap → Outcome α) :
    (session.mutate reply operation).2.driver = session.driver := by
  rw [mutate_snd]

theorem driver_of_mutation (performs : request.mutation?.isSome = true) :
    (session.apply request).2.driver = session.driver := by
  cases request with
  | allocate => exact session.driver_mutate ..
  | release => exact session.driver_mutate ..
  | setChild => exact session.driver_mutate ..
  | allocateChild => exact session.driver_mutate ..
  | shade => exact session.driver_mutate ..
  | _ => cases performs

theorem moves_of_step (attached : session.driver = .stepping collector) (budget : Nat) :
    session.moves (.step budget) = session.collection.stepMoves budget := by
  obtain ⟨heap, driver, handles⟩ := session
  cases attached
  rfl

theorem reply_of_step (attached : session.driver = .stepping collector) (budget : Nat) :
    (session.apply (.step budget)).1 = .report (session.collection.step budget).1 := by
  obtain ⟨heap, driver, handles⟩ := session
  cases attached
  rfl

theorem driver_of_step (attached : session.driver = .stepping collector) (budget : Nat) :
    ∃ collector, (session.apply (.step budget)).2.driver = .stepping collector := by
  obtain ⟨heap, driver, handles⟩ := session
  cases attached
  exact ⟨_, rfl⟩

theorem Interim.driver (interim : session.Interim request)
    (attached : session.driver = .stepping collector) :
    ∃ collector, (session.apply request).2.driver = .stepping collector := by
  cases request with
  | step budget => exact driver_of_step attached budget
  | _ => exact ⟨collector, (driver_of_mutation interim).trans attached⟩

/-- A mutator makes one move; a step without a report makes as many visits as it has
budget for. -/
theorem Interim.moves (interim : session.Interim request)
    (attached : session.driver = .stepping collector) :
    (session.moves request).count .visit = request.budget ∧
      (session.moves request = [.mutate request] ∨
        ∀ move ∈ session.moves request, move = .markRoots ∨ move = .visit) := by
  cases request with
  | step budget =>
      have unreported : (session.collection.step budget).1 = none := by
        have reply := (reply_of_step attached budget).symm.trans interim
        exact Reply.report.inj reply
      obtain ⟨counted, work⟩ := Collection.stepMoves_of_none unreported
      rw [moves_of_step attached]
      exact ⟨counted, .inr work⟩
  | _ =>
      rw [moves_of_mutation interim]
      exact ⟨rfl, .inl rfl⟩

theorem Interim.interim_moves (interim : session.Interim request)
    (attached : session.driver = .stepping collector) :
    ∀ move ∈ session.moves request, move.Interim := by
  intro move member
  rcases (interim.moves attached).2 with single | work
  · rw [single, List.mem_singleton] at member
    subst member
    trivial
  · rcases work move member with rfl | rfl <;> trivial

namespace Unfinished

/-- The collector stays with its owner. -/
theorem driver (unfinished : session.Unfinished requests)
    (attached : session.driver = .stepping collector) :
    ∃ collector, (session.run requests).driver = .stepping collector := by
  induction requests generalizing session collector with
  | nil => exact ⟨collector, attached⟩
  | cons request requests induction =>
      obtain ⟨interim, rest⟩ := unfinished
      obtain ⟨_, stillAttached⟩ := interim.driver attached
      exact induction rest stillAttached

/-- All budget is spent on visits, and nothing but visits, the start of a cycle and
mutators is met. -/
theorem moves (unfinished : session.Unfinished requests)
    (attached : session.driver = .stepping collector) :
    (session.trace requests).count .visit = (requests.map Request.budget).sum ∧
      ∀ move ∈ session.trace requests, move.Interim := by
  induction requests generalizing session collector with
  | nil => simp [trace]
  | cons request requests induction =>
      obtain ⟨interim, rest⟩ := unfinished
      obtain ⟨_, stillAttached⟩ := interim.driver attached
      obtain ⟨counted, _⟩ := interim.moves attached
      obtain ⟨countedRest, interimRest⟩ := induction rest stillAttached
      constructor
      · rw [trace, List.count_append, counted, countedRest, List.map_cons, List.sum_cons]
      · intro move member
        rcases List.mem_append.mp member with first | later
        · exact interim.interim_moves attached move first
        · exact interimRest move later

end Unfinished

end Session

end Tricolor
