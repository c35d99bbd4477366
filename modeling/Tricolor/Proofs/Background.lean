import Tricolor.Proofs.FailedCalls

/-!
# The background collector

A background collector completes a cycle when it is started and one more for every
request.  It does so in small steps, and it numbers what it completes by what its reports
say.  Seen between two cycles it is no more than a stepping collector whose owner runs a
cycle instead of each request.  Requests through the handles of collectors before it are
left out, for nothing comes of them.
-/

namespace Tricolor

/-- What mutators ask for next to a background collector: changes of the heap, and
cycles. -/
inductive Request.Concurrent : Request → Prop where
  | mutation {request : Request} {change : Heap → Heap}
      (performs : request.mutation? = some change) : Concurrent request
  | allocateChildOrCollect (parent : Ref) (side : Side) (handle : Option Nat) :
      Concurrent (.allocateChildOrCollect parent side handle)
  | requestCycle (handle : Nat) : Concurrent (.requestCycle handle)
  | requestAndWait (handle : Nat) : Concurrent (.requestAndWait handle)

namespace Session

/-- The session whose background collector sleeps between two cycles.  `earlier` are the
handles of the collectors before it. -/
def asleep (collection : Collection) (budget : Nat) (earlier : List Handle) : Session :=
  ⟨collection.heap, .background collection.collector budget,
    earlier ++ [{ completed := collection.heap.cyclesStarted }]⟩

/-- What the owner of a stepping collector asks for in place of a request to a background
one, which would complete a cycle if the request came through the handle `own`. -/
def foreground (session : Session) (own : Nat) : Request → List Request
  | .spawn _ => [.runCycle]
  | .requestCycle handle => if handle = own then [.runCycle] else []
  | .requestAndWait handle => if handle = own then [.runCycle] else []
  | .allocateChildOrCollect parent side handle =>
      if handle = some own ∧
          (session.apply (.allocateChild parent side)).1 = .fault .outOfMemory then
        [.allocateChild parent side, .runCycle, .allocateChild parent side]
      else [.allocateChild parent side]
  | request => [request]

/-- The session after the requests have been replaced one by one. -/
def runForeground (own : Nat) : Session → List Request → Session
  | session, [] => session
  | session, request :: requests =>
      runForeground own (session.run (session.foreground own request)) requests

section

variable {collection : Collection} {budget own handle : Nat} {earlier : List Handle}
  {request : Request}

theorem foreground_of_mutation {session : Session} {change : Heap → Heap}
    (performs : request.mutation? = some change) :
    session.foreground own request = [request] := by
  cases request with
  | allocate => rfl
  | release => rfl
  | setChild => rfl
  | allocateChild => rfl
  | shade => rfl
  | _ => cases performs

theorem apply_mutation_snd (session : Session) {change : Heap → Heap}
    (performs : request.mutation? = some change) :
    (session.apply request).2 = { session with heap := change session.heap } := by
  cases request with
  | allocate => cases performs; exact mutate_snd ..
  | release => cases performs; exact mutate_snd ..
  | setChild => cases performs; exact mutate_snd ..
  | allocateChild => cases performs; exact mutate_snd ..
  | shade => cases performs; exact mutate_snd ..
  | _ => cases performs

theorem allocateChildOrCollect_of_exhausted {session after : Session} {parent : Ref}
    {side : Side}
    (exhausted : session.apply (.allocateChild parent side) = (.fault .outOfMemory, after))
    (handle : Nat) :
    session.apply (.allocateChildOrCollect parent side (some handle)) =
      (after.wake handle).apply (.allocateChild parent side) := by
  change session.mutate .ref (·.allocateChild parent side) = _ at exhausted
  change session.allocateChildOrCollect parent side (some handle) = _
  simp only [allocateChildOrCollect, exhausted]
  rfl

theorem allocateChildOrCollect_of_answered {session : Session} {parent : Ref} {side : Side}
    (answered : (session.apply (.allocateChild parent side)).1 ≠ .fault .outOfMemory)
    (handle : Option Nat) :
    session.apply (.allocateChildOrCollect parent side handle) =
      session.apply (.allocateChild parent side) := by
  change session.allocateChildOrCollect parent side handle =
    session.mutate .ref (·.allocateChild parent side)
  change (session.mutate .ref (·.allocateChild parent side)).1 ≠ _ at answered
  unfold allocateChildOrCollect
  split
  · rename_i exhausted found
    exact absurd (congrArg Prod.fst found) answered
  · rfl

/-- What a mutator is answered depends on the heap alone. -/
theorem mutate_fst {α : Type} (session other : Session) (same : session.heap = other.heap)
    (reply : α → Reply) (operation : Heap → Outcome α) :
    (session.mutate reply operation).1 = (other.mutate reply operation).1 := by
  rw [mutate_eq, mutate_eq, same]

theorem serves_asleep :
    (asleep collection budget earlier).serves handle = decide (handle = earlier.length) := by
  simp [asleep, serves]

/-- In steps of at least one unit the background collector runs the cycle to its end, and
publishes its number. -/
theorem completeCycle_background (consistent : collection.Consistent)
    (numbered : collection.Numbered) (positive : 0 < budget) (completed : Nat) :
    completeCycle ⟨collection.heap, .background collection.collector budget,
        earlier ++ [⟨completed, false⟩]⟩ =
      asleep collection.runCycle.2 budget earlier := by
  obtain ⟨report, after, ran, _, cycle, _⟩ := consistent.runCycle_numbered numbered
  have stepped : Collection.runCycleBy budget ⟨collection.heap, collection.collector⟩ =
      (some report, after) :=
    (consistent.runCycleBy_eq_runCycle positive).trans ran
  unfold completeCycle
  simp only [stepped, ran, asleep, Handle.changeLatest_append, Handle.complete, Option.map_some,
    Option.getD_some, cycle]

theorem spawn_stepping (consistent : collection.Consistent) (numbered : collection.Numbered)
    (budget : Nat) (earlier : List Handle) :
    (stepping collection earlier).apply (.spawn budget) =
      (.flag true, asleep collection.runCycle.2 (max 1 budget) earlier) :=
  congrArg (Prod.mk (Reply.flag true))
    (completeCycle_background consistent numbered (Nat.le_max_left 1 budget) _)

theorem wake_asleep (rest : collection.AtRest) (positive : 0 < budget) :
    (asleep collection budget earlier).wake earlier.length =
      asleep collection.runCycle.2 budget earlier := by
  rw [wake, serves_asleep, if_pos (decide_eq_true rfl)]
  exact completeCycle_background rest.consistent rest.numbered positive _

/-- Through any other handle there is nobody to wake. -/
theorem wake_asleep_of_ne (other : handle ≠ earlier.length) :
    (asleep collection budget earlier).wake handle = asleep collection budget earlier := by
  apply wake_of_not_serves
  rw [serves_asleep]
  exact decide_eq_false other

/-- Until the cycle has completed and one more has been started, nobody is kept waiting. -/
theorem awaitCycle_asleep (rest : collection.AtRest) (positive : 0 < budget) :
    (asleep collection budget earlier).awaitCycle earlier.length =
      (some .reached, asleep collection.runCycle.2 budget earlier) := by
  obtain ⟨report, after, ran, _, _, counted⟩ :=
    rest.consistent.runCycle_numbered rest.numbered
  rw [Collection.cyclesStarted_markRoots rest.position] at counted
  unfold awaitCycle
  rw [wake_asleep rest positive, ran]
  simp [asleep, Handle.wait, counted]

theorem requestCycle_asleep (rest : collection.AtRest) (positive : 0 < budget) :
    (asleep collection budget earlier).apply (.requestCycle earlier.length) =
      (.flag true, asleep collection.runCycle.2 budget earlier) := by
  change (asleep collection budget earlier).requestCycle earlier.length = _
  unfold requestCycle
  rw [wake_asleep rest positive, serves_asleep]
  simp [asleep]

theorem requestAndWait_asleep (rest : collection.AtRest) (positive : 0 < budget) :
    (asleep collection budget earlier).apply (.requestAndWait earlier.length) =
      (.flag true, asleep collection.runCycle.2 budget earlier) := by
  change (asleep collection budget earlier).requestAndWait earlier.length = _
  unfold requestAndWait
  rw [awaitCycle_asleep rest positive]
  rfl

theorem stop_asleep :
    (asleep collection budget earlier).apply .stop =
      (.stopped collection.heap.cyclesStarted collection.collector.stats,
        stepping collection (earlier ++ [⟨collection.heap.cyclesStarted, true⟩])) := by
  change (asleep collection budget earlier).stop = _
  simp [asleep, Session.stop, stepping, Handle.stop]

theorem atRest_mutation {change : Heap → Heap} (rest : collection.AtRest)
    (performs : request.mutation? = some change) :
    Collection.AtRest ⟨change collection.heap, collection.collector⟩ ∧
      (change collection.heap).cyclesStarted = collection.heap.cyclesStarted := by
  obtain ⟨free, ordered⟩ := rest.consistent.ordered
  have kept := ((ordered.performed performs).kept ordered).1
  exact ⟨⟨rest.consistent.mutation performs, kept.phase.trans rest.phase⟩, kept.cyclesStarted⟩

theorem atRest_runCycle (rest : collection.AtRest) : collection.runCycle.2.AtRest := by
  obtain ⟨report, after, ran, restAfter, _⟩ :=
    rest.consistent.runCycle_numbered rest.numbered
  rwa [ran]

/-- A change of the heap is the same with either collector. -/
theorem follows_mutation {change : Heap → Heap} (rest : collection.AtRest)
    (performs : request.mutation? = some change) (budget : Nat) (earlier : List Handle) :
    ∃ after : Collection, after.AtRest ∧
      ((asleep collection budget earlier).apply request).2 = asleep after budget earlier ∧
      ((stepping collection earlier).apply request).2 = stepping after earlier := by
  obtain ⟨restAfter, counted⟩ := atRest_mutation rest performs
  refine ⟨_, restAfter, ?_, ?_⟩
  · rw [apply_mutation_snd _ performs, asleep, asleep, counted]
  · rw [apply_mutation_snd _ performs]
    rfl

/-- So is a request for a child, which takes a cycle if memory has run out and the handle is
that of the background collector. -/
theorem follows_allocateChildOrCollect (rest : collection.AtRest) (positive : 0 < budget)
    (parent : Ref) (side : Side) (handle : Option Nat) :
    let request : Request := .allocateChildOrCollect parent side handle
    ∃ after : Collection, after.AtRest ∧
      ((asleep collection budget earlier).apply request).2 = asleep after budget earlier ∧
      (stepping collection earlier).run
          ((stepping collection earlier).foreground earlier.length request) =
        stepping after earlier := by
  intro request
  have performs : (Request.allocateChild parent side).mutation? =
      some fun heap => (heap.allocateChild parent side).2 := rfl
  have sameReply : ((asleep collection budget earlier).apply (.allocateChild parent side)).1 =
      ((stepping collection earlier).apply (.allocateChild parent side)).1 :=
    mutate_fst (asleep collection budget earlier) (stepping collection earlier) rfl ..
  obtain ⟨first, restFirst, asleepFirst, steppingFirst⟩ :=
    follows_mutation rest performs budget earlier
  by_cases collects : handle = some earlier.length ∧
      ((stepping collection earlier).apply (.allocateChild parent side)).1 = .fault .outOfMemory
  · obtain ⟨rfl, exhausted⟩ := collects
    obtain ⟨second, restSecond, asleepSecond, steppingSecond⟩ :=
      follows_mutation (atRest_runCycle restFirst) performs budget earlier
    have refused : (asleep collection budget earlier).apply (.allocateChild parent side) =
        (.fault .outOfMemory, asleep first budget earlier) :=
      Prod.ext (sameReply.trans exhausted) asleepFirst
    refine ⟨second, restSecond, ?_, ?_⟩
    · rw [allocateChildOrCollect_of_exhausted refused, wake_asleep restFirst positive]
      exact asleepSecond
    · simp only [request, foreground, exhausted, and_self, if_true, run, List.foldl_cons,
        List.foldl_nil, steppingFirst, apply_runCycle_stepping]
      exact steppingSecond
  · have plain : (asleep collection budget earlier).apply request =
        (asleep collection budget earlier).apply (.allocateChild parent side) := by
      by_cases own : handle = some earlier.length
      · have answered := mt (And.intro own) collects
        rw [← sameReply] at answered
        exact allocateChildOrCollect_of_answered answered handle
      · obtain ⟨free, ordered⟩ := rest.consistent.ordered
        apply allocateChildOrCollect_of_unserved ordered
        intro number held
        rw [serves_asleep]
        exact decide_eq_false fun same => own (same ▸ held)
    refine ⟨first, restFirst, ?_, ?_⟩
    · rw [plain]
      exact asleepFirst
    · simp only [request, foreground, collects, if_false]
      exact steppingFirst

theorem follows_wake (rest : collection.AtRest) (positive : 0 < budget) (handle : Nat) :
    ∃ after : Collection, after.AtRest ∧
      (asleep collection budget earlier).wake handle = asleep after budget earlier ∧
      (stepping collection earlier).run (if handle = earlier.length then [.runCycle] else []) =
        stepping after earlier := by
  by_cases own : handle = earlier.length
  · subst own
    refine ⟨_, atRest_runCycle rest, wake_asleep rest positive, ?_⟩
    rw [if_pos rfl]
    rfl
  · refine ⟨collection, rest, wake_asleep_of_ne own, ?_⟩
    rw [if_neg own]
    rfl

/-- One request leads the background collector to where the requests in its place lead the
stepping one. -/
theorem follows_apply (rest : collection.AtRest) (positive : 0 < budget)
    (concurrent : request.Concurrent) (earlier : List Handle) :
    ∃ after : Collection, after.AtRest ∧
      ((asleep collection budget earlier).apply request).2 = asleep after budget earlier ∧
      (stepping collection earlier).run
          ((stepping collection earlier).foreground earlier.length request) =
        stepping after earlier := by
  cases concurrent with
  | mutation performs =>
      rw [foreground_of_mutation performs]
      exact follows_mutation rest performs budget earlier
  | allocateChildOrCollect parent side handle =>
      exact follows_allocateChildOrCollect rest positive parent side handle
  | requestCycle handle => exact follows_wake rest positive handle
  | requestAndWait handle =>
      change ∃ after : Collection, after.AtRest ∧
        ((asleep collection budget earlier).requestAndWait handle).2 = _ ∧ _
      rw [requestAndWait_snd]
      exact follows_wake rest positive handle

/-- So does any number of requests. -/
theorem follows_run {requests : List Request} (rest : collection.AtRest) (positive : 0 < budget)
    (concurrent : ∀ request ∈ requests, request.Concurrent) (earlier : List Handle) :
    ∃ after : Collection, after.AtRest ∧
      (asleep collection budget earlier).run requests = asleep after budget earlier ∧
      (stepping collection earlier).runForeground earlier.length requests =
        stepping after earlier := by
  induction requests generalizing collection with
  | nil => exact ⟨collection, rest, rfl, rfl⟩
  | cons request requests induction =>
      obtain ⟨middle, restMiddle, asleepMiddle, steppingMiddle⟩ :=
        follows_apply rest positive (concurrent request List.mem_cons_self) earlier
      obtain ⟨after, restAfter, asleepAfter, steppingAfter⟩ :=
        induction restMiddle fun other member =>
          concurrent other (List.mem_cons_of_mem request member)
      refine ⟨after, restAfter, ?_, ?_⟩
      · rw [← asleepAfter, ← asleepMiddle]
        rfl
      · rw [runForeground, steppingMiddle, steppingAfter]

/-- Wherever the stepping collector stands, starting it in the background is to run a cycle,
and it completes the one in progress if there is one. -/
theorem follows_spawn {requests : List Request} (consistent : collection.Consistent)
    (numbered : collection.Numbered) (concurrent : ∀ request ∈ requests, request.Concurrent)
    (budget : Nat) (earlier : List Handle) :
    ∃ after : Collection, after.AtRest ∧
      (stepping collection earlier).run (.spawn budget :: requests) =
        asleep after (max 1 budget) earlier ∧
      (stepping collection earlier).runForeground earlier.length (.spawn budget :: requests) =
        stepping after earlier := by
  obtain ⟨_, _, ran, restFirst, _⟩ := consistent.runCycle_numbered numbered
  have rest : collection.runCycle.2.AtRest := by rwa [ran]
  obtain ⟨after, restAfter, asleepAfter, steppingAfter⟩ :=
    follows_run rest (Nat.le_max_left 1 budget) concurrent earlier
  refine ⟨after, restAfter, ?_, ?_⟩
  · change ((stepping collection earlier).apply (.spawn budget)).2.run requests = _
    rw [spawn_stepping consistent numbered]
    exact asleepAfter
  · rw [← steppingAfter]
    rfl

end

/-- The background collector that the handle belongs to has completed every cycle that was
started, and completes another one for whoever asks. -/
structure UpToDate (session : Session) (handle : Nat) : Prop where
  phase : session.heap.phase = .idle
  shared : session.handles[handle]? = some { completed := session.heap.cyclesStarted }
  requestCycle : (session.apply (.requestCycle handle)).1 = .flag true
  requestAndWait : (session.apply (.requestAndWait handle)).1 = .flag true

theorem upToDate_asleep {collection : Collection} {budget : Nat} (rest : collection.AtRest)
    (positive : 0 < budget) (earlier : List Handle) :
    (asleep collection budget earlier).UpToDate earlier.length where
  phase := rest.phase
  shared := by simp [asleep]
  requestCycle := by rw [requestCycle_asleep rest positive]
  requestAndWait := by rw [requestAndWait_asleep rest positive]

end Session

end Tricolor
