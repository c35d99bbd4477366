import Tricolor.Proofs.Background

/-!
# The handles of background collectors

A handle outlives the collector that it belongs to.  While the collector sleeps, a request
through the handle completes a cycle; once it has been stopped or dropped, nothing comes of
the handle any more, although other collectors may be started on the same heap.

The handles of collectors that are gone make up a list that only grows.  All of them have
been told to stop, and none has got further than the cycles that were started, so that
waiting for the next one is in vain.
-/

namespace Tricolor

namespace Session

variable {session : Session} {request : Request} {requests : List Request}
  {collection : Collection} {budget : Nat} {retired : List Handle}

/-- No background collector is at work. -/
inductive Unaided : Session → Prop where
  | unattended (heap : Heap) (handles : List Handle) : Unaided ⟨heap, .unattended, handles⟩
  | stepping (heap : Heap) (collector : Collector) (handles : List Handle) :
      Unaided ⟨heap, .stepping collector, handles⟩

namespace Unaided

theorem of_stepping {collector : Collector} (attached : session.driver = .stepping collector) :
    session.Unaided := by
  obtain ⟨heap, driver, handles⟩ := session
  cases attached
  exact .stepping heap collector handles

theorem serves (unaided : session.Unaided) (handle : Nat) : session.serves handle = false := by
  cases unaided with
  | unattended => rfl
  | stepping => rfl

theorem wake (unaided : session.Unaided) (handle : Nat) : session.wake handle = session :=
  wake_of_not_serves (unaided.serves handle)

theorem mutate {α : Type} (unaided : session.Unaided) (reply : α → Reply)
    (operation : Heap → Outcome α) :
    (session.mutate reply operation).2.Unaided ∧
      (session.mutate reply operation).2.handles = session.handles := by
  rw [mutate_snd]
  cases unaided with
  | unattended => exact ⟨.unattended .., rfl⟩
  | stepping => exact ⟨.stepping .., rfl⟩

theorem drive (unaided : session.Unaided) (work : Collection → Reply × Collection) :
    (session.drive work).2.Unaided ∧ (session.drive work).2.handles = session.handles := by
  cases unaided with
  | unattended => exact ⟨.unattended .., rfl⟩
  | stepping => exact ⟨.stepping .., rfl⟩

theorem allocateChildOrCollect (unaided : session.Unaided) (parent : Ref) (side : Side)
    (handle : Option Nat) :
    (session.allocateChildOrCollect parent side handle).2.Unaided ∧
      (session.allocateChildOrCollect parent side handle).2.handles = session.handles := by
  have first := unaided.mutate .ref (·.allocateChild parent side)
  unfold Session.allocateChildOrCollect
  split
  · rename_i exhausted found
    rw [found] at first
    cases handle with
    | none => exact first
    | some handle =>
        dsimp only
        rw [awaitCycle_snd, first.1.wake handle, ← first.2]
        exact first.1.mutate .ref (·.allocateChild parent side)
  · exact first

/-- Only starting a background collector gives out a handle. -/
theorem apply (unaided : session.Unaided) (notSpawn : ∀ budget, request ≠ .spawn budget) :
    (session.apply request).2.Unaided ∧
      (session.apply request).2.handles = session.handles := by
  cases request with
  | allocate => exact unaided.mutate ..
  | release ref => exact unaided.mutate ..
  | setChild parent side child => exact unaided.mutate ..
  | allocateChild parent side => exact unaided.mutate ..
  | allocateChildOrCollect parent side handle =>
      exact unaided.allocateChildOrCollect parent side handle
  | shade ref => exact unaided.mutate ..
  | attach =>
      cases unaided with
      | unattended => exact ⟨.stepping .., rfl⟩
      | stepping => exact ⟨.stepping .., rfl⟩
  | detach =>
      cases unaided with
      | unattended => exact ⟨.unattended .., rfl⟩
      | stepping => exact ⟨.unattended .., rfl⟩
  | markRoots => exact unaided.drive _
  | sweep => exact unaided.drive _
  | step budget => exact unaided.drive _
  | reclaim => exact unaided.drive _
  | runCycle => exact unaided.drive _
  | spawn budget => exact absurd rfl (notSpawn budget)
  | stop =>
      cases unaided with
      | unattended => exact ⟨.unattended .., rfl⟩
      | stepping => exact ⟨.stepping .., rfl⟩
  | requestCycle handle =>
      change (session.wake handle).Unaided ∧ (session.wake handle).handles = _
      rw [unaided.wake handle]
      exact ⟨unaided, rfl⟩
  | requestAndWait handle =>
      change (session.requestAndWait handle).2.Unaided ∧
        (session.requestAndWait handle).2.handles = _
      rw [requestAndWait_snd, unaided.wake handle]
      exact ⟨unaided, rfl⟩

end Unaided

/-- Either no background collector is at work, or it sleeps between two cycles.  The handles
`retired` are all but its own. -/
inductive Parked (retired : List Handle) : Session → Prop where
  | unaided {session : Session} (unaided : session.Unaided)
      (handles : session.handles = retired) : Parked retired session
  | sleeping {collection : Collection} {budget : Nat} (rest : collection.AtRest)
      (positive : 0 < budget) : Parked retired (asleep collection budget retired)

/-- The collector of each handle that is given up has completed all cycles until then. -/
def RetiresInto (session : Session) (retired later : List Handle) : Prop :=
  retired <+: later ∧
    ∀ handle ∈ later, handle ∈ retired ∨ handle = ⟨session.heap.cyclesStarted, true⟩

theorem RetiresInto.refl (session : Session) (retired : List Handle) :
    session.RetiresInto retired retired :=
  ⟨List.prefix_rfl, fun _ member => .inl member⟩

theorem RetiresInto.concat (session : Session) (retired : List Handle) :
    session.RetiresInto retired (retired ++ [⟨session.heap.cyclesStarted, true⟩]) := by
  refine ⟨List.prefix_append _ _, fun handle member => ?_⟩
  rcases List.mem_append.mp member with old | latest
  · exact .inl old
  · exact .inr (List.mem_singleton.mp latest)

namespace Parked

theorem spawn (consistent : session.collection.Consistent)
    (numbered : session.collection.Numbered) (unaided : session.Unaided) (budget : Nat) :
    (session.apply (.spawn budget)).2.Parked session.handles := by
  cases unaided with
  | unattended heap handles => exact .unaided (.unattended heap handles) rfl
  | stepping heap collector handles =>
      have attached : Collection.Consistent ⟨heap, collector⟩ := consistent
      obtain ⟨_, _, ran, rest, _⟩ := attached.runCycle_numbered numbered
      have restAfter : (Collection.runCycle ⟨heap, collector⟩).2.AtRest := by rwa [ran]
      change ((stepping ⟨heap, collector⟩ handles).apply (.spawn budget)).2.Parked handles
      rw [spawn_stepping attached numbered]
      exact .sleeping restAfter (Nat.le_max_left 1 budget)

theorem of_concurrent (rest : collection.AtRest) (positive : 0 < budget)
    (concurrent : request.Concurrent) :
    ((asleep collection budget retired).apply request).2.Parked retired := by
  obtain ⟨after, restAfter, same, _⟩ := follows_apply rest positive concurrent retired
  rw [same]
  exact .sleeping restAfter positive

/-- What the owner of a sleeping collector asks for either does nothing or gives it up. -/
theorem of_asleep (rest : collection.AtRest) (positive : 0 < budget) (request : Request) :
    ∃ later, (asleep collection budget retired).RetiresInto retired later ∧
      ((asleep collection budget retired).apply request).2.Parked later := by
  have same := RetiresInto.refl (asleep collection budget retired) retired
  have gone := RetiresInto.concat (asleep collection budget retired) retired
  cases request with
  | allocate => exact ⟨_, same, of_concurrent rest positive (.mutation rfl)⟩
  | release => exact ⟨_, same, of_concurrent rest positive (.mutation rfl)⟩
  | setChild => exact ⟨_, same, of_concurrent rest positive (.mutation rfl)⟩
  | allocateChild => exact ⟨_, same, of_concurrent rest positive (.mutation rfl)⟩
  | allocateChildOrCollect parent side handle =>
      exact ⟨_, same, of_concurrent rest positive (.allocateChildOrCollect parent side handle)⟩
  | shade => exact ⟨_, same, of_concurrent rest positive (.mutation rfl)⟩
  | requestCycle handle => exact ⟨_, same, of_concurrent rest positive (.requestCycle handle)⟩
  | requestAndWait handle =>
      exact ⟨_, same, of_concurrent rest positive (.requestAndWait handle)⟩
  | detach => exact ⟨_, gone, .unaided (.unattended ..) (Handle.changeLatest_append ..)⟩
  | stop => exact ⟨_, gone, .unaided (.stepping ..) (Handle.changeLatest_append ..)⟩
  | _ => exact ⟨_, same, .sleeping rest positive⟩

theorem apply (parked : session.Parked retired) (consistent : session.collection.Consistent)
    (numbered : session.collection.Numbered) (request : Request) :
    ∃ later, session.RetiresInto retired later ∧
      (session.apply request).2.Parked later := by
  cases parked with
  | unaided unaided handles =>
      refine ⟨retired, .refl session retired, ?_⟩
      by_cases spawns : ∃ budget, request = .spawn budget
      · obtain ⟨budget, rfl⟩ := spawns
        exact handles ▸ spawn consistent numbered unaided budget
      · obtain ⟨unaidedAfter, same⟩ :=
          unaided.apply fun budget spawned => spawns ⟨budget, spawned⟩
        exact .unaided unaidedAfter (same.trans handles)
  | sleeping rest positive => exact of_asleep rest positive request

theorem exists_asleep {collector : Collector} (parked : session.Parked retired)
    (running : session.driver = .background collector budget) :
    ∃ (collection : Collection) (budget : Nat),
      session = Session.asleep collection budget retired ∧ collection.AtRest ∧ 0 < budget := by
  cases parked with
  | unaided unaided => cases unaided <;> cases running
  | sleeping rest positive => exact ⟨_, _, rfl, rest, positive⟩

theorem handles_of_unaided (parked : session.Parked retired) (unaided : session.Unaided) :
    session.handles = retired := by
  cases parked with
  | unaided _ handles => exact handles
  | sleeping =>
      unfold asleep at unaided
      cases unaided

theorem serves {handle : Nat} (parked : session.Parked retired)
    (old : handle < retired.length) : session.serves handle = false := by
  cases parked with
  | unaided unaided => exact unaided.serves handle
  | sleeping =>
      rw [serves_asleep]
      exact decide_eq_false (Nat.ne_of_lt old)

theorem prefix_handles (parked : session.Parked retired) : retired <+: session.handles := by
  cases parked with
  | unaided _ handles => exact handles ▸ List.prefix_rfl
  | sleeping => exact List.prefix_append _ _

end Parked

/-- A session as requests leave it, where the collectors behind the handles `retired` are
gone. -/
structure Orderly (session : Session) (retired : List Handle) : Prop where
  consistent : session.collection.Consistent
  numbered : session.collection.Numbered
  parked : session.Parked retired
  gone : ∀ handle ∈ retired,
    handle.stopped = true ∧ handle.completed ≤ session.heap.cyclesStarted

theorem orderly_ofHeap {capacity : Nat} {initial : Heap}
    (built : Heap.ofCapacity capacity = .ok initial) : (ofHeap initial).Orderly [] where
  consistent := consistent_ofHeap built
  numbered active := absurd rfl active
  parked := .unaided (.unattended ..) rfl
  gone _ member := nomatch member

namespace Orderly

theorem apply (orderly : session.Orderly retired) (request : Request) :
    ∃ later, retired <+: later ∧ (session.apply request).2.Orderly later := by
  have next : (session.apply request).2.collection.Consistent ∧
      (session.apply request).2.collection.Numbered :=
    numbered_preserved.apply trivial ⟨orderly.consistent, orderly.numbered⟩
  have counted : session.heap.cyclesStarted ≤ (session.apply request).2.heap.cyclesStarted :=
    ((started_preserved session.heap.cyclesStarted).apply trivial
      ⟨orderly.consistent, Nat.le_refl _⟩).2
  obtain ⟨later, ⟨kept, added⟩, parked⟩ :=
    orderly.parked.apply orderly.consistent orderly.numbered request
  refine ⟨later, kept, next.1, next.2, parked, fun handle member => ?_⟩
  rcases added handle member with old | rfl
  · obtain ⟨stopped, behind⟩ := orderly.gone handle old
    exact ⟨stopped, behind.trans counted⟩
  · exact ⟨rfl, counted⟩

/-- Collectors that are gone stay gone, whatever is asked for. -/
theorem run (orderly : session.Orderly retired) (requests : List Request) :
    ∃ later, retired <+: later ∧ (session.run requests).Orderly later := by
  induction requests generalizing session retired with
  | nil => exact ⟨retired, List.prefix_rfl, orderly⟩
  | cons request requests induction =>
      obtain ⟨middle, kept, orderlyMiddle⟩ := orderly.apply request
      obtain ⟨later, keptLater, orderlyLater⟩ := induction orderlyMiddle
      exact ⟨later, kept.trans keptLater, orderlyLater⟩

end Orderly

/-- The collector that the handle belongs to is gone.  It has been told to stop after the
cycle `completed`, asking it for another one changes nothing, and whoever waits for one is
told so at once. -/
structure Orphaned (session : Session) (handle completed : Nat) : Prop where
  shared : session.handles[handle]? = some { completed, stopped := true }
  requestCycle : session.apply (.requestCycle handle) = (.done, session)
  requestAndWait : session.apply (.requestAndWait handle) = (.flag false, session)
  awaitCycle : session.awaitCycle handle = (some .stopped, session)
  /-- A mutator that holds the handle might as well hold none. -/
  allocateChildOrCollect : ∀ parent side,
    session.apply (.allocateChildOrCollect parent side (some handle)) =
      session.apply (.allocateChildOrCollect parent side none)

namespace Orderly

variable {handle : Nat}

theorem shared (orderly : session.Orderly retired) (old : handle < retired.length) :
    session.handles[handle]? = some { completed := retired[handle].completed, stopped := true } := by
  obtain ⟨stopped, _⟩ := orderly.gone retired[handle] (List.getElem_mem old)
  rw [List.prefix_iff_getElem?.mp orderly.parked.prefix_handles handle old, ← stopped]

theorem awaitCycle (orderly : session.Orderly retired) (old : handle < retired.length) :
    session.awaitCycle handle = (some .stopped, session) := by
  obtain ⟨_, behind⟩ := orderly.gone retired[handle] (List.getElem_mem old)
  have ahead : ¬ session.heap.cyclesStarted + 1 ≤ retired[handle].completed :=
    Nat.not_le_of_lt (Nat.lt_succ_of_le behind)
  unfold Session.awaitCycle
  rw [wake_of_not_serves (orderly.parked.serves old)]
  simp only [orderly.shared old, Option.map_some, Handle.wait, ahead, if_false, if_true]

theorem orphaned (orderly : session.Orderly retired) (old : handle < retired.length) :
    session.Orphaned handle retired[handle].completed := by
  have unserved := orderly.parked.serves old
  obtain ⟨free, ordered⟩ := orderly.consistent.ordered
  refine ⟨orderly.shared old, ?_, ?_, orderly.awaitCycle old, fun parent side => ?_⟩
  · change session.requestCycle handle = _
    simp [requestCycle, orderly.shared old, unserved, wake_of_not_serves unserved]
  · change session.requestAndWait handle = _
    unfold requestAndWait
    rw [orderly.awaitCycle old]
    rfl
  · change session.allocateChildOrCollect parent side (some handle) =
      session.allocateChildOrCollect parent side none
    rw [allocateChildOrCollect_of_unserved ordered (by simpa using unserved),
      allocateChildOrCollect_of_unserved ordered (by simp)]

/-- No later request brings a collector back that is gone, and none does anything to its
handle. -/
theorem orphaned_run {entry : Handle} (orderly : session.Orderly retired)
    (old : retired[handle]? = some entry) (later : List Request) :
    (session.run later).Orphaned handle entry.completed := by
  obtain ⟨inside, rfl⟩ := List.getElem?_eq_some_iff.mp old
  obtain ⟨_, kept, orderlyLater⟩ := orderly.run later
  rw [kept.getElem inside]
  exact orderlyLater.orphaned (inside.trans_le kept.length_le)

/-- A sleeping collector leaves a handle behind when it is stopped or dropped. -/
theorem orphaned_given_up {earlier : List Handle} {ending : Request}
    (orderly : (asleep collection budget earlier).Orderly retired)
    (endsIt : ending = .stop ∨ ending = .detach) (later : List Request) :
    (((asleep collection budget earlier).apply ending).2.run later).Orphaned earlier.length
      collection.heap.cyclesStarted := by
  have given : ((asleep collection budget earlier).apply ending).2.Unaided ∧
      ((asleep collection budget earlier).apply ending).2.handles =
        earlier ++ [⟨collection.heap.cyclesStarted, true⟩] := by
    rcases endsIt with rfl | rfl
    · exact ⟨.stepping .., Handle.changeLatest_append ..⟩
    · exact ⟨.unattended .., Handle.changeLatest_append ..⟩
  obtain ⟨retiredAfter, _, orderlyAfter⟩ := orderly.apply ending
  obtain rfl := given.2.symm.trans (orderlyAfter.parked.handles_of_unaided given.1)
  have latest : (earlier ++ [⟨collection.heap.cyclesStarted, true⟩])[earlier.length]? =
      some (⟨collection.heap.cyclesStarted, true⟩ : Handle) :=
    List.getElem?_concat_length
  exact orderlyAfter.orphaned_run latest later

end Orderly

/-- Wherever the stepping collector stands, moving it to the background, working next to
it and stopping it leaves the heap and the collector as they would be had its owner run a
cycle at the start and one in place of each request through its handle.  Whenever it sleeps
the heap is at rest, all cycles started are completed and known to be, and what is grey was
shaded since the last cycle, or behind the reclaim pass of the cycle that it took over.
Once it has been stopped or dropped nothing comes of its handle, whatever is asked for and
however many collectors are started later, and nothing comes of the handles of those before
it. -/
theorem run_inBackground
    {capacity : Nat} {initial : Heap} {earlier requests : List Request} {collector : Collector}
    (built : Heap.ofCapacity capacity = .ok initial)
    (attached : ((ofHeap initial).run earlier).driver = .stepping collector)
    (concurrent : ∀ request ∈ requests, request.Concurrent) (budget : Nat) :
    let session := (ofHeap initial).run earlier
    let handle := session.handles.length
    let background := session.run (.spawn budget :: requests)
    let foreground := session.runForeground handle (.spawn budget :: requests)
    let stopped := (background.apply .stop).2
    (session.heap.phase ≠ .idle → 0 < session.heap.cyclesStarted) ∧
    background.UpToDate handle ∧
    (∀ ref, (background.heap.node ref).color = .grey →
      (ofHeap initial).ShadedLate (earlier ++ .spawn budget :: requests) ref) ∧
    stopped.heap = foreground.heap ∧ stopped.driver = foreground.driver ∧
    (background.apply .stop).1 =
      .stopped background.heap.cyclesStarted stopped.collector.stats ∧
    (∀ ending later, ending = .stop ∨ ending = .detach →
      ((background.apply ending).2.run later).Orphaned handle background.heap.cyclesStarted) ∧
    ∀ number entry, session.handles[number]? = some entry →
      ∀ later, (session.run later).Orphaned number entry.completed := by
  intro session handle background foreground stopped
  obtain ⟨retired, _, orderly⟩ := (orderly_ofHeap built).run earlier
  change session.Orderly retired at orderly
  obtain rfl : session.handles = retired := orderly.parked.handles_of_unaided (.of_stepping attached)
  obtain ⟨collection, given, found⟩ : ∃ collection given, session = stepping collection given :=
    ⟨_, _, eq_stepping attached⟩
  have number : handle = given.length := congrArg (·.handles.length) found
  have same : session.collection = collection := congrArg Session.collection found
  have consistent : collection.Consistent := same ▸ orderly.consistent
  have numbered : collection.Numbered := same ▸ orderly.numbered
  obtain ⟨after, rest, asleepAfter, steppingAfter⟩ :=
    follows_spawn consistent numbered concurrent budget given
  rw [← found] at asleepAfter steppingAfter
  change background = asleep after (max 1 budget) given at asleepAfter
  rw [← number] at steppingAfter
  change foreground = stepping after given at steppingAfter
  have ended : background.apply .stop = (.stopped background.heap.cyclesStarted
      after.collector.stats,
      stepping after (given ++ [⟨background.heap.cyclesStarted, true⟩])) := by
    rw [asleepAfter, stop_asleep]
    rfl
  have stoppedAfter : stopped = stepping after (given ++ [⟨background.heap.cyclesStarted, true⟩]) :=
    congrArg Prod.snd ended
  have whole : (ofHeap initial).run (earlier ++ .spawn budget :: requests) = background :=
    run_append ..
  refine ⟨fun active => ?_, ?_, fun ref grey => ?_, ?_, ?_, ?_, fun ending later endsIt => ?_,
    fun number entry => orderly.orphaned_run⟩
  · exact (orderly.numbered (mt orderly.consistent.phase_eq_idle_iff.mp active)).1
  · rw [asleepAfter, number]
    exact upToDate_asleep rest (Nat.le_max_left 1 budget) given
  · have idle : background.heap.phase = .idle := by
      rw [asleepAfter]
      exact rest.phase
    apply shadedLate_of_grey built
    · rwa [whole]
    · rwa [whole]
  · rw [stoppedAfter, steppingAfter]
    rfl
  · rw [stoppedAfter, steppingAfter]
    rfl
  · rw [ended, stoppedAfter]
    rfl
  · obtain ⟨_, _, orderlyAfter⟩ := orderly.run (.spawn budget :: requests)
    change background.Orderly _ at orderlyAfter
    rw [asleepAfter] at orderlyAfter ⊢
    rw [number]
    exact orderlyAfter.orphaned_given_up endsIt later

/-- The collector is moved to the background a second time, in the midst of its reclaim pass,
and memory runs out next to it.  It is stopped and moved there once more, and the third
collector completes another cycle, but not for those who hold the handle of the second. -/
theorem run_inBackground_half_reclaimed :
    let earlier : List Request :=
      [.attach, .spawn 1, .stop, .allocateChild 1 .left, .setChild 1 .left 0, .sweep, .step 2,
        .shade 1]
    let requests : List Request :=
      [.allocateChildOrCollect 2 .left (some 1), .setChild 2 .left 0, .requestCycle 0,
        .allocateChildOrCollect 1 .right (some 1), .requestAndWait 1]
    let later : List Request := [.requestCycle 1, .spawn 3, .requestAndWait 2, .requestAndWait 1]
    let session := (ofHeap (Heap.fresh 5)).run earlier
    let background := session.run (.spawn 0 :: requests)
    let foreground := session.runForeground 1 (.spawn 0 :: requests)
    let stopped := (background.apply .stop).2
    session.driver = .stepping session.collector ∧ session.heap.phase = .reclaiming ∧
      session.handles = [⟨1, true⟩] ∧ (∀ request ∈ requests, request.Concurrent) ∧
      background.UpToDate 1 ∧ background.heap.cyclesStarted = 4 ∧
      stopped.heap = foreground.heap ∧ stopped.driver = foreground.driver ∧
      (stopped.run later).Orphaned 1 4 ∧ (stopped.run later).UpToDate 2 ∧
      (session.run (.spawn 0 :: requests)).Orphaned 0 1 := by
  intro earlier requests later session background foreground stopped
  have built : Heap.ofCapacity 5 = .ok (Heap.fresh 5) := rfl
  have attached : session.driver = .stepping session.collector := by decide
  have given : session.handles = [⟨1, true⟩] := by decide
  have started : background.heap.cyclesStarted = 4 := by decide
  have concurrent : ∀ request ∈ requests, request.Concurrent := by
    simp only [requests, List.forall_mem_cons]
    exact ⟨.allocateChildOrCollect 2 .left (some 1), .mutation rfl, .requestCycle 0,
      .allocateChildOrCollect 1 .right (some 1), .requestAndWait 1,
      fun _ member => absurd member List.not_mem_nil⟩
  obtain ⟨_, upToDate, _, sameHeap, sameDriver, _, orphaned, others⟩ :=
    run_inBackground built attached concurrent 0
  have old : session.handles[0]? = some ⟨1, true⟩ := by
    rw [given]
    rfl
  have latest : (stopped.run later).UpToDate 2 :=
    ⟨by decide +kernel, by decide +kernel, by decide +kernel, by decide +kernel⟩
  exact ⟨attached, by decide, given, concurrent, upToDate, started, sameHeap, sameDriver,
    started ▸ orphaned .stop later (.inl rfl), latest, others 0 _ old _⟩

/-- Node 1 is shaded behind the reclaim pass that the background collector takes over.
Nothing is shaded afterwards, but the node is still grey when that cycle has ended. -/
theorem run_inBackground_takes_over_late_mark :
    let session := (ofHeap (Heap.fresh 5)).run [.attach, .sweep, .step 2, .shade 1]
    let requests : List Request := []
    let background := session.run (.spawn 5 :: requests)
    session.driver = .stepping session.collector ∧ background.heap.phase = .idle ∧
      ¬ ∀ ref, (background.heap.node ref).color = .grey →
        ∃ before after, requests = before ++ .shade ref :: after := by
  intro session requests background
  refine ⟨by decide, by decide, fun shadedSince => ?_⟩
  obtain ⟨before, after, split⟩ := shadedSince 1 (by decide)
  simp [requests] at split

end Session

end Tricolor
