import Tricolor.Collector
import Tricolor.Heap.Mutation

/-!
# Sessions

A session is a heap in use: mutators change it while a collector is attached
and detached, driven step by step or running in the background.

The background collector is a parked one.  It completes a cycle when it is
started and one more for every request, and it sleeps in between, so that
mutators never meet it in the middle of a cycle.  Whoever asks for a cycle does
so through a handle.  Each background collector has its own, which is kept when
the collector is stopped and another one is started.
-/

namespace Tricolor

/-- Who drives the collector of a heap, if it has one. -/
inductive Driver where
  | unattended
  /-- The owner of the heap calls for every step. -/
  | stepping (collector : Collector)
  /-- The collector works on its own, in steps of `budget` units. -/
  | background (collector : Collector) (budget : Nat)
  deriving DecidableEq, Repr

/-- What a background collector shares with those who hold its handle: the number
of the last cycle that it has completed, and whether it has been told to stop. -/
structure Handle where
  completed : Nat
  stopped : Bool := false
  deriving DecidableEq, Repr

/-- A heap in use.  `handles` are those of all background collectors that were
ever started, in that order.  One that is at work is the latest of them. -/
structure Session where
  heap : Heap
  driver : Driver := .unattended
  handles : List Handle := []
  deriving DecidableEq, Repr

/-- What can be asked of a session.  A handle is given by its place among all of
the session. -/
inductive Request where
  | allocate
  | release (ref : Ref)
  | setChild (parent : Ref) (side : Side) (child : Ref)
  | allocateChild (parent : Ref) (side : Side)
  /-- Allocates a child, collecting first if memory has run out and the mutator
  holds a handle. -/
  | allocateChildOrCollect (parent : Ref) (side : Side) (handle : Option Nat)
  | shade (ref : Ref)
  | attach
  | detach
  | markRoots
  | sweep
  | step (budget : Nat)
  | reclaim
  | runCycle
  /-- Moves the stepping collector into the background. -/
  | spawn (budget : Nat)
  /-- Makes the background collector a stepping one again. -/
  | stop
  | requestCycle (handle : Nat)
  | requestAndWait (handle : Nat)
  deriving DecidableEq, Repr

/-- The answer to a request. -/
inductive Reply where
  | done
  | ref (ref : Ref)
  | flag (value : Bool)
  | report (report : Option CycleReport)
  /-- The number of the last completed cycle and the collector's record. -/
  | stopped (completed : Nat) (stats : CollectorStats)
  | fault (fault : Fault)
  /-- There is no stepping collector. -/
  | noCollector
  /-- There is no background collector. -/
  | noBackground
  /-- There is no such handle. -/
  | noHandle
  deriving DecidableEq, Repr

/-- How waiting for a cycle ends. -/
inductive Wait where
  /-- The cycle has completed. -/
  | reached
  /-- The collector has been told to stop, and there is nothing to wait for. -/
  | stopped
  /-- Nobody has completed the cycle in time. -/
  | expired
  deriving DecidableEq, Repr

/-- The number of cycles that have ended, going by what is published: all
that were started but the one in progress. -/
def Heap.cyclesEnded (heap : Heap) : Nat :=
  if heap.phase = .idle then heap.cyclesStarted else heap.cyclesStarted - 1

namespace Handle

/-- The collector reports a cycle. -/
def complete (handle : Handle) (report : Option CycleReport) : Handle :=
  { handle with completed := (report.map (·.cycle)).getD handle.completed }

def stop (handle : Handle) : Handle := { handle with stopped := true }

/-- What comes of waiting for the cycle `target`.  It may have completed although
the collector has stopped since. -/
def wait (handle : Handle) (target : Nat) : Wait :=
  if target ≤ handle.completed then .reached
  else if handle.stopped then .stopped
  else .expired

/-- Changes what the latest collector shares. -/
def changeLatest (change : Handle → Handle) (handles : List Handle) : List Handle :=
  handles.modify (handles.length - 1) change

@[simp]
theorem changeLatest_append (change : Handle → Handle) (earlier : List Handle)
    (latest : Handle) :
    changeLatest change (earlier ++ [latest]) = earlier ++ [change latest] := by
  simp [changeLatest, List.modify_eq_take_cons_drop]

end Handle

namespace Session

def ofHeap (heap : Heap) : Session := { heap }

/-- The handle of the latest background collector, if there ever was one. -/
def latest? (session : Session) : Option Nat :=
  if session.handles.isEmpty then none else some (session.handles.length - 1)

/-- The handle is that of the background collector at work. -/
def serves (session : Session) (handle : Nat) : Bool :=
  match session.driver with
  | .background _ _ => handle + 1 = session.handles.length
  | _ => false

/-- Lets a mutator work on the heap. -/
def mutate (session : Session) (reply : α → Reply) (operation : Heap → Outcome α) :
    Reply × Session :=
  match session with
  | ⟨heap, driver, handles⟩ =>
      match operation heap with
      | (.ok value, heap) => (reply value, ⟨heap, driver, handles⟩)
      | (.error fault, heap) => (.fault fault, ⟨heap, driver, handles⟩)

def attach : Session → Reply × Session
  | ⟨heap, .unattended, handles⟩ =>
      let ⟨heap, collector⟩ := Collection.attach heap
      (.done, ⟨heap, .stepping collector, handles⟩)
  | session => (.fault .collectorAttached, session)

/-- A background collector that is dropped is stopped before. -/
def detach : Session → Session
  | ⟨heap, .unattended, handles⟩ => ⟨heap, .unattended, handles⟩
  | ⟨heap, .stepping collector, handles⟩ =>
      ⟨Collection.detach ⟨heap, collector⟩, .unattended, handles⟩
  | ⟨heap, .background collector _, handles⟩ =>
      ⟨Collection.detach ⟨heap, collector⟩, .unattended, Handle.changeLatest .stop handles⟩

/-- Lets the stepping collector work. -/
def drive (session : Session) (work : Collection → Reply × Collection) : Reply × Session :=
  match session with
  | ⟨heap, .stepping collector, handles⟩ =>
      let (reply, ⟨heap, collector⟩) := work ⟨heap, collector⟩
      (reply, ⟨heap, .stepping collector, handles⟩)
  | session => (.noCollector, session)

/-- The background collector completes a cycle and publishes its number. -/
def completeCycle : Session → Session
  | ⟨heap, .background collector budget, handles⟩ =>
      let (report, ⟨heap, collector⟩) := Collection.runCycleBy budget ⟨heap, collector⟩
      ⟨heap, .background collector budget, Handle.changeLatest (·.complete report) handles⟩
  | session => session

/-- The background collector starts with the cycle that is in progress, or
with a new one.  It takes steps of at least one unit. -/
def spawn (session : Session) (budget : Nat) : Reply × Session :=
  match session with
  | ⟨heap, .stepping collector, handles⟩ =>
      let handle : Handle := { completed := heap.cyclesEnded }
      let session := ⟨heap, .background collector (max 1 budget), handles ++ [handle]⟩
      (.flag true, completeCycle session)
  | session => (.noCollector, session)

def stop : Session → Reply × Session
  | ⟨heap, .background collector _, handles⟩ =>
      (.stopped (handles.getLast?.elim 0 (·.completed)) collector.stats,
        ⟨heap, .stepping collector, Handle.changeLatest .stop handles⟩)
  | session => (.noBackground, session)

/-- Wakes the collector behind a handle, if it is still at work. -/
def wake (session : Session) (handle : Nat) : Session :=
  if session.serves handle then session.completeCycle else session

/-- Wakes the collector behind a handle and waits for a cycle that starts after
the call. -/
def awaitCycle (session : Session) (handle : Nat) : Option Wait × Session :=
  let target := session.heap.cyclesStarted + 1
  let session := session.wake handle
  (session.handles[handle]?.map (·.wait target), session)

def requestCycle (session : Session) (handle : Nat) : Reply × Session :=
  let reply :=
    match session.handles[handle]? with
    | none => .noHandle
    | some _ => if session.serves handle then .flag true else .done
  (reply, session.wake handle)

def requestAndWait (session : Session) (handle : Nat) : Reply × Session :=
  match session.awaitCycle handle with
  | (none, session) => (.noHandle, session)
  | (some wait, session) => (.flag (wait = .reached), session)

/-- Allocates a child.  When memory has run out and the mutator holds a handle,
waits for a cycle and tries once more, whatever came of waiting. -/
def allocateChildOrCollect (session : Session) (parent : Ref) (side : Side)
    (handle : Option Nat) : Reply × Session :=
  match session.mutate .ref (·.allocateChild parent side) with
  | (.fault .outOfMemory, session) =>
      match handle with
      | none => (.fault .outOfMemory, session)
      | some handle =>
          (session.awaitCycle handle).2.mutate .ref (·.allocateChild parent side)
  | outcome => outcome

/-- Answers one request. -/
def apply (session : Session) : Request → Reply × Session
  | .allocate => session.mutate .ref (·.allocate)
  | .release ref => session.mutate (fun _ => .done) (·.release ref)
  | .setChild parent side child => session.mutate (fun _ => .done) (·.setChild parent side child)
  | .allocateChild parent side => session.mutate .ref (·.allocateChild parent side)
  | .allocateChildOrCollect parent side handle =>
      session.allocateChildOrCollect parent side handle
  | .shade ref => session.mutate .flag (·.shadeNode ref)
  | .attach => session.attach
  | .detach => (.done, session.detach)
  | .markRoots => session.drive fun collection => (.done, collection.markRoots)
  | .sweep => session.drive fun collection => (.done, collection.sweep)
  | .step budget => session.drive fun collection =>
      let (report, collection) := collection.step budget
      (.report report, collection)
  | .reclaim => session.drive fun collection =>
      let (report, collection) := collection.reclaim
      (.report report, collection)
  | .runCycle => session.drive fun collection =>
      let (report, collection) := collection.runCycle
      (.report report, collection)
  | .spawn budget => session.spawn budget
  | .stop => session.stop
  | .requestCycle handle => session.requestCycle handle
  | .requestAndWait handle => session.requestAndWait handle

/-- The session after a sequence of requests. -/
def run (session : Session) (requests : List Request) : Session :=
  requests.foldl (fun session request => (session.apply request).2) session

/-- The stepping collector, if there is one. -/
def stepping? (session : Session) : Option Collector :=
  match session.driver with
  | .stepping collector => some collector
  | _ => none

end Session

end Tricolor
