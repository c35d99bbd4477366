import Tricolor.Session
import Tricolor.Proofs.CollectorWork

/-!
# Properties of whole runs

A property of collections that survives each single piece of work survives every
request, and so every run.  The induction is done here once: `WorkStable` covers
what a collector does on its own, and `Session.Preserves` adds what mutators do
and how collectors come and go.  A session without a collector counts as one
whose collector is new and idle.
-/

namespace Tricolor

namespace Collection

/-- No single piece of collector work breaks the property. -/
structure WorkStable (property : Collection → Prop) : Prop where
  markRoots : ∀ {collection : Collection},
    property collection → property collection.markRoots
  visit : ∀ {collection : Collection},
    property collection → collection.isSpent = false → property collection.visit
  finish : ∀ {collection : Collection},
    property collection → collection.isSpent = true → property collection.finish.2

namespace WorkStable

variable {property : Collection → Prop} {collection : Collection}

theorem step (stable : WorkStable property) (holds : property collection)
    (budget : Nat) :
    property (collection.step budget).2 := by
  induction budget generalizing collection with
  | zero => exact holds
  | succ budget induction =>
      have started := stable.markRoots holds
      rw [Collection.step]
      cases spent : collection.markRoots.isSpent with
      | true => exact stable.finish started spent
      | false => exact induction (stable.visit started spent)

theorem sweepFor (stable : WorkStable property) (holds : property collection)
    (limit : Nat) :
    property (collection.sweepFor limit) := by
  induction limit generalizing collection with
  | zero => exact holds
  | succ limit induction =>
      unfold Collection.sweepFor
      split
      · rename_i cursor clean position
        apply induction
        exact stable.visit holds (isSpent_of_sweeping position)
      · exact holds

theorem sweep (stable : WorkStable property) (holds : property collection) :
    property collection.sweep :=
  stable.sweepFor (stable.markRoots holds) _

theorem reclaim (stable : WorkStable property) (holds : property collection) :
    property collection.reclaim.2 :=
  stable.step (stable.sweep holds) _

theorem stepUntilReport (stable : WorkStable property) (holds : property collection)
    (budget calls : Nat) :
    property (collection.stepUntilReport budget calls).2 := by
  induction calls generalizing collection with
  | zero => exact holds
  | succ calls induction =>
      have stepped := stable.step holds budget
      unfold Collection.stepUntilReport
      split
      · rename_i report after found
        rwa [found] at stepped
      · rename_i after found
        rw [found] at stepped
        exact induction stepped

end WorkStable

theorem consistent_workStable : WorkStable Consistent where
  markRoots consistent := consistent.markRoots.consistent
  visit consistent pending := (consistent.visit pending).consistent
  finish consistent spent := (consistent.finish spent).consistent

/-- A property of heaps that survives whatever a piece of work does to them
survives the work of a consistent collector. -/
theorem workStable_of_worked {property : Heap → Prop}
    (stable : ∀ {before after : Heap} {free : List Ref}, before.WellFormed free →
      Heap.Worked before after → property before → property after) :
    WorkStable fun collection => collection.Consistent ∧ property collection.heap := by
  have advance : ∀ {before after : Collection}, before.Consistent ∧ property before.heap →
      Advances before after → after.Consistent ∧ property after.heap := by
    intro before after held advances
    obtain ⟨free, ordered⟩ := held.1.ordered
    exact ⟨advances.consistent, stable ordered advances.worked held.2⟩
  exact
    { markRoots := fun held => advance held held.1.markRoots
      visit := fun held pending => advance held (held.1.visit pending)
      finish := fun held spent => advance held (held.1.finish spent) }

end Collection

/-- What a request does to the heap, if it is one that a mutator completes
without a collector. -/
def Request.mutation? : Request → Option (Heap → Heap)
  | .allocate => some fun heap => heap.allocate.2
  | .release ref => some fun heap => (heap.release ref).2
  | .setChild parent side child => some fun heap => (heap.setChild parent side child).2
  | .allocateChild parent side => some fun heap => (heap.allocateChild parent side).2
  | .shade ref => some fun heap => (heap.shadeNode ref).2
  | _ => none

/-- The request is for a collector, and no mutator has a part in the answer. -/
def Request.isForCollector : Request → Bool
  | .attach => true
  | .detach => true
  | .markRoots => true
  | .sweep => true
  | .step _ => true
  | .reclaim => true
  | .runCycle => true
  | .spawn _ => true
  | .stop => true
  | .requestCycle _ => true
  | .requestAndWait _ => true
  | _ => false

/-- What a mutator is told about the outcome of its operation. -/
def Reply.ofResult {α : Type} (reply : α → Reply) : Except Fault α → Reply
  | .ok value => reply value
  | .error reason => .fault reason

namespace Session

/-- The collector of a session; a new one if none is attached. -/
def collector (session : Session) : Collector :=
  match session.driver with
  | .unattended => {}
  | .stepping collector => collector
  | .background collector _ => collector

def collection (session : Session) : Collection :=
  ⟨session.heap, session.collector⟩

/-- What is met in the midst of a request: the collector's work consists of
single pieces, and this is what may lie between two of them. -/
inductive Meets (session : Session) : Collection → Prop where
  | outset : session.Meets session.collection
  | markRoots {collection : Collection} :
      session.Meets collection → session.Meets collection.markRoots
  | visit {collection : Collection} :
      session.Meets collection → collection.isSpent = false →
      session.Meets collection.visit
  | finish {collection : Collection} :
      session.Meets collection → collection.isSpent = true →
      session.Meets collection.finish.2

/-- All collector work stays within what is met, so nothing is missing. -/
theorem meets_workStable (session : Session) : Collection.WorkStable session.Meets where
  markRoots := .markRoots
  visit := .visit
  finish := .finish

theorem Meets.of_workStable
    {session : Session} {collection : Collection} {property : Collection → Prop}
    (met : session.Meets collection) (stable : Collection.WorkStable property)
    (holds : property session.collection) :
    property collection := by
  induction met with
  | outset => exact holds
  | markRoots _ induction => exact stable.markRoots induction
  | visit _ pending induction => exact stable.visit induction pending
  | finish _ spent induction => exact stable.finish induction spent

/-- Every request of the run is admitted at the moment it is made. -/
def Obeys (admits : Heap → Request → Prop) : Session → List Request → Prop
  | _, [] => True
  | session, request :: requests =>
      admits session.heap request ∧ Obeys admits (session.apply request).2 requests

theorem Obeys.of_append
    {admits : Heap → Request → Prop} {session : Session} {requests more : List Request}
    (obeys : session.Obeys admits (requests ++ more)) :
    session.Obeys admits requests := by
  induction requests generalizing session with
  | nil => trivial
  | cons request requests induction => exact ⟨obeys.1, induction obeys.2⟩

theorem Obeys.congr
    {first second : Heap → Request → Prop} {session : Session} {requests : List Request}
    (same : ∀ heap, ∀ request ∈ requests, first heap request ↔ second heap request) :
    session.Obeys first requests ↔ session.Obeys second requests := by
  induction requests generalizing session with
  | nil => rfl
  | cons request requests induction =>
      have rest := fun heap other member => same heap other (List.mem_cons_of_mem _ member)
      exact and_congr (same session.heap request List.mem_cons_self) (induction rest)

/-- No admitted request breaks the property. -/
structure Preserves (admits : Heap → Request → Prop) (property : Collection → Prop) :
    Prop extends Collection.WorkStable property where
  mutation : ∀ {heap : Heap} {collector : Collector} {request : Request}
    {change : Heap → Heap}, request.mutation? = some change → admits heap request →
    property ⟨heap, collector⟩ → property ⟨change heap, collector⟩
  retry : ∀ {heap : Heap} {parent : Ref} {side : Side} {handle : Option Nat},
    admits heap (.allocateChildOrCollect parent side handle) →
    ∀ retried : Heap, admits retried (.allocateChild parent side)
  attach : ∀ {heap : Heap}, property ⟨heap, {}⟩ → property (Collection.attach heap)
  detach : ∀ {collection : Collection}, admits collection.heap .detach →
    property collection → property ⟨collection.detach, {}⟩

theorem mutate_eq
    {α : Type} (session : Session) (reply : α → Reply) (operation : Heap → Outcome α) :
    session.mutate reply operation =
      (.ofResult reply (operation session.heap).1,
        { session with heap := (operation session.heap).2 }) := by
  obtain ⟨heap, driver, handles⟩ := session
  unfold mutate
  rcases found : operation heap with ⟨fault | value, after⟩ <;> simp [found, Reply.ofResult]

theorem mutate_snd
    {α : Type} (session : Session) (reply : α → Reply) (operation : Heap → Outcome α) :
    (session.mutate reply operation).2 =
      { session with heap := (operation session.heap).2 } :=
  congrArg Prod.snd (session.mutate_eq reply operation)

theorem mutate_of_ok
    {α : Type} {session : Session} {reply : α → Reply} {operation : Heap → Outcome α}
    {value : α} {after : Heap} (granted : operation session.heap = (.ok value, after)) :
    session.mutate reply operation = (reply value, { session with heap := after }) := by
  rw [mutate_eq, granted]
  rfl

theorem mutate_of_error
    {α : Type} {session : Session} {reply : α → Reply} {operation : Heap → Outcome α}
    {fault : Fault} {after : Heap} (refused : operation session.heap = (.error fault, after)) :
    session.mutate reply operation = (.fault fault, { session with heap := after }) := by
  rw [mutate_eq, refused]
  rfl

theorem apply_allocateChild_of_ok
    {session : Session} {parent : Ref} {side : Side} {ref : Ref} {after : Heap}
    (granted : session.heap.allocateChild parent side = (.ok ref, after)) :
    session.apply (.allocateChild parent side) =
      (.ref ref, { session with heap := after }) := by
  change session.mutate .ref (·.allocateChild parent side) = _
  exact mutate_of_ok granted

theorem apply_allocateChild_of_error
    {session : Session} {parent : Ref} {side : Side} {fault : Fault} {after : Heap}
    (refused : session.heap.allocateChild parent side = (.error fault, after)) :
    session.apply (.allocateChild parent side) =
      (.fault fault, { session with heap := after }) := by
  change session.mutate .ref (·.allocateChild parent side) = _
  exact mutate_of_error refused

theorem awaitCycle_snd (session : Session) (handle : Nat) :
    (session.awaitCycle handle).2 = session.wake handle :=
  rfl

theorem requestAndWait_snd (session : Session) (handle : Nat) :
    (session.requestAndWait handle).2 = session.wake handle := by
  rw [← awaitCycle_snd]
  unfold requestAndWait
  split
  · rename_i found
    rw [found]
  · rename_i found
    rw [found]

/-- There is nobody to wake. -/
theorem wake_of_not_serves {session : Session} {handle : Nat}
    (gone : session.serves handle = false) : session.wake handle = session := by
  simp only [wake, gone, Bool.false_eq_true, if_false]

/-- Collector work that answers a request leaves its result in the session. -/
theorem drive_collection
    {property : Collection → Prop} {session : Session}
    (holds : property session.collection) {work : Collection → Reply × Collection}
    (stable : property session.collection → property (work session.collection).2) :
    property (session.drive work).2.collection := by
  obtain ⟨heap, driver, handles⟩ := session
  cases driver with
  | unattended => exact holds
  | stepping collector => exact stable holds
  | background collector budget => exact holds

namespace Preserves

variable {admits : Heap → Request → Prop} {property : Collection → Prop}
  {session : Session}

theorem completeCycle (preserves : Preserves admits property)
    (holds : property session.collection) :
    property session.completeCycle.collection := by
  obtain ⟨heap, driver, handles⟩ := session
  cases driver with
  | unattended => exact holds
  | stepping collector => exact holds
  | background collector budget =>
      have attached : property ⟨heap, collector⟩ := holds
      exact preserves.stepUntilReport attached budget
        (Collection.cycleBound ⟨heap, collector⟩)

theorem wake (preserves : Preserves admits property)
    (holds : property session.collection) (handle : Nat) :
    property (session.wake handle).collection := by
  unfold Session.wake
  split
  · exact preserves.completeCycle holds
  · exact holds

theorem mutate (preserves : Preserves admits property)
    (holds : property session.collection) {α : Type} {reply : α → Reply}
    {operation : Heap → Outcome α} {request : Request}
    (performs : request.mutation? = some fun heap => (operation heap).2)
    (admitted : admits session.heap request) :
    property (session.mutate reply operation).2.collection := by
  rw [mutate_snd]
  exact preserves.mutation performs admitted holds

theorem allocateChildOrCollect (preserves : Preserves admits property)
    (holds : property session.collection) {parent : Ref} {side : Side} {handle : Option Nat}
    (admitted : admits session.heap (.allocateChildOrCollect parent side handle)) :
    property (session.allocateChildOrCollect parent side handle).2.collection := by
  have retry := preserves.retry admitted
  have performs : (Request.allocateChild parent side).mutation? =
      some fun heap => (heap.allocateChild parent side).2 := rfl
  have first : property
      (session.mutate .ref (·.allocateChild parent side)).2.collection :=
    preserves.mutate holds performs (retry session.heap)
  unfold Session.allocateChildOrCollect
  split
  · rename_i exhausted found
    rw [found] at first
    cases handle with
    | none => exact first
    | some handle => exact preserves.mutate (preserves.wake first handle) performs (retry _)
  · exact first

theorem spawn (preserves : Preserves admits property)
    (holds : property session.collection) (budget : Nat) :
    property (session.spawn budget).2.collection := by
  obtain ⟨heap, driver, handles⟩ := session
  cases driver with
  | unattended => exact holds
  | stepping collector =>
      have attached : property ⟨heap, collector⟩ := holds
      exact preserves.stepUntilReport attached (max 1 budget)
        (Collection.cycleBound ⟨heap, collector⟩)
  | background collector budget => exact holds

theorem apply (preserves : Preserves admits property) {request : Request}
    (admitted : admits session.heap request) (holds : property session.collection) :
    property (session.apply request).2.collection := by
  cases request with
  | allocate => exact preserves.mutate holds rfl admitted
  | release ref => exact preserves.mutate holds rfl admitted
  | setChild parent side child => exact preserves.mutate holds rfl admitted
  | allocateChild parent side => exact preserves.mutate holds rfl admitted
  | allocateChildOrCollect parent side handle =>
      exact preserves.allocateChildOrCollect holds admitted
  | shade ref => exact preserves.mutate holds rfl admitted
  | attach =>
      obtain ⟨heap, driver, handles⟩ := session
      cases driver with
      | unattended => exact preserves.attach holds
      | stepping collector => exact holds
      | background collector budget => exact holds
  | detach =>
      obtain ⟨heap, driver, handles⟩ := session
      cases driver with
      | unattended => exact holds
      | stepping collector => exact preserves.detach admitted holds
      | background collector budget => exact preserves.detach admitted holds
  | markRoots => exact drive_collection holds preserves.markRoots
  | sweep => exact drive_collection holds preserves.sweep
  | step budget => exact drive_collection holds fun attached => preserves.step attached budget
  | reclaim => exact drive_collection holds preserves.reclaim
  | runCycle => exact drive_collection holds preserves.reclaim
  | spawn budget => exact preserves.spawn holds budget
  | stop =>
      obtain ⟨heap, driver, handles⟩ := session
      cases driver <;> exact holds
  | requestCycle handle => exact preserves.wake holds handle
  | requestAndWait handle =>
      change property (session.requestAndWait handle).2.collection
      rw [requestAndWait_snd]
      exact preserves.wake holds handle

theorem run (preserves : Preserves admits property) {requests : List Request}
    (obeys : Obeys admits session requests) (holds : property session.collection) :
    property (session.run requests).collection := by
  induction requests generalizing session with
  | nil => exact holds
  | cons request requests induction =>
      obtain ⟨admitted, rest⟩ := obeys
      exact induction rest (preserves.apply admitted holds)

end Preserves

end Session

end Tricolor
