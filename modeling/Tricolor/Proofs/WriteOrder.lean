import Tricolor.Proofs.Ledger

/-!
# Writes in any order

Mutators that write slots take turns in an order that nobody controls.  As long as no two of
them write the same slot, the order does not matter: a write is judged by what is live and not
condemned, and by whether its parent is black, and no other write changes any of that.  What
two writes do to marks they do once, whichever of them comes first.
-/

namespace Tricolor

/-- A mutator's call to write one slot. -/
structure Write where
  parent : Ref
  side : Side
  child : Ref
  deriving DecidableEq, Repr

namespace Write

def slot (write : Write) : Ref × Side := (write.parent, write.side)

def request (write : Write) : Request := .setChild write.parent write.side write.child

end Write

namespace Heap

variable {heap before after : Heap} {parent target ref : Ref} {side : Side}
  {first second : Write}

/-- A heap is determined by what can be read from it. -/
theorem eq_of_node (capacity : before.capacity = after.capacity)
    (node : ∀ ref, before.node ref = after.node ref)
    (phase : before.phase = after.phase) (freeCount : before.freeCount = after.freeCount)
    (greyCount : before.greyCount = after.greyCount)
    (frontier : before.frontier = after.frontier)
    (cyclesStarted : before.cyclesStarted = after.cyclesStarted)
    (events : before.events = after.events) :
    before = after := by
  have nodes : before.nodes = after.nodes := by
    apply Array.ext capacity
    intro index inside insideAfter
    have same := node index
    simpa [Heap.node, Array.getD, inside, insideAfter] using same
  cases before
  cases after
  simp_all

/-- The link shades its target. -/
def Shades (heap : Heap) (parent target : Ref) : Prop :=
  target ≠ Ref.nil ∧ heap.phase = .marking ∧ (heap.node parent).color = .black ∧
    (heap.node target).color = .white

instance decidableShades (heap : Heap) (parent target : Ref) :
    Decidable (heap.Shades parent target) :=
  inferInstanceAs (Decidable (_ ∧ _))

theorem insertionBarrier_eq_ite (heap : Heap) (parent target : Ref) :
    heap.insertionBarrier parent target =
      if heap.Shades parent target then heap.repaint target .grey (heap.greyCount + 1)
      else heap := by
  unfold insertionBarrier shade
  by_cases barred : target ≠ Ref.nil ∧ heap.phase = .marking ∧
      (heap.node parent).color = .black
  · simp [Shades, barred]
  · rw [if_neg barred, if_neg]
    exact fun shades => barred ⟨shades.1, shades.2.1, shades.2.2.1⟩

theorem color_relink (heap : Heap) (parent : Ref) (side : Side) (target ref : Ref) :
    ((heap.relink parent side target).node ref).color =
      if ref = target ∧ heap.Shades parent target then .grey
      else (heap.node ref).color := by
  rw [relink, color_writeChild, insertionBarrier_eq_ite]
  by_cases shades : heap.Shades parent target
  · have inside : target < heap.capacity := by
      apply lt_capacity_of_color_ne_black
      simp [shades.2.2.2]
    rw [if_pos shades, color_repaint]
    by_cases hit : ref = target
    · simp [hit, inside, shades]
    · simp [hit]
  · simp [shades]

theorem greyCount_relink (heap : Heap) (parent : Ref) (side : Side) (target : Ref) :
    (heap.relink parent side target).greyCount =
      heap.greyCount + if heap.Shades parent target then 1 else 0 := by
  change (heap.insertionBarrier parent target).greyCount = _
  rw [insertionBarrier_eq_ite]
  split <;> rfl

/-- A link takes over the work of a later one that would shade the same node, and otherwise
leaves it what it has to do. -/
theorem shades_relink_iff {otherParent otherTarget : Ref} :
    (heap.relink parent side target).Shades otherParent otherTarget ↔
      heap.Shades otherParent otherTarget ∧
        ¬ (otherTarget = target ∧ heap.Shades parent target) := by
  have phase : (heap.relink parent side target).phase = heap.phase :=
    (insertionBarrier_shaded heap parent target).phase
  have black : ((heap.relink parent side target).node otherParent).color = .black ↔
      (heap.node otherParent).color = .black := by
    rw [color_relink]
    split
    · rename_i hit
      simp [hit.1, hit.2.2.2.2]
    · rfl
  have white : ((heap.relink parent side target).node otherTarget).color = .white ↔
      (heap.node otherTarget).color = .white ∧
        ¬ (otherTarget = target ∧ heap.Shades parent target) := by
    rw [color_relink]
    split
    · rename_i hit
      simp [hit]
    · rename_i missed
      simp [missed]
  change _ ∧ _ ∧ _ ∧ _ ↔ (_ ∧ _ ∧ _ ∧ _) ∧ _
  rw [phase, black, white]
  simp only [and_assoc]

/-- Two links of different slots come to the same in either order. -/
theorem relink_comm {otherParent otherTarget : Ref} {otherSide : Side}
    (inside : parent < heap.capacity) (otherInside : otherParent < heap.capacity)
    (different : (parent, side) ≠ (otherParent, otherSide)) :
    (heap.relink parent side target).relink otherParent otherSide otherTarget =
      (heap.relink otherParent otherSide otherTarget).relink parent side target := by
  have first := linked_relink inside side target
  have other := linked_relink otherInside otherSide otherTarget
  have firstThenOther :=
    linked_relink (first.capacity ▸ otherInside) otherSide otherTarget
  have otherThenFirst := linked_relink (other.capacity ▸ inside) side target
  apply eq_of_node
  · rw [firstThenOther.capacity, first.capacity, otherThenFirst.capacity, other.capacity]
  · intro ref
    apply Node.ext_child
    · intro slot
      rw [firstThenOther.child, first.child, otherThenFirst.child, other.child]
      by_cases hit : ref = parent ∧ slot = side
      · have missed : ¬ (ref = otherParent ∧ slot = otherSide) := by
          rintro ⟨rfl, rfl⟩
          exact different (by rw [hit.1, hit.2])
        rw [if_neg missed, if_pos hit, if_pos hit]
      · rw [if_neg hit, if_neg hit]
    · rw [color_relink, color_relink, color_relink, color_relink]
      simp only [shades_relink_iff]
      grind
    · rw [firstThenOther.live, first.live, otherThenFirst.live, other.live]
  · rw [firstThenOther.phase, first.phase, otherThenFirst.phase, other.phase]
  · rw [firstThenOther.freeCount, first.freeCount, otherThenFirst.freeCount, other.freeCount]
  · rw [greyCount_relink, greyCount_relink, greyCount_relink, greyCount_relink]
    simp only [shades_relink_iff]
    grind
  · rw [firstThenOther.frontier, first.frontier, otherThenFirst.frontier, other.frontier]
  · rw [firstThenOther.cyclesStarted, first.cyclesStarted, otherThenFirst.cyclesStarted,
      other.cyclesStarted]
  · rw [(relink_silent ..).events, (relink_silent ..).events, (relink_silent ..).events,
      (relink_silent ..).events]

/-- A mutator writes a slot. -/
def write (heap : Heap) (write : Write) : Outcome Unit :=
  heap.setChild write.parent write.side write.child

theorem checkUsable_congr (usable : after.Usable ref ↔ before.Usable ref) :
    after.checkUsable ref = before.checkUsable ref := by
  unfold checkUsable
  simp only [usable]

/-- A write is judged by the size of the heap and by what is usable. -/
theorem write_fst_congr (capacity : after.capacity = before.capacity)
    (usable : ∀ ref, after.Usable ref ↔ before.Usable ref) (write : Write) :
    (after.write write).1 = (before.write write).1 := by
  have ranged : ∀ ref, after.checkRange ref = before.checkRange ref := by
    intro ref
    unfold checkRange
    rw [capacity]
  have writable : after.checkWritable write.parent = before.checkWritable write.parent := by
    unfold checkWritable
    rw [ranged]
  unfold Heap.write setChild link
  rw [writable, ranged, checkUsable_congr (usable write.parent),
    checkUsable_congr (usable write.child)]
  cases before.checkWritable write.parent with
  | error fault => rfl
  | ok =>
      cases before.checkRange write.child with
      | error fault => rfl
      | ok =>
          dsimp only
          split
          · rfl
          · cases before.checkUsable write.parent with
            | error fault => rfl
            | ok =>
                dsimp only
                split <;> rfl

/-- A write that is refused leaves no trace, and one that is granted makes its link. -/
theorem write_cases (heap : Heap) (write : Write) :
    (∃ fault, heap.write write = (.error fault, heap)) ∨
      heap.Linkable write.parent write.child ∧
        heap.write write = (.ok (), heap.relink write.parent write.side write.child) :=
  heap.setChild_cases write.parent write.side write.child

theorem write_of_ok (granted : (heap.write first).1 = .ok ()) :
    heap.Linkable first.parent first.child ∧
      (heap.write first).2 = heap.relink first.parent first.side first.child := by
  rcases heap.write_cases first with ⟨fault, refused⟩ | ⟨linkable, linked⟩
  · rw [refused] at granted
    cases granted
  · exact ⟨linkable, congrArg Prod.snd linked⟩

theorem write_of_error {fault : Fault} (refused : (heap.write first).1 = .error fault) :
    (heap.write first).2 = heap := by
  rcases heap.write_cases first with ⟨other, unchanged⟩ | ⟨linkable, linked⟩
  · exact congrArg Prod.snd unchanged
  · rw [linked] at refused
    cases refused

/-- No write has a say in how another one is answered. -/
theorem write_write_fst (heap : Heap) (first second : Write) :
    ((heap.write first).2.write second).1 = (heap.write second).1 := by
  rcases heap.write_cases first with ⟨fault, refused⟩ | ⟨linkable, linked⟩
  · rw [refused]
  · have linkedBelow := linkable.linked first.side
    rw [linked]
    exact write_fst_congr linkedBelow.capacity linkedBelow.usable_iff second

/-- Writes of different slots leave the same heap in either order. -/
theorem write_write_snd (heap : Heap) (different : first.slot ≠ second.slot) :
    ((heap.write first).2.write second).2 = ((heap.write second).2.write first).2 := by
  have secondAnswer := heap.write_write_fst first second
  have firstAnswer := heap.write_write_fst second first
  cases firstAlone : (heap.write first).1 with
  | error fault =>
      rw [write_of_error firstAlone, write_of_error (firstAnswer.trans firstAlone)]
  | ok =>
      cases secondAlone : (heap.write second).1 with
      | error fault =>
          rw [write_of_error secondAlone, write_of_error (secondAnswer.trans secondAlone)]
      | ok =>
          obtain ⟨firstLinkable, firstLinked⟩ := write_of_ok firstAlone
          obtain ⟨secondLinkable, secondLinked⟩ := write_of_ok secondAlone
          rw [(write_of_ok (secondAnswer.trans secondAlone)).2,
            (write_of_ok (firstAnswer.trans firstAlone)).2, firstLinked, secondLinked]
          exact relink_comm firstLinkable.parentInside secondLinkable.parentInside different

end Heap

namespace Session

/-- The answers to a sequence of requests. -/
def answers : Session → List Request → List Reply
  | _, [] => []
  | session, request :: requests =>
      (session.apply request).1 :: answers (session.apply request).2 requests

theorem apply_write (session : Session) (write : Write) :
    session.apply write.request =
      (.ofResult (fun _ => .done) (session.heap.write write).1,
        { session with heap := (session.heap.write write).2 }) :=
  session.mutate_eq (fun _ => .done) (·.write write)

theorem apply_write_fst (session : Session) (first second : Write) :
    ((session.apply first.request).2.apply second.request).1 =
      (session.apply second.request).1 := by
  rw [apply_write, apply_write, apply_write]
  exact congrArg (Reply.ofResult fun _ => .done) (session.heap.write_write_fst first second)

theorem apply_write_snd (session : Session) {first second : Write}
    (different : first.slot ≠ second.slot) :
    ((session.apply first.request).2.apply second.request).2 =
      ((session.apply second.request).2.apply first.request).2 := by
  rw [apply_write, apply_write, apply_write, apply_write]
  exact congrArg (Session.mk · session.driver session.handles)
    (session.heap.write_write_snd different)

/-- Every write is answered as if it were the only one. -/
theorem answers_writes (session : Session) (writes : List Write) :
    session.answers (writes.map Write.request) =
      writes.map fun write => (session.apply write.request).1 := by
  induction writes generalizing session with
  | nil => rfl
  | cons first writes induction =>
      rw [List.map_cons, List.map_cons, answers, induction]
      apply congrArg
      apply List.map_congr_left
      exact fun write _ => session.apply_write_fst first write

/-- Writes of pairwise different slots can be put in any order. -/
theorem run_of_perm {writes order : List Write} (permuted : order.Perm writes)
    (different : (writes.map Write.slot).Nodup) (session : Session) :
    session.run (order.map Write.request) = session.run (writes.map Write.request) := by
  induction permuted generalizing session with
  | nil => rfl
  | cons first _ induction =>
      exact induction (List.nodup_cons.mp different).2 (session.apply first.request).2
  | swap first second rest =>
      have distinct : second.slot ≠ first.slot := by
        intro same
        exact (List.nodup_cons.mp different).1 (by simp [same])
      exact congrArg (Session.run · (rest.map Write.request)) (session.apply_write_snd distinct)
  | trans first second firstInduction secondInduction =>
      have between := (second.map Write.slot).nodup_iff.mpr different
      exact (firstInduction between session).trans (secondInduction different session)

/-- Whatever state the session is in: two writes of different slots are answered alike in
either order and leave the same session, and so does a batch of writes of pairwise different
slots in every order; each of them is answered as if it were the only one. -/
theorem run_writes_perm (session : Session) :
    (∀ first second : Write, first.slot ≠ second.slot →
      ((session.apply second.request).2.apply first.request).1 =
          (session.apply first.request).1 ∧
        ((session.apply first.request).2.apply second.request).1 =
          (session.apply second.request).1 ∧
        ((session.apply first.request).2.apply second.request).2 =
          ((session.apply second.request).2.apply first.request).2) ∧
    ∀ writes : List Write, (writes.map Write.slot).Nodup →
      ∀ order : List Write, order.Perm writes →
      session.run (order.map Write.request) = session.run (writes.map Write.request) ∧
        session.answers (order.map Write.request) =
          order.map fun write => (session.apply write.request).1 := by
  constructor
  · intro first second different
    exact ⟨session.apply_write_fst second first, session.apply_write_fst first second,
      session.apply_write_snd different⟩
  · intro writes different order permuted
    exact ⟨run_of_perm permuted different session, session.answers_writes order⟩

/-- Roots 1 and 2 are black and node 4 is white, so that whichever write comes first shades it,
and root 3 may not be written. -/
theorem run_writes_perm_shared_child :
    let session := (ofHeap (Heap.fresh 6)).run [.allocate, .allocate, .attach, .step 3]
    let fromFirst : Write := ⟨1, .left, 4⟩
    let fromSecond : Write := ⟨2, .right, 4⟩
    let below : Write := ⟨4, .left, 5⟩
    let reserved : Write := ⟨3, .right, 4⟩
    session.heap.Shades 1 4 ∧ session.heap.Shades 2 4 ∧
      ((session.apply fromSecond.request).2.apply fromFirst.request).1 = .done ∧
      ((session.apply fromFirst.request).2.apply fromSecond.request).2 =
        ((session.apply fromSecond.request).2.apply fromFirst.request).2 ∧
      session.run ([reserved, below, fromSecond, fromFirst].map Write.request) =
        session.run ([fromFirst, fromSecond, below, reserved].map Write.request) ∧
      session.answers ([reserved, below, fromSecond, fromFirst].map Write.request) =
        [.fault (.reserved 3), .done, .done, .done] := by
  intro session fromFirst fromSecond below reserved
  obtain ⟨pairs, batches⟩ := run_writes_perm session
  have different : fromFirst.slot ≠ fromSecond.slot := by decide
  have distinct : ([fromFirst, fromSecond, below, reserved].map Write.slot).Nodup := by decide
  have permuted : [reserved, below, fromSecond, fromFirst].Perm
      [fromFirst, fromSecond, below, reserved] := by decide
  have first : session.heap.Shades 1 4 := by decide +kernel
  have second : session.heap.Shades 2 4 := by decide +kernel
  have alone : [reserved, below, fromSecond, fromFirst].map
        (fun write => (session.apply write.request).1) =
      [.fault (.reserved 3), .done, .done, .done] := by
    decide +kernel
  have done : (session.apply fromFirst.request).1 = .done := by decide +kernel
  clear_value session
  obtain ⟨firstAnswer, -, same⟩ := pairs fromFirst fromSecond different
  obtain ⟨sameRun, answers⟩ := batches _ distinct _ permuted
  exact ⟨first, second, firstAnswer.trans done, same, sameRun, answers.trans alone⟩

end Session

end Tricolor
