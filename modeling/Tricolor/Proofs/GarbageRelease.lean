import Tricolor.Proofs.MutatorFrame
import Tricolor.Proofs.ReleaseHistory
import Tricolor.Proofs.Retention
import Tricolor.Proofs.SteppedCycles

/-!
# Garbage is released in spite of interference

What neither a marking root nor a grey node leads to when a cycle starts is cut off:
no slot of another node leads there, and marking spreads only along slots.  As long
as mutators do not name such nodes, they cannot link to them or mark them either, so
they stay cut off and white until the reclaim pass meets them, one after the other.
-/

namespace Tricolor

namespace Heap

/-- A node for mutators that a cycle starting now need not retain: no marking root and
no grey node leads to it. -/
structure Lost (heap : Heap) (ref : Ref) : Prop where
  rooted : minCapacity ≤ ref
  inside : ref < heap.capacity
  unretained : ¬ heap.Retained ref

/-- The lost nodes are in use and white, and no slot of another node leads to them. -/
structure Secluded (heap : Heap) (lost : Ref → Prop) : Prop where
  rooted : ∀ ref, lost ref → minCapacity ≤ ref
  live : ∀ ref, lost ref → (heap.node ref).live = true
  white : ∀ ref, lost ref → (heap.node ref).color = .white
  apart : ∀ ref side, lost ((heap.node ref).child side) → lost ref

/-- Before a cycle starts, what it need not retain is secluded. -/
theorem Resting.secluded_lost
    {heap : Heap} {free : List Ref} (resting : heap.Resting) (ordered : heap.WellFormed free) :
    heap.Secluded heap.Lost where
  rooted ref lost := lost.rooted
  live ref lost := by
    apply Bool.of_not_eq_false
    intro dead
    exact lost.unretained (ordered.retained_of_free ((ordered.mem_iff ref).mpr dead))
  white ref lost := by
    cases color : (heap.node ref).color with
    | white => rfl
    | grey => exact absurd (ordered.retained_of_grey color) lost.unretained
    | black =>
        have beyond := resting.unmarked ref (ne_nil_of_rooted lost.rooted) color
        exact absurd lost.inside (Nat.not_lt.mpr beyond)
  apart parent side lost := by
    have proper := ne_nil_of_rooted lost.rooted
    have inside : parent < heap.capacity := by
      apply Nat.lt_of_not_le
      intro beyond
      rw [node_of_capacity_le beyond, Node.sentinel_child] at proper
      exact proper rfl
    have unretained : ¬ heap.Retained parent :=
      fun retained => lost.unretained (retained.child side proper)
    refine ⟨minCapacity_le_of_not_isRoot ?_ ?_, inside, unretained⟩
    · apply Nat.pos_of_ne_zero
      intro empty
      rw [empty] at proper
      exact proper (ordered.sentinelChild side)
    · intro isRoot
      exact unretained (.of_root (Ref.mem_roots_iff.mpr isRoot))

namespace Secluded

variable {before after heap : Heap} {lost : Ref → Prop} {free : List Ref} {ref : Ref}

theorem not_nil (secluded : heap.Secluded lost) : ¬ lost Ref.nil := by
  intro hit
  exact ne_nil_of_rooted (secluded.rooted _ hit) rfl

theorem not_firstFree (secluded : heap.Secluded lost) (ordered : heap.WellFormed free) :
    ¬ lost heap.firstFree := by
  intro hit
  have dead := ordered.firstFree_dead (ne_nil_of_rooted (secluded.rooted _ hit))
  exact Bool.noConfusion (dead.symm.trans (secluded.live _ hit))

theorem sameShape (secluded : before.Secluded lost) (same : SameShape before after)
    (white : ∀ ref, lost ref → (after.node ref).color = .white) :
    after.Secluded lost where
  rooted := secluded.rooted
  live ref hit := (same.live ref).trans (secluded.live ref hit)
  white := white
  apart ref side hit := by
    rw [same.child] at hit
    exact secluded.apart ref side hit

/-- Only children of the node that is scanned are shaded, and none of them is lost. -/
theorem scanned {cursor : Ref} (secluded : before.Secluded lost)
    (scanned : Scanned before cursor after) :
    after.Secluded lost := by
  apply secluded.sameShape scanned.toSameShape
  intro ref hit
  apply Decidable.by_contra
  intro marked
  obtain ⟨side, isChild⟩ := scanned.shadedChild ref (secluded.white ref hit) marked
  have white := secluded.white cursor (secluded.apart cursor side (isChild.symm ▸ hit))
  exact Color.noConfusion (white.symm.trans scanned.grey)

theorem apart_popped {first : Ref} (secluded : before.Secluded lost)
    (popped : Popped before first after) (notFirst : ¬ lost first) (side : Side)
    (hit : lost ((after.node ref).child side)) :
    lost ref := by
  rw [popped.child] at hit
  split at hit
  · exact absurd hit secluded.not_nil
  · split at hit
    · exact absurd (secluded.apart first .right hit) notFirst
    · exact secluded.apart ref side hit

theorem apart_linked {parent target : Ref} {side other : Side}
    (apart : ∀ ref side, lost ((before.node ref).child side) → lost ref)
    (linked : Linked before parent side target after) (notTarget : ¬ lost target)
    (hit : lost ((after.node ref).child other)) :
    lost ref := by
  rw [linked.child] at hit
  split at hit
  · exact absurd hit notTarget
  · exact apart ref other hit

/-- A mutator that names no lost node makes no slot lead to one. -/
theorem apart_performed {request : Request} (secluded : before.Secluded lost)
    (ordered : before.WellFormed free) (performed : Performed before request after)
    (unnamed : ∀ ref ∈ request.names, ¬ lost ref) (side : Side)
    (hit : lost ((after.node ref).child side)) :
    lost ref := by
  cases performed with
  | refused => exact secluded.apart ref side hit
  | allocated available popped =>
      exact secluded.apart_popped popped (secluded.not_firstFree ordered) side hit
  | @released released barred _ releasable shading guarded pushed =>
      have notReleased : ¬ lost released := unnamed released (by simp [Request.names])
      rw [pushed.child, shading.firstFree, shading.child] at hit
      split at hit
      · split at hit
        · exact absurd hit (secluded.not_firstFree ordered)
        · exact absurd hit secluded.not_nil
      · split at hit
        · exact absurd hit notReleased
        · exact secluded.apart ref side hit
  | @linked parent child _ _ linkable linked =>
      have notChild : ¬ lost child := unnamed child (by simp [Request.names])
      exact apart_linked secluded.apart linked notChild hit
  | grown available usable popped linkable linked =>
      have notFirst := secluded.not_firstFree ordered
      refine apart_linked (fun ref side hit => ?_) linked notFirst hit
      exact secluded.apart_popped popped notFirst side hit
  | shaded inside shading =>
      rw [shading.child] at hit
      exact secluded.apart ref side hit

theorem mutated (secluded : before.Secluded lost) (ordered : before.WellFormed free)
    {request : Request} (unnamed : ∀ ref ∈ request.names, ¬ lost ref) :
    (request.change before).Secluded lost := by
  have same : ∀ ref, lost ref → (request.change before).node ref = before.node ref := by
    intro ref hit
    unfold Request.change
    cases performs : request.mutation? with
    | none => rfl
    | some change =>
        exact ordered.node_mutation_of_unnamed performs (secluded.rooted ref hit)
          (secluded.live ref hit) fun named => unnamed ref named hit
  constructor
  · exact secluded.rooted
  · intro ref hit
    rw [same ref hit]
    exact secluded.live ref hit
  · intro ref hit
    rw [same ref hit]
    exact secluded.white ref hit
  · intro ref side hit
    exact secluded.apart_performed ordered (ordered.performed_change request) unnamed side hit

/-- The reclaim pass releases the node at its cursor and cuts it off from those ahead. -/
theorem pushed {cursor : Nat}
    (secluded : before.Secluded fun ref => lost ref ∧ cursor ≤ ref)
    (ordered : before.WellFormed free)
    (pushed : Pushed (before.moveFrontier (cursor + 1)) cursor after) :
    after.Secluded fun ref => lost ref ∧ cursor + 1 ≤ ref where
  rooted ref hit := secluded.rooted ref ⟨hit.1, Nat.le_of_succ_le hit.2⟩
  live ref hit := by
    rw [pushed.live, if_neg (Nat.ne_of_gt hit.2)]
    exact secluded.live ref ⟨hit.1, Nat.le_of_succ_le hit.2⟩
  white ref hit := by
    rw [pushed.color]
    exact secluded.white ref ⟨hit.1, Nat.le_of_succ_le hit.2⟩
  apart ref side hit := by
    have weaken : ∀ {other : Ref}, lost other ∧ cursor + 1 ≤ other →
        lost other ∧ cursor ≤ other := fun both => ⟨both.1, Nat.le_of_succ_le both.2⟩
    rw [pushed.child] at hit
    split at hit
    · split at hit
      · exact absurd (weaken hit) (secluded.not_firstFree ordered)
      · exact absurd (weaken hit) secluded.not_nil
    · rename_i different
      split at hit
      · exact absurd hit.2 (Nat.not_succ_le_self cursor)
      · obtain ⟨lostRef, ahead⟩ := secluded.apart ref side (weaken hit)
        exact ⟨lostRef, Nat.lt_of_le_of_ne ahead (Ne.symm different)⟩

end Secluded

end Heap

namespace Collection

/-- The reclaim pass has visited the nodes below. -/
def passed (collection : Collection) : Nat :=
  match collection.collector.position with
  | .reclaiming cursor => cursor
  | _ => 0

theorem passed_of_idle {collection : Collection}
    (idle : collection.collector.position = .idle) :
    collection.passed = 0 := by
  rw [passed, idle]

theorem passed_of_sweeping {collection : Collection} {cursor clean : Nat}
    (position : collection.collector.position = .sweeping cursor clean) :
    collection.passed = 0 := by
  rw [passed, position]

theorem passed_of_reclaiming {collection : Collection} {cursor : Nat}
    (position : collection.collector.position = .reclaiming cursor) :
    collection.passed = cursor := by
  rw [passed, position]

/-- The lost nodes that the reclaim pass has visited have been released once each, and
the others are secluded. -/
structure Pursued (lost : Ref → Prop) (collection : Collection) (released : List Ref) :
    Prop where
  consistent : collection.Consistent
  rooted : ∀ ref, lost ref → Heap.minCapacity ≤ ref
  secluded : collection.heap.Secluded fun ref => lost ref ∧ collection.passed ≤ ref
  counted : ∀ ref, lost ref → released.count ref = if ref < collection.passed then 1 else 0

theorem Consistent.count_collected_visit
    {collection : Collection} (consistent : collection.Consistent)
    (pending : collection.isSpent = false) (ref : Ref) :
    (collection.collected [.visit]).count ref =
      if (collection.heap.node ref).live = true ∧
        (collection.visit.heap.node ref).live = false then 1 else 0 := by
  have capacity := (consistent.visit pending).worked.capacity
  rw [collected, count_noted_cons, perform_visit, noted, List.count_nil, Nat.add_zero]
  apply if_congr ?_ rfl rfl
  simp only [Move.isWork, Bool.true_and, Bool.and_eq_true, Bool.not_eq_true']
  constructor
  · exact And.right
  · rintro ⟨live, dead⟩
    have inside := Heap.lt_capacity_of_not_live dead
    rw [capacity] at inside
    exact ⟨inside, live, dead⟩

namespace Pursued

variable {lost : Ref → Prop} {collection start : Collection} {released : List Ref}
  {moves : List Move}

/-- A lost node that has not been released is ahead of the reclaim pass. -/
theorem ahead (pursued : Pursued lost collection released) {ref : Ref} (isLost : lost ref) :
    collection.passed ≤ ref ↔ ref ∉ released := by
  rw [← List.count_eq_zero, pursued.counted ref isLost, ite_eq_right_iff, ← Nat.not_lt]
  simp

theorem mutate (pursued : Pursued lost collection released) {request : Request}
    (unnamed : ∀ ref ∈ request.names, lost ref → ref ∈ released) :
    Pursued lost (collection.perform (.mutate request)) released where
  consistent := pursued.consistent.perform trivial
  rooted := pursued.rooted
  secluded := by
    obtain ⟨free, ordered⟩ := pursued.consistent.ordered
    apply pursued.secluded.mutated ordered
    rintro ref named ⟨isLost, ahead⟩
    exact (pursued.ahead isLost).mp ahead (unnamed ref named isLost)
  counted := pursued.counted

/-- A piece of work that neither frees a lost node nor passes one. -/
theorem spare (pursued : Pursued lost collection released) {move : Move} {after : Collection}
    (made : collection.perform move = after) (possible : collection.Possible move)
    (live : ∀ ref, (after.heap.node ref).live = (collection.heap.node ref).live)
    (passed : ∀ ref, lost ref → (after.passed ≤ ref ↔ collection.passed ≤ ref))
    (secluded : after.heap.Secluded fun ref => lost ref ∧ collection.passed ≤ ref) :
    Pursued lost after (released ++ collection.collected [move]) where
  consistent := made ▸ pursued.consistent.perform possible
  rooted := pursued.rooted
  secluded := by
    have same : (fun ref => lost ref ∧ after.passed ≤ ref) =
        fun ref => lost ref ∧ collection.passed ≤ ref :=
      funext fun ref => propext (and_congr_right (passed ref))
    rw [same]
    exact secluded
  counted ref isLost := by
    have notFreed : (collection.collected [move]).count ref = 0 := by
      rw [collected, count_noted_cons, made]
      simp [live, noted]
    have same : ref < after.passed ↔ ref < collection.passed := by
      rw [← Nat.not_le, ← Nat.not_le, passed ref isLost]
    rw [List.count_append, notFreed, pursued.counted ref isLost, Nat.add_zero]
    exact if_congr same.symm rfl rfl

theorem markRoots (pursued : Pursued lost collection released)
    (idle : collection.collector.position = .idle) :
    Pursued lost collection.markRoots (released ++ collection.collected [.markRoots]) := by
  have started := started_markRoots idle
  apply pursued.spare collection.perform_markRoots idle started.live
  · intro ref _
    rw [passed_of_idle idle, passed_of_sweeping started.next]
  · apply pursued.secluded.sameShape started.toSameShape
    rintro ref ⟨isLost, ahead⟩
    have notRoot := Ref.not_mem_roots_of_rooted (pursued.rooted ref isLost)
    rw [started.color, if_neg (fun both => notRoot both.1)]
    exact pursued.secluded.white ref ⟨isLost, ahead⟩

/-- The visit that frees the node at the cursor. -/
theorem freed (pursued : Pursued lost collection released)
    (possible : collection.Possible .visit) {cursor : Nat}
    (position : collection.collector.position = .reclaiming cursor)
    (live : (collection.heap.node cursor).live = true)
    (pushed : Heap.Pushed (collection.heap.moveFrontier (cursor + 1)) cursor
      collection.visit.heap)
    (next : collection.visit.collector.position = .reclaiming (cursor + 1)) :
    Pursued lost collection.visit (released ++ collection.collected [.visit]) := by
  obtain ⟨free, ordered⟩ := pursued.consistent.ordered
  have secluded := pursued.secluded
  rw [passed_of_reclaiming position] at secluded
  refine ⟨pursued.consistent.perform possible, pursued.rooted, ?_, fun ref isLost => ?_⟩
  · rw [passed_of_reclaiming next]
    exact secluded.pushed ordered pushed
  · rw [List.count_append, pursued.counted ref isLost, passed_of_reclaiming position,
      passed_of_reclaiming next, pursued.consistent.count_collected_visit possible.2]
    by_cases hit : ref = cursor
    · subst hit
      have dead : (collection.visit.heap.node ref).live = false := by
        rw [pushed.live, if_pos rfl]
      simp [live, dead]
    · have kept : (collection.visit.heap.node ref).live = (collection.heap.node ref).live := by
        rw [pushed.live, if_neg hit]
        rfl
      have same : ref < cursor ↔ ref < cursor + 1 :=
        ⟨Nat.lt_succ_of_lt, fun below => Nat.lt_of_le_of_ne (Nat.le_of_lt_succ below) hit⟩
      simp [kept, same]

/-- The visit that spares the node at the cursor: that node is not lost. -/
theorem spared (pursued : Pursued lost collection released)
    (possible : collection.Possible .visit) {cursor : Nat}
    (position : collection.collector.position = .reclaiming cursor)
    (spared : ¬ collection.heap.Garbage cursor)
    (whitened : collection.visit.heap =
      (collection.heap.moveFrontier (cursor + 1)).whiten cursor)
    (next : collection.visit.collector.position = .reclaiming (cursor + 1)) :
    Pursued lost collection.visit (released ++ collection.collected [.visit]) := by
  have secluded := pursued.secluded
  rw [passed_of_reclaiming position] at secluded
  have same : Heap.SameShape collection.heap collection.visit.heap :=
    whitened ▸ Heap.whiten_moveFrontier_sameShape ..
  have notLost : ¬ lost cursor := by
    intro isLost
    have hit : lost cursor ∧ cursor ≤ cursor := ⟨isLost, Nat.le_refl cursor⟩
    have notRoot := Ref.not_mem_roots_of_rooted (pursued.rooted cursor isLost)
    exact spared ⟨secluded.white cursor hit, secluded.live cursor hit,
      fun isRoot => notRoot (Ref.mem_roots_iff.mpr isRoot)⟩
  apply pursued.spare collection.perform_visit possible same.live
  · intro ref isLost
    have different : cursor ≠ ref := by
      intro hit
      exact notLost (hit.symm ▸ isLost)
    rw [passed_of_reclaiming position, passed_of_reclaiming next]
    exact ⟨Nat.le_of_succ_le, fun ahead => Nat.lt_of_le_of_ne ahead different⟩
  · rw [passed_of_reclaiming position]
    apply secluded.sameShape same
    intro ref hit
    rw [whitened, Heap.color_whiten]
    split
    · rfl
    · exact secluded.white ref hit

theorem visit (pursued : Pursued lost collection released)
    (possible : collection.Possible .visit) :
    Pursued lost collection.visit (released ++ collection.collected [.visit]) := by
  have secluded := pursued.secluded
  cases pursued.consistent.visited possible.1 possible.2 with
  | scanned position pending scanned next =>
      apply pursued.spare collection.perform_visit possible scanned.live
      · intro ref _
        rw [passed_of_sweeping position, passed_of_sweeping next]
      · exact secluded.scanned scanned
  | passed position pending unmarked same next =>
      apply pursued.spare collection.perform_visit possible (fun ref => by rw [same])
      · intro ref _
        rw [passed_of_sweeping position, passed_of_sweeping next]
      · rwa [same]
  | resumed position grey same next =>
      apply pursued.spare collection.perform_visit possible (fun ref => by rw [same])
      · intro ref _
        rw [passed_of_sweeping position, passed_of_sweeping next]
      · rwa [same]
  | settled position settled same phase next =>
      apply pursued.spare collection.perform_visit possible same.sameShape.live
      · -- The pass starts at node 1, which is a root.
        intro ref isLost
        have proper : 1 ≤ ref := Nat.le_trans (by decide) (pursued.rooted ref isLost)
        rw [passed_of_sweeping position, passed_of_reclaiming next]
        exact iff_of_true proper (Nat.zero_le ref)
      · apply secluded.sameShape same.sameShape
        intro ref hit
        rw [same.node]
        exact secluded.white ref hit
  | freed position inside garbage pushed next =>
      exact pursued.freed possible position garbage.2.1 pushed next
  | spared position inside spared whitened next =>
      exact pursued.spared possible position spared whitened next

/-- Collector work keeps up with the lost nodes until the cycle is completed. -/
theorem replay (pursued : Pursued lost start released) (legal : start.Legal moves)
    (work : ∀ move ∈ moves, move = .markRoots ∨ move = .visit) :
    Pursued lost (start.replay moves) (released ++ start.collected moves) := by
  induction moves generalizing start released with
  | nil => simpa [collected, noted] using pursued
  | cons move moves induction =>
      obtain ⟨possible, rest⟩ := legal
      have now : Pursued lost (start.perform move) (released ++ start.collected [move]) := by
        rcases work move List.mem_cons_self with rfl | rfl
        · exact pursued.markRoots possible
        · exact pursued.visit possible
      have later := induction now rest fun move member =>
        work move (List.mem_cons_of_mem _ member)
      have split : start.collected (move :: moves) =
          start.collected [move] ++ (start.perform move).collected moves :=
        noted_append _ start [move] moves
      rw [split, ← List.append_assoc]
      exact later

/-- When the pass has visited every node, each lost node has been released once. -/
theorem count_eq_one (pursued : Pursued lost collection released)
    (spent : collection.isSpent = true) {ref : Ref} (isLost : lost ref)
    (inside : ref < collection.heap.capacity) :
    released.count ref = 1 := by
  obtain ⟨cursor, position, done⟩ := (isSpent_iff collection).mp spent
  rw [pursued.counted ref isLost, passed_of_reclaiming position,
    if_pos (Nat.lt_of_lt_of_le inside done)]

end Pursued

end Collection

namespace Session

variable {session : Session} {cycle : List Request} {collector : Collector}
  {lost : Ref → Prop}

/-- No request names a lost node before collector work has released that node. -/
def SparesNames (session : Session) (lost : Ref → Prop) (cycle : List Request) : Prop :=
  ∀ done request rest, cycle = done ++ request :: rest →
    ∀ ref ∈ request.names, lost ref → ref ∈ session.collected done

theorem collected_append_singleton (session : Session) (done : List Request)
    (request : Request) :
    session.collected (done ++ [request]) =
      session.collected done ++
        (session.run done).collection.collected ((session.run done).moves request) := by
  rw [collected, collected, trace_append, Collection.collected, Collection.noted_append,
    (session.run_leads done).replay, trace, trace, List.append_nil]

/-- Interference does not keep the collector from the lost nodes. -/
theorem Unfinished.pursued (unfinished : session.Unfinished cycle)
    (attached : session.driver = .stepping collector) (unnamed : session.SparesNames lost cycle)
    (pursued : session.collection.Pursued lost []) :
    (session.run cycle).collection.Pursued lost (session.collected cycle) := by
  induction cycle using List.reverseRecOn with
  | nil => exact pursued
  | append_singleton done request induction =>
      obtain ⟨unfinishedDone, interim, _⟩ := unfinished_append.mp unfinished
      have unnamedDone : session.SparesNames lost done := by
        intro earlier named rest split
        exact unnamed earlier named (rest ++ [request]) (by simp [split])
      have now := induction unfinishedDone unnamedDone
      obtain ⟨_, attachedNow⟩ := unfinishedDone.driver attached
      have leads := (session.run done).apply_leads request
      rw [collected_append_singleton, run_append]
      change Collection.Pursued lost ((session.run done).apply request).2.collection _
      rw [← leads.replay]
      rcases (interim.moves attachedNow).2 with single | work
      · have notWork : (session.run done).collection.collected [.mutate request] = [] := by
          simp [Collection.collected, Collection.noted, Move.isWork]
        rw [single, notWork, List.append_nil]
        exact now.mutate (unnamed done request [] rfl)
      · exact now.replay leads.legal work

/-- The step that completes the cycle releases what is left of the lost nodes. -/
theorem pursued_of_report {released : List Ref} {budget : Nat} {report : CycleReport}
    (pursued : session.collection.Pursued lost released)
    (attached : session.driver = .stepping collector)
    (completes : (session.apply (.step budget)).1 = .report (some report)) {ref : Ref}
    (isLost : lost ref) (inside : ref < session.heap.capacity) :
    (released ++ session.collection.collected (session.moves (.step budget))).count ref = 1 := by
  have reported := Reply.report.inj ((reply_of_step attached budget).symm.trans completes)
  obtain ⟨moves, split, work, _⟩ := Collection.stepMoves_of_some reported
  have legal := (session.apply_leads (.step budget)).legal
  rw [moves_of_step attached, split] at legal ⊢
  obtain ⟨legalWork, spent, _⟩ := Collection.legal_append.mp legal
  have complete := pursued.replay legalWork work
  have insideNow : ref < (session.collection.replay moves).heap.capacity := by
    rw [pursued.consistent.capacity_replay legalWork]
    exact inside
  -- Completing the cycle touches no node.
  have untouched : (session.collection.replay moves).collected [.finish] = [] := by
    have same : ∀ ref, (((session.collection.replay moves).perform .finish).heap.node ref) =
        (session.collection.replay moves).heap.node ref := fun _ => rfl
    simp [Collection.collected, Collection.noted, same]
  rw [Collection.collected, Collection.noted_append]
  change (_ ++ (_ ++ (session.collection.replay moves).collected [.finish])).count ref = 1
  rw [untouched, List.append_nil]
  exact complete.count_eq_one spent isLost insideNow

/-- Whatever mutators do in the course of a cycle, as long as they leave the nodes alone
that the cycle need not retain: by the end of the cycle the collector has put each of
those nodes on the free list, and it has done so once. -/
theorem run_releasesLost
    {capacity : Nat} {initial : Heap} {requests cycle : List Request} {session : Session}
    {collector : Collector} {budget : Nat} {report : CycleReport}
    (built : Heap.ofCapacity capacity = .ok initial)
    (reached : (ofHeap initial).run requests = session)
    (attached : session.driver = .stepping collector) (idle : session.heap.phase = .idle)
    (unfinished : session.Unfinished cycle)
    (completes : ((session.run cycle).apply (.step budget)).1 = .report (some report))
    (unnamed : session.SparesNames session.heap.Lost cycle) :
    ∀ ref, session.heap.Lost ref →
      (session.collected (cycle ++ [.step budget])).count ref = 1 ∧
      ∃ before move after,
        session.trace (cycle ++ [.step budget]) = before ++ move :: after ∧
        move.isWork = true ∧ (session.collection.replay before).Frees move ref ∧
        ((session.collection.replay before).perform move).heap.firstFree = ref := by
  subst reached
  have consistent := run_consistent built requests
  generalize (ofHeap initial).run requests = session at *
  intro ref isLost
  obtain ⟨free, ordered⟩ := consistent.ordered
  have atRest : session.collection.collector.position = .idle :=
    consistent.phase_eq_idle_iff.mpr idle
  have secluded := (consistent.resting atRest).secluded_lost ordered
  have everywhere : (fun ref => session.heap.Lost ref ∧ 0 ≤ ref) = session.heap.Lost :=
    funext fun ref => propext (and_iff_left (Nat.zero_le ref))
  have outset : session.collection.Pursued session.heap.Lost [] := by
    refine ⟨consistent, fun ref isLost => isLost.rooted, ?_, fun ref _ => ?_⟩
    · rw [Collection.passed_of_idle atRest, everywhere]
      exact secluded
    · simp [Collection.passed_of_idle atRest]
  have pursued := unfinished.pursued attached unnamed outset
  obtain ⟨_, attachedNow⟩ := unfinished.driver attached
  have insideNow : ref < (session.run cycle).heap.capacity := by
    have leads := session.run_leads cycle
    have same := consistent.capacity_replay leads.legal
    rw [leads.replay] at same
    exact same.symm ▸ isLost.inside
  have once : (session.collected (cycle ++ [.step budget])).count ref = 1 := by
    rw [collected_append_singleton]
    exact pursued_of_report pursued attachedNow completes isLost insideNow
  refine ⟨once, ?_⟩
  have listed : ref ∈ session.collected (cycle ++ [.step budget]) := by
    apply List.count_pos_iff.mp
    rw [once]
    exact Nat.one_pos
  obtain ⟨before, move, after, split, noted⟩ := Collection.exists_of_mem_noted listed
  simp only [Bool.and_eq_true, Bool.not_eq_true'] at noted
  obtain ⟨⟨work, live⟩, dead⟩ := noted
  have legal := (session.run_leads (cycle ++ [.step budget])).legal
  rw [split] at legal
  obtain ⟨legalBefore, possible, _⟩ := Collection.legal_append.mp legal
  have head := (consistent.replay legalBefore).firstFree_of_freed possible work ⟨live, dead⟩
  exact ⟨before, move, after, split, work, ⟨live, dead⟩, head⟩

/-- Node 4 leads to node 5, and nothing leads to node 4.  It is released, handed out and
linked again before the pass has come to node 5. -/
theorem run_releasesLost_handed_out_before_the_end :
    let session := (ofHeap (Heap.fresh 6)).run
      [.attach, .allocateChild 1 .left, .allocateChild 4 .left, .setChild 1 .left 0]
    let cycle : List Request :=
      [.step 3, .shade 2, .step 12, .allocateChild 1 .left, .setChild 4 .right 2]
    let report : CycleReport := { cycle := 1, blackened := 3, reclaimed := 2, passes := 1 }
    session.driver = .stepping {} ∧ session.heap.phase = .idle ∧ session.Unfinished cycle ∧
      ((session.run cycle).apply (.step 3)).1 = .report (some report) ∧
      session.SparesNames session.heap.Lost cycle ∧ session.heap.Lost 4 ∧
      (session.collected (cycle ++ [.step 3])).count 4 = 1 ∧ session.heap.Lost 5 ∧
      (session.collected (cycle ++ [.step 3])).count 5 = 1 := by
  intro session cycle report
  have built : Heap.ofCapacity 6 = .ok (Heap.fresh 6) := rfl
  have attached : session.driver = .stepping {} := by decide
  have idle : session.heap.phase = .idle := by decide
  have unfinished : session.Unfinished cycle := ⟨rfl, rfl, rfl, rfl, rfl, trivial⟩
  have completes : ((session.run cycle).apply (.step 3)).1 = .report (some report) := by
    decide
  have checked : ∀ index < cycle.length, ∀ ref ∈ (cycle.getD index .attach).names,
      ref < 4 ∨ ref ∈ session.collected (cycle.take index) := by
    decide
  have unnamed : session.SparesNames session.heap.Lost cycle := by
    intro done request rest split ref named lost
    have index : done.length < cycle.length := by simp [split]
    have found : cycle.getD done.length .attach = request := by simp [split]
    have taken : cycle.take done.length = done := by simp [split]
    rcases checked done.length index ref (found ▸ named) with low | released
    · exact absurd lost.rooted (Nat.not_le.mpr low)
    · exact taken ▸ released
  have below : ∀ parent < 4, (session.heap.node parent).left < 4 ∧
      (session.heap.node parent).right < 4 := by
    decide
  have noGrey : ∀ ref < 6, (session.heap.node ref).color ≠ .grey := by decide
  have kept : ∀ ref, session.heap.Retained ref → ref < 4 := by
    rintro ref ⟨_, reachable | ⟨grey, isGrey, _⟩⟩
    · apply reachable.closed (· < 4)
      · intro parent side low
        cases side with
        | left => exact (below parent low).1
        | right => exact (below parent low).2
      · decide
    · exact absurd isGrey (noGrey grey (Heap.lt_capacity_of_grey isGrey))
  have lost : ∀ ref, 4 ≤ ref → ref < 6 → session.heap.Lost ref := fun ref rooted inside =>
    ⟨rooted, inside, fun retained => absurd (kept ref retained) (Nat.not_lt.mpr rooted)⟩
  have released :=
    run_releasesLost built rfl attached idle unfinished completes unnamed
  have lostFour := lost 4 (by decide) (by decide)
  have lostFive := lost 5 (by decide) (by decide)
  exact ⟨attached, idle, unfinished, completes, unnamed, lostFour, (released 4 lostFour).1,
    lostFive, (released 5 lostFive).1⟩

end Session

end Tricolor
