import Mathlib.Data.Finset.Card
import Tricolor.Proofs.Nodes

/-!
# Changes of mark

The transitions of `Heap.Marking` change marks and nothing else.  `Recolored`
says so once for all of them, `Shaded` adds that nodes were only turned from
white to grey, and `GreyCounted` is what the grey counter promises.
-/

namespace Tricolor.Heap

/-- Slots and use flags are the same in both heaps. -/
structure SameShape (before after : Heap) : Prop where
  capacity : after.capacity = before.capacity
  child : ∀ ref side, (after.node ref).child side = (before.node ref).child side
  live : ∀ ref, (after.node ref).live = (before.node ref).live
  freeCount : after.freeCount = before.freeCount

namespace SameShape

variable {before after first second third : Heap}

theorem trans (left : SameShape first second) (right : SameShape second third) :
    SameShape first third where
  capacity := right.capacity.trans left.capacity
  child ref side := (right.child ref side).trans (left.child ref side)
  live ref := (right.live ref).trans (left.live ref)
  freeCount := right.freeCount.trans left.freeCount

theorem right (same : SameShape before after) (ref : Ref) :
    (after.node ref).right = (before.node ref).right :=
  same.child ref .right

theorem firstFree (same : SameShape before after) :
    after.firstFree = before.firstFree :=
  same.right Ref.freeRoot

end SameShape

/-- `after` is `before` but for its marks and its grey counter. -/
structure Recolored (before after : Heap) : Prop
    extends SameShape before after where
  phase : after.phase = before.phase
  frontier : after.frontier = before.frontier
  cyclesStarted : after.cyclesStarted = before.cyclesStarted
  events : after.events = before.events

namespace Recolored

variable {first second third : Heap}

theorem refl (heap : Heap) : Recolored heap heap :=
  ⟨⟨rfl, fun _ _ => rfl, fun _ => rfl, rfl⟩, rfl, rfl, rfl, rfl⟩

theorem trans (left : Recolored first second) (right : Recolored second third) :
    Recolored first third where
  toSameShape := left.toSameShape.trans right.toSameShape
  phase := right.phase.trans left.phase
  frontier := right.frontier.trans left.frontier
  cyclesStarted := right.cyclesStarted.trans left.cyclesStarted
  events := right.events.trans left.events

end Recolored

theorem repaint_recolored
    (heap : Heap) (ref : Ref) (color : Color) (greyCount : Nat) :
    Recolored heap (heap.repaint ref color greyCount) where
  capacity := by simp [capacity, repaint]
  child other side := by
    rw [node_repaint]
    split <;> cases side <;> rfl
  live other := by
    rw [node_repaint]
    split <;> rfl
  freeCount := rfl
  phase := rfl
  frontier := rfl
  cyclesStarted := rfl
  events := rfl

theorem color_repaint
    (heap : Heap) (ref : Ref) (color : Color) (greyCount : Nat) (other : Ref) :
    ((heap.repaint ref color greyCount).node other).color =
      if other = ref ∧ other < heap.capacity then color
      else (heap.node other).color := by
  rw [node_repaint]
  split <;> rfl

theorem shade_recolored (heap : Heap) (ref : Ref) :
    Recolored heap (heap.shade ref) := by
  unfold shade
  split
  · exact repaint_recolored ..
  · exact Recolored.refl heap

theorem blacken_recolored (heap : Heap) (ref : Ref) :
    Recolored heap (heap.blacken ref) := by
  unfold blacken
  split
  · exact repaint_recolored ..
  · exact Recolored.refl heap

theorem whiten_recolored (heap : Heap) (ref : Ref) :
    Recolored heap (heap.whiten ref) := by
  unfold whiten
  split
  · exact Recolored.refl heap
  · exact repaint_recolored ..

theorem color_shade (heap : Heap) (ref other : Ref) :
    ((heap.shade ref).node other).color =
      if other = ref ∧ (heap.node other).color = .white then .grey
      else (heap.node other).color := by
  unfold shade
  by_cases white : (heap.node ref).color = .white
  · have inside : ref < heap.capacity :=
      lt_capacity_of_color_ne_black (by simp [white])
    rw [if_pos white, color_repaint]
    by_cases same : other = ref
    · subst same
      simp [white, inside]
    · simp [same]
  · rw [if_neg white, if_neg]
    rintro ⟨rfl, found⟩
    exact white found

theorem color_blacken (heap : Heap) (ref other : Ref) :
    ((heap.blacken ref).node other).color =
      if other = ref ∧ (heap.node other).color = .grey then .black
      else (heap.node other).color := by
  unfold blacken
  by_cases grey : (heap.node ref).color = .grey
  · have inside : ref < heap.capacity :=
      lt_capacity_of_color_ne_black (by simp [grey])
    rw [if_pos grey, color_repaint]
    by_cases same : other = ref
    · subst same
      simp [grey, inside]
    · simp [same]
  · rw [if_neg grey, if_neg]
    rintro ⟨rfl, found⟩
    exact grey found

theorem color_whiten (heap : Heap) (ref other : Ref) :
    ((heap.whiten ref).node other).color =
      if other = ref ∧ other ≠ Ref.nil ∧ other < heap.capacity then .white
      else (heap.node other).color := by
  unfold whiten
  by_cases sentinel : ref = Ref.nil
  · rw [if_pos sentinel, if_neg]
    rintro ⟨rfl, proper, -⟩
    exact proper sentinel
  · rw [if_neg sentinel, color_repaint]
    by_cases same : other = ref
    · subst same
      simp [sentinel]
    · simp [same]

theorem shadeAll_recolored (heap : Heap) (refs : List Ref) :
    Recolored heap (heap.shadeAll refs) := by
  induction refs generalizing heap with
  | nil => exact Recolored.refl heap
  | cons ref refs induction =>
      exact (shade_recolored heap ref).trans (induction (heap.shade ref))

theorem color_shadeAll (heap : Heap) (refs : List Ref) (other : Ref) :
    ((heap.shadeAll refs).node other).color =
      if other ∈ refs ∧ (heap.node other).color = .white then .grey
      else (heap.node other).color := by
  induction refs generalizing heap with
  | nil => simp [shadeAll]
  | cons ref refs induction =>
      have unfolded : heap.shadeAll (ref :: refs) = (heap.shade ref).shadeAll refs :=
        rfl
      rw [unfolded, induction, color_shade]
      by_cases white : (heap.node other).color = .white
      · by_cases same : other = ref
        · subst same
          simp [white]
        · simp [white, same]
      · simp [white]

/-- Whitening a list of nodes one after the other. -/
theorem whitenEach_spec (heap : Heap) (refs : List Ref) :
    Recolored heap (refs.foldl whiten heap) ∧
      ∀ other, ((refs.foldl whiten heap).node other).color =
        if other ∈ refs ∧ other ≠ Ref.nil ∧ other < heap.capacity then .white
        else (heap.node other).color := by
  induction refs generalizing heap with
  | nil => exact ⟨Recolored.refl heap, fun other => by simp⟩
  | cons ref refs induction =>
      have first := whiten_recolored heap ref
      obtain ⟨rest, color⟩ := induction (heap.whiten ref)
      refine ⟨first.trans rest, fun other => ?_⟩
      rw [List.foldl_cons, color, color_whiten, first.capacity]
      by_cases same : other = ref
      · by_cases proper : other ≠ Ref.nil ∧ other < heap.capacity <;>
          simp [same ▸ proper, same]
      · simp [same]

theorem whitenAll_recolored (heap : Heap) : Recolored heap heap.whitenAll :=
  (whitenEach_spec heap _).1

theorem color_whitenAll (heap : Heap) (other : Ref) :
    (heap.whitenAll.node other).color =
      if other ≠ Ref.nil ∧ other < heap.capacity then .white
      else (heap.node other).color := by
  unfold whitenAll
  rw [(whitenEach_spec heap _).2]
  by_cases inside : other < heap.capacity <;> simp [inside]

/-- The grey nodes of a heap. -/
def greyNodes (heap : Heap) : Finset Ref :=
  (Finset.range heap.capacity).filter fun ref => (heap.node ref).color = .grey

/-- The grey counter is the number of grey nodes. -/
def GreyCounted (heap : Heap) : Prop :=
  heap.greyCount = heap.greyNodes.card

theorem mem_greyNodes {heap : Heap} {ref : Ref} :
    ref ∈ heap.greyNodes ↔ (heap.node ref).color = .grey := by
  simp only [greyNodes, Finset.mem_filter, Finset.mem_range, and_iff_right_iff_imp]
  exact lt_capacity_of_grey

namespace GreyCounted

variable {heap : Heap}

theorem congr {after : Heap} (counted : heap.GreyCounted)
    (color : ∀ ref, (after.node ref).color = (heap.node ref).color)
    (greyCount : after.greyCount = heap.greyCount) :
    after.GreyCounted := by
  have same : after.greyNodes = heap.greyNodes := by
    ext ref
    rw [mem_greyNodes, mem_greyNodes, color]
  rw [GreyCounted, greyCount, same]
  exact counted

/-- The counter is zero only if no node is grey. -/
theorem eq_zero_iff (counted : heap.GreyCounted) :
    heap.greyCount = 0 ↔ ∀ ref, (heap.node ref).color ≠ .grey := by
  rw [counted, Finset.card_eq_zero, Finset.eq_empty_iff_forall_notMem]
  simp only [mem_greyNodes, ne_eq]

theorem shade (counted : heap.GreyCounted) (ref : Ref) :
    (heap.shade ref).GreyCounted := by
  by_cases white : (heap.node ref).color = .white
  · have added : (heap.shade ref).greyNodes = insert ref heap.greyNodes := by
      ext other
      rw [Finset.mem_insert, mem_greyNodes, mem_greyNodes, color_shade]
      by_cases same : other = ref
      · simp [same, white]
      · simp [same]
    have fresh : ref ∉ heap.greyNodes := by
      simp [mem_greyNodes, white]
    rw [GreyCounted, added, Finset.card_insert_of_notMem fresh, ← counted]
    simp [Heap.shade, white, repaint]
  · have unchanged : heap.shade ref = heap := if_neg white
    rwa [unchanged]

theorem repaint_of_ne_grey (counted : heap.GreyCounted) {ref : Ref} {color : Color}
    (grey : (heap.node ref).color = .grey) (different : color ≠ .grey) :
    (heap.repaint ref color (heap.greyCount - 1)).GreyCounted := by
  have removed : (heap.repaint ref color (heap.greyCount - 1)).greyNodes =
      heap.greyNodes.erase ref := by
    ext other
    rw [Finset.mem_erase, mem_greyNodes, mem_greyNodes, color_repaint]
    by_cases same : other = ref
    · have inside : ref < heap.capacity :=
        lt_capacity_of_color_ne_black (by simp [grey])
      simp [same, inside, different]
    · simp [same]
  rw [GreyCounted, removed, Finset.card_erase_of_mem (mem_greyNodes.mpr grey), ← counted]
  rfl

theorem blacken (counted : heap.GreyCounted) (ref : Ref) :
    (heap.blacken ref).GreyCounted := by
  unfold Heap.blacken
  split
  · exact counted.repaint_of_ne_grey ‹_› (by decide)
  · exact counted

theorem whiten (counted : heap.GreyCounted) (ref : Ref) :
    (heap.whiten ref).GreyCounted := by
  unfold Heap.whiten
  split
  · exact counted
  · by_cases grey : (heap.node ref).color = .grey
    · simp only [grey, if_true]
      exact counted.repaint_of_ne_grey grey (by decide)
    · simp only [grey, if_false]
      have same : (heap.repaint ref .white heap.greyCount).greyNodes = heap.greyNodes := by
        ext other
        rw [mem_greyNodes, mem_greyNodes, color_repaint]
        by_cases hit : other = ref
        · subst hit
          split <;> simp [grey]
        · simp [hit]
      rw [GreyCounted, same]
      exact counted

theorem shadeAll (counted : heap.GreyCounted) (refs : List Ref) :
    (heap.shadeAll refs).GreyCounted := by
  induction refs generalizing heap with
  | nil => exact counted
  | cons ref refs induction => exact induction (counted.shade ref)

theorem whitenEach (counted : heap.GreyCounted) (refs : List Ref) :
    (refs.foldl Heap.whiten heap).GreyCounted := by
  induction refs generalizing heap with
  | nil => exact counted
  | cons ref refs induction => exact induction (counted.whiten ref)

theorem whitenAll (counted : heap.GreyCounted) : heap.whitenAll.GreyCounted :=
  counted.whitenEach _

end GreyCounted

/-- A mark stays, or turns from white to grey. -/
def KeptOrShaded (before after : Heap) (ref : Ref) : Prop :=
  (after.node ref).color = (before.node ref).color ∨
    (before.node ref).color = .white ∧ (after.node ref).color = .grey

namespace KeptOrShaded

variable {first second third : Heap} {ref : Ref}

theorem trans (left : KeptOrShaded first second ref)
    (right : KeptOrShaded second third ref) :
    KeptOrShaded first third ref := by
  rcases left with kept | ⟨white, grey⟩
  · unfold KeptOrShaded
    rw [← kept]
    exact right
  · rcases right with kept | ⟨stillWhite, _⟩
    · exact .inr ⟨white, kept.trans grey⟩
    · simp [grey] at stillWhite

theorem black_iff (kept : KeptOrShaded first second ref) :
    (second.node ref).color = .black ↔ (first.node ref).color = .black := by
  rcases kept with same | ⟨white, grey⟩
  · rw [same]
  · simp [white, grey]

theorem not_white (kept : KeptOrShaded first second ref)
    (marked : (first.node ref).color ≠ .white) :
    (second.node ref).color ≠ .white := by
  rcases kept with same | ⟨white, _⟩
  · rwa [same]
  · exact absurd white marked

end KeptOrShaded

/-- `after` is `before` but for nodes that were turned from white to grey. -/
structure Shaded (before after : Heap) : Prop
    extends Recolored before after where
  color : ∀ ref, KeptOrShaded before after ref
  greyCounted : before.GreyCounted → after.GreyCounted

namespace Shaded

variable {first second third : Heap}

theorem refl (heap : Heap) : Shaded heap heap :=
  ⟨Recolored.refl heap, fun _ => .inl rfl, fun counted => counted⟩

theorem trans (left : Shaded first second) (right : Shaded second third) :
    Shaded first third where
  toRecolored := left.toRecolored.trans right.toRecolored
  color ref := (left.color ref).trans (right.color ref)
  greyCounted counted := right.greyCounted (left.greyCounted counted)

theorem usable (shaded : Shaded first second) {ref : Ref}
    (usable : first.Usable ref) :
    second.Usable ref := by
  refine ⟨(shaded.live ref).trans usable.1, fun condemned => usable.2 ?_⟩
  refine ⟨shaded.phase ▸ condemned.1, shaded.frontier ▸ condemned.2.1, ?_⟩
  exact Decidable.by_contra fun marked => (shaded.color ref).not_white marked condemned.2.2

end Shaded

theorem shade_shaded (heap : Heap) (ref : Ref) : Shaded heap (heap.shade ref) where
  toRecolored := shade_recolored heap ref
  color other := by
    rw [KeptOrShaded, color_shade]
    split
    · exact .inr ⟨And.right ‹_›, rfl⟩
    · exact .inl rfl
  greyCounted counted := counted.shade ref

theorem shadeAll_shaded (heap : Heap) (refs : List Ref) :
    Shaded heap (heap.shadeAll refs) where
  toRecolored := shadeAll_recolored heap refs
  color other := by
    rw [KeptOrShaded, color_shadeAll]
    split
    · exact .inr ⟨And.right ‹_›, rfl⟩
    · exact .inl rfl
  greyCounted counted := counted.shadeAll refs

theorem shadeAll_not_white
    {heap : Heap} {refs : List Ref} {ref : Ref} (member : ref ∈ refs) :
    ((heap.shadeAll refs).node ref).color ≠ .white := by
  rw [color_shadeAll]
  split
  · exact Color.noConfusion
  · rename_i untouched
    exact fun white => untouched ⟨member, white⟩

theorem shade_not_white
    {heap : Heap} {ref : Ref} :
    ((heap.shade ref).node ref).color ≠ .white := by
  rw [color_shade]
  split
  · exact Color.noConfusion
  · rename_i other
    exact fun white => other ⟨rfl, white⟩

end Tricolor.Heap
