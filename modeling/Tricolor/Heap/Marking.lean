import Tricolor.Heap.Basic

/-!
# Marks

The three color transitions.  The grey counter follows every one of them, so
that it is the number of grey nodes at all times.
-/

namespace Tricolor.Heap

/-- Gives a node another mark and the counter another value. -/
def repaint (heap : Heap) (ref : Ref) (color : Color) (greyCount : Nat) : Heap :=
  { heap with nodes := heap.nodes.modify ref (·.painted color), greyCount }

/-- White becomes grey; other marks stay. -/
def shade (heap : Heap) (ref : Ref) : Heap :=
  if (heap.node ref).color = .white then heap.repaint ref .grey (heap.greyCount + 1) else heap

/-- Grey becomes black; other marks stay. -/
def blacken (heap : Heap) (ref : Ref) : Heap :=
  if (heap.node ref).color = .grey then heap.repaint ref .black (heap.greyCount - 1) else heap

/-- Any mark becomes white, except that the sentinel stays black. -/
def whiten (heap : Heap) (ref : Ref) : Heap :=
  if ref = Ref.nil then heap
  else
    let wasGrey := (heap.node ref).color = .grey
    heap.repaint ref .white (if wasGrey then heap.greyCount - 1 else heap.greyCount)

def shadeAll (heap : Heap) (refs : List Ref) : Heap :=
  refs.foldl shade heap

/-- Erases every mark. -/
def whitenAll (heap : Heap) : Heap :=
  (List.range heap.capacity).foldl whiten heap

/-- Every edge from a black node to a white one, by parent and left before
right. -/
def blackToWhiteEdges (heap : Heap) : List (Ref × Ref) :=
  (List.range heap.capacity).flatMap fun parent =>
    if parent ≠ Ref.nil ∧ (heap.node parent).color = .black then
      Side.both.filterMap fun side =>
        let child := (heap.node parent).child side
        if child ≠ Ref.nil ∧ (heap.node child).color = .white then
          some (parent, child)
        else none
    else []

end Tricolor.Heap
