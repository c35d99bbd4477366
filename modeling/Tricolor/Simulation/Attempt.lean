import Tricolor.Heap.Mutation
import Tricolor.Random.Source
import Tricolor.Simulation.Stats

/-!
# Attempts of a simulated mutator

A mutator walks down from one of its roots along random slots and does
something to the slot at which it comes to a halt.
-/

namespace Tricolor

variable {σ : Type} [DrawSource σ]

def drawSide (source : σ) : Side × σ :=
  let (isLeft, source) := DrawSource.coin source
  (if isLeft then .left else .right, source)

/-- Goes down at most `hops` slots from a slot, stopping above an empty one,
and drawing the side of every slot reached. -/
def Heap.wander (heap : Heap) : (hops : Nat) → Ref → Side → σ → (Ref × Side) × σ
  | 0, ref, side, source => ((ref, side), source)
  | hops + 1, ref, side, source =>
      let child := (heap.node ref).child side
      if child = Ref.nil then ((ref, side), source)
      else
        let (side, source) := drawSide source
        wander heap hops child side source

/-- The greatest number of hops of a walk, plus one. -/
def maxWalk : Nat := 8

/-- Walks from a random mutator root to a random slot. -/
def Heap.walk (heap : Heap) (source : σ) : (Ref × Side) × σ :=
  let (index, source) := DrawSource.below Ref.mutatorRoots.length source
  let (side, source) := drawSide source
  let (hops, source) := DrawSource.below maxWalk source
  heap.wander hops (Ref.mutatorRoots.getD index 1) side source

/-- An operation together with the nodes that it is about. -/
inductive Attempt where
  | allocate (parent : Ref) (side : Side)
  | detach (parent : Ref) (side : Side)
  | relink (parent : Ref) (side : Side) (target : Ref)
  | shade (ref : Ref)
  deriving DecidableEq, Repr

namespace Attempt

def operation : Attempt → Operation
  | .allocate _ _ => .allocate
  | .detach _ _ => .detach
  | .relink _ _ _ => .relink
  | .shade _ => .shade

/-- Decides what to do and where. -/
def draw (heap : Heap) (source : σ) : Attempt × σ :=
  let ((parent, side), source) := heap.walk source
  let (draw, source) := DrawSource.below 100 source
  match Operation.ofDraw draw with
  | .allocate => (.allocate parent side, source)
  | .detach => (.detach parent side, source)
  | .relink =>
      let ((target, _), source) := heap.walk source
      (.relink parent side target, source)
  | .shade => (.shade parent, source)

/-- Runs an operation for its effect. -/
def dropResult : Outcome α → Option Fault × Heap
  | (.ok _, heap) => (none, heap)
  | (.error fault, heap) => (some fault, heap)

/-- Performs the attempt; there is a fault if it failed. -/
def perform : Attempt → Heap → Option Fault × Heap
  | .allocate parent side, heap => dropResult (heap.allocateChild parent side)
  | .detach parent side, heap => dropResult (heap.setChild parent side Ref.nil)
  | .relink parent side target, heap => dropResult (heap.setChild parent side target)
  | .shade ref, heap => dropResult (heap.shadeNode ref)

end Attempt

end Tricolor
