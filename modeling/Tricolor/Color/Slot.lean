import Tricolor.Color

/-!
# Color slots

A color slot holds one color and is read and written in single steps, so that
of two writers racing for the same transition exactly one performs it.
-/

namespace Tricolor

/-- One indivisible access to a color slot. -/
inductive SlotAction where
  | load
  | store (color : Color)
  | swap (color : Color)
  /-- Store `next` only if the slot holds `expected`. -/
  | exchange (expected next : Color)
  deriving DecidableEq, Repr

/-- What an access to a color slot observes. -/
inductive SlotAnswer where
  | stored
  | found (color : Color)
  | exchanged (previous : Color)
  /-- The exchange did not happen because the slot held `actual`. -/
  | refused (actual : Color)
  deriving DecidableEq, Repr

/-- Performs one access; the second component is the color left in the slot. -/
def SlotAction.perform : SlotAction → Color → SlotAnswer × Color
  | .load, held => (.found held, held)
  | .store color, _ => (.stored, color)
  | .swap color, held => (.found held, color)
  | .exchange expected next, held =>
      if held = expected then (.exchanged held, next) else (.refused held, held)

/-- The answers of a run of accesses, each with the color it leaves behind. -/
def SlotAction.trace : List SlotAction → Color → List (SlotAnswer × Color)
  | [], _ => []
  | action :: actions, held =>
      let outcome := action.perform held
      outcome :: trace actions outcome.2

end Tricolor
