/-!
# Colors, phases and sides

The finite vocabulary of tri-color collection: the mark of a node, the phase
of a collection cycle, and the two child slots of a node.
-/

namespace Tricolor

/-- The mark of a node within one collection cycle. -/
inductive Color where
  /-- Not visited: garbage if still white once marking has come to rest. -/
  | white
  /-- Visited, with children that have not been shaded yet. -/
  | grey
  /-- Visited, with both children shaded. -/
  | black
  deriving DecidableEq, Repr, Inhabited

namespace Color

def all : List Color := [.white, .grey, .black]

/-- Marking only ever raises the tag. -/
def tag : Color → Nat
  | .white => 0
  | .grey => 1
  | .black => 2

def ofTag? (tag : Nat) : Option Color :=
  all.find? (·.tag == tag)

def name : Color → String
  | .white => "white"
  | .grey => "grey"
  | .black => "black"

instance : Ord Color where
  compare left right := compare left.tag right.tag

end Color

/-- The phase of the collection cycle in progress. -/
inductive Phase where
  /-- No cycle is in progress. -/
  | idle
  /-- The roots are shaded and grey nodes are being scanned. -/
  | marking
  /-- Marking is at rest and white nodes are being released. -/
  | reclaiming
  deriving DecidableEq, Repr, Inhabited

namespace Phase

def all : List Phase := [.idle, .marking, .reclaiming]

def name : Phase → String
  | .idle => "idle"
  | .marking => "marking"
  | .reclaiming => "reclaiming"

/-- A cycle is in progress. -/
def isActive (phase : Phase) : Bool := phase != .idle

end Phase

/-- One of the two child slots of a node. -/
inductive Side where
  | left
  | right
  deriving DecidableEq, Repr, Inhabited

namespace Side

/-- Both sides, in the order in which they are visited. -/
def both : List Side := [.left, .right]

def other : Side → Side
  | .left => .right
  | .right => .left

def name : Side → String
  | .left => "left"
  | .right => "right"

end Side

end Tricolor
