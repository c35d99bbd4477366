import Tricolor.Files.Error

/-!
# Hosts

The services that a simulation needs from its surroundings.  A host is either
the real system or a file tree in memory.
-/

namespace Tricolor

/-- Access to files and to a clock. -/
class Host (m : Type → Type) where
  readFile : (path : String) → m (Except FileError ByteArray)
  /-- Creates a directory with all its ancestors, unless it exists. -/
  createDirectories : (path : String) → m (Except FileError Unit)
  /-- Appends to a file, creating it if necessary. -/
  appendFile : (path : String) → (contents : ByteArray) → m (Except FileError Unit)
  /-- The time in milliseconds. -/
  clock : m Nat

/-- The path of an entry of a directory. -/
def joinPath (directory name : String) : String :=
  if directory.isEmpty || directory.endsWith "/" then directory ++ name
  else directory ++ "/" ++ name

variable {m : Type → Type} [Monad m] [Host m]

def readTextFile (path : String) : m (Except FileError String) := do
  match ← Host.readFile path with
  | .error error => return .error error
  | .ok contents =>
      match String.fromUTF8? contents with
      | some text => return .ok text
      | none => return .error .invalidUtf8

end Tricolor
