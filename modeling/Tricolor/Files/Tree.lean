import Tricolor.Files.Host

/-!
# File trees

A file tree holds files and directories under absolute paths and looks up paths
relative to a working directory.  It is a host whose clock stands still.
-/

namespace Tricolor

/-- What a path leads to. -/
inductive FileEntry where
  | file (contents : ByteArray)
  | directory

/-- The names on the way from the root to an entry. -/
abbrev AbsolutePath := List String

structure FileTree where
  /-- The entries below the root. -/
  entries : List (AbsolutePath × FileEntry) := []
  workingDirectory : AbsolutePath := []

/-- Where a path leads. -/
inductive Destination where
  | directory (path : AbsolutePath)
  | file (path : AbsolutePath) (contents : ByteArray)
  /-- Nothing is there yet, but the directory around it exists. -/
  | vacant (path : AbsolutePath)

namespace FileTree

def find? (tree : FileTree) (path : AbsolutePath) : Option FileEntry :=
  if path.isEmpty then some .directory else tree.entries.lookup path

def insert (tree : FileTree) (path : AbsolutePath) (entry : FileEntry) : FileTree :=
  { tree with entries := (path, entry) :: tree.entries.filter fun other => other.1 != path }

/-- The names of a path; empty ones come from repeated slashes. -/
def pathNames (path : String) : List String :=
  (path.toList.splitOn '/').map String.ofList

/-- The directory from which the names of a path are followed. -/
def startOf (tree : FileTree) (path : String) : AbsolutePath :=
  if path.startsWith "/" then [] else tree.workingDirectory

def isHere (name : String) : Bool := name == "" || name == "."

/-- Follows names from a directory. -/
def follow (tree : FileTree) (directory : AbsolutePath) :
    List String → Except FileError Destination
  | [] => .ok (.directory directory)
  | name :: names =>
      if isHere name then follow tree directory names
      else if name = ".." then follow tree directory.dropLast names
      else
        let path := directory ++ [name]
        match tree.find? path with
        | some .directory => follow tree path names
        | some (.file contents) =>
            if names.isEmpty then .ok (.file path contents) else .error .notADirectory
        | none => if names.isEmpty then .ok (.vacant path) else .error .notFound

def resolve (tree : FileTree) (path : String) : Except FileError Destination :=
  if path.isEmpty then .error .notFound
  else tree.follow (tree.startOf path) (pathNames path)

def read (tree : FileTree) (path : String) : Except FileError ByteArray :=
  match tree.resolve path with
  | .error error => .error error
  | .ok (.directory _) => .error .isADirectory
  | .ok (.file _ contents) => .ok contents
  | .ok (.vacant _) => .error .notFound

def append (tree : FileTree) (path : String) (contents : ByteArray) :
    Except FileError FileTree :=
  match tree.resolve path with
  | .error error => .error error
  | .ok (.directory _) => .error .isADirectory
  | .ok (.file path existing) => .ok (tree.insert path (.file (existing ++ contents)))
  | .ok (.vacant path) => .ok (tree.insert path (.file contents))

/-- Creates a directory where nothing is yet, unless it exists. -/
def ensureDirectory (tree : FileTree) (start : AbsolutePath) (names : List String) :
    Except FileError Unit × FileTree :=
  match tree.follow start names with
  | .error error => (.error error, tree)
  | .ok (.directory _) => (.ok (), tree)
  | .ok (.file _ _) => (.error .alreadyExists, tree)
  | .ok (.vacant path) => (.ok (), tree.insert path .directory)

/-- Creates the first of the given directories.  If something around it is
missing, the next one is created beforehand; no other error is passed by. -/
def makeDirectories (tree : FileTree) (start : AbsolutePath) :
    List (List String) → Except FileError Unit × FileTree
  | [] => (.ok (), tree)
  | names :: outer =>
      match tree.ensureDirectory start names with
      | (.error .notFound, tree) =>
          match makeDirectories tree start outer with
          | (.ok (), tree) => tree.ensureDirectory start names
          | failed => failed
      | outcome => outcome

/-- The directories on the way to the end of a path, innermost first.  The
names of the path are given from its end; none of the directories ends in a
name that leads nowhere. -/
def waypoints : List String → List (List String)
  | [] => []
  | name :: names =>
      if isHere name then waypoints names else (name :: names).reverse :: waypoints names

/-- Creates a directory with all its ancestors.  Those created before an error
stay. -/
def createDirectories (tree : FileTree) (path : String) : Except FileError Unit × FileTree :=
  let fromEnd := (pathNames path).reverse.dropWhile (·.isEmpty)
  tree.makeDirectories (tree.startOf path) (fromEnd.reverse :: (waypoints fromEnd).tail)

end FileTree

instance : Host (StateM FileTree) where
  readFile path := return (← get).read path
  createDirectories path := modifyGet fun tree => tree.createDirectories path
  appendFile path contents := modifyGet fun tree =>
    match tree.append path contents with
    | .error error => (.error error, tree)
    | .ok tree => (.ok (), tree)
  clock := return 0

end Tricolor
