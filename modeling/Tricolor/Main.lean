import Tricolor.CommandLine.Program

/-!
# The command line

The real system as a host, and the entry point of the program.
-/

namespace Tricolor

def FileError.ofIO (error : IO.Error) : FileError :=
  match error with
  | .noFileOrDirectory _ _ _ => .notFound
  | .alreadyExists _ _ _ => .alreadyExists
  | .inappropriateType _ osCode _ => if osCode = 21 then .isADirectory else .notADirectory
  | error => .other (toString error)

def catchFileError (action : IO α) : IO (Except FileError α) := do
  try
    return .ok (← action)
  catch error =>
    return .error (FileError.ofIO error)

instance : Host IO where
  readFile path := catchFileError (IO.FS.readBinFile path)
  createDirectories path :=
    catchFileError (if path.isEmpty then pure () else IO.FS.createDirAll path)
  appendFile path contents := catchFileError do
    let handle ← IO.FS.Handle.mk path .append
    handle.write contents
  clock := IO.monoMsNow

end Tricolor

def main (arguments : List String) : IO UInt32 := do
  let ending ← Tricolor.runProgram arguments
  if let some output := ending.output then
    IO.println output
  if let some complaint := ending.complaint then
    IO.eprintln complaint
  return ending.exitCode.toUInt32
