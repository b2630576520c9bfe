import FormCompiler.CommandLine.Run

/-!
# The program

Reads the file that a command names, runs the command and writes what it
leaves.
-/

namespace FormCompiler.CommandLine

/-- Reads a file. -/
def readSource (path : String) : IO (Except FileError String) := do
  try
    let contents ← IO.FS.readBinFile path
    match String.fromUTF8? contents with
    | some source => pure (.ok source)
    | none => pure (.error .invalidText)
  catch error =>
    match error with
    | .noFileOrDirectory .. => pure (.error .notFound)
    | .permissionDenied .. => pure (.error .denied)
    | .inappropriateType none .. => pure (.error .isFolder)
    | .inappropriateType (some _) .. => pure (.error .notFolder)
    | .invalidArgument (some _) .. => pure (.error .nameTooLong)
    | error => pure (.error (.other (toString error)))

end FormCompiler.CommandLine

open FormCompiler.CommandLine in
def main (arguments : List String) : IO UInt32 := do
  let command := Command.ofArguments arguments
  let contents ←
    match command.path? with
    | some path => readSource path
    | none => pure (.error .notFound)
  let outcome := command.run fun _ => contents
  IO.print outcome.outputText
  IO.eprint outcome.errorText
  pure (UInt32.ofNat outcome.exitCode)
