import FormCompiler.Frontend
import FormCompiler.CommandLine.Folder
import FormCompiler.CommandLine.Options

/-!
# Running a command

A command maps its arguments and the files it asks for to what it writes and
the code it exits with.
-/

namespace FormCompiler.CommandLine

/-- What a command leaves: its exit code and the texts on both streams. -/
structure Outcome where
  exitCode : Nat
  output : List String := []
  errors : List String := []
deriving DecidableEq, Repr

namespace Outcome

def streamText (lines : List String) : String :=
  String.join (lines.map fun line => line ++ "\n")

def outputText (outcome : Outcome) : String := streamText outcome.output

def errorText (outcome : Outcome) : String := streamText outcome.errors

/-- The same outcome after some lines on the error stream. -/
def after (outcome : Outcome) (lines : List String) : Outcome :=
  { outcome with errors := lines ++ outcome.errors }

end Outcome

inductive Command where
  | usage
  | version
  | expand (path : Option String)
  | emit (parsed : ParsedOptions)
  | check (parsed : ParsedOptions)
  | unknown (name : String)
deriving DecidableEq, Repr

/-- The command that some arguments ask for. -/
def Command.ofArguments : List String → Command
  | [] => .usage
  | name :: arguments =>
      if name = "expand" then .expand arguments.head?
      else if name = "emit" then .emit (parseOptions arguments)
      else if name = "check" then .check (parseOptions arguments)
      else if ["help", "--help", "-h"].contains name then .usage
      else if ["version", "--version", "-V"].contains name then .version
      else .unknown name

def versionLine : String := "ednc 0.1.0-alpha.1"

def usageLines : List String :=
  ["ednc - the EDN IR compiler",
    "",
    "Usage: ednc <command> [options]",
    "",
    "Commands:",
    "  expand <file>     Print the module with sugar expanded",
    "  emit <file>       Emit LLVM IR (requires the llvm feature)",
    "  check <file>      Lint, emit and verify; report diagnostics",
    "  help              Show this help message",
    "  version           Show version information",
    "",
    "Environment:",
    "  EDN_EH_MODEL=itanium|seh  Request an exception model",
    "  EDN_ENABLE_EH=1           Enable exception lowering",
    "  EDN_PANIC=unwind          Unwind on panic",
    "  EDN_ENABLE_CORO=1         Emit coroutine intrinsics",
    "  EDN_TARGET_TRIPLE=<t>     Target triple",
    "  RUST_LOG=<filter>         Trace emission (e.g. edn_emit=debug)"]

def optionLines : List String :=
  ["  --eh=<model>             Exception model: itanium, seh, both",
    "  --panic=unwind           Unwind on panic instead of trapping",
    "  --coro                   Emit coroutine intrinsics",
    "  --target=<triple>        Target triple"]

def expandUsage : List String := ["Usage: ednc expand <file.edn>"]

def emitUsage : List String :=
  ["Usage: ednc emit <file.edn> [options]",
    "",
    "Options:",
    "  --verify                 Run the LLVM verifier",
    "  -o <path>                Output file (default: stdout)"] ++ optionLines

def checkUsage : List String :=
  ["Usage: ednc check <file.edn> [options]", "", "Options:"] ++ optionLines

/-- This program links no backend that could write what is emitted. -/
def emitUnavailable : List String :=
  ["error: the 'emit' command requires the LLVM backend",
    "",
    "ednc was built without LLVM support.",
    "To enable emission, rebuild with the 'llvm' feature:",
    "",
    "  cargo build --features llvm"]

def checkNote : String :=
  "note: built without LLVM support; emission and verification are skipped"

/-- The lines that report diagnostics of a file. -/
def reportLines (path : String) (diagnostics : List Diagnostic) :
    List String :=
  diagnostics.map fun diagnostic => path ++ ":" ++ diagnostic.text

/-- The exit code of a command that broke off. -/
def brokenOff : Nat := 101

/-- Prints an expanded module. -/
def expandOutcome (path source : String) : Outcome :=
  match readExpanded source with
  | .ok expanded => { exitCode := 0, output := [expanded.text] }
  | .error diagnostic =>
      { exitCode := 1, errors := reportLines path [diagnostic] }

/-- The verdict on a checked file. -/
def verdict (path : String) (compilation : Compilation) : Outcome :=
  let errors := compilation.errorCount
  let warnings := compilation.warningCount
  let reports := reportLines path compilation.diagnostics
  if compilation.hasErrors then
    { exitCode := 1
      errors := reports ++
        [s!"{path}: {errors} error(s), {warnings} warning(s)"] }
  else if warnings = 0 then
    { exitCode := 0, output := [s!"OK: {path}"], errors := reports }
  else
    { exitCode := 0
      output := [s!"OK: {path} ({warnings} warning(s))"]
      errors := reports }

/-- Checks a module and reports what is found. -/
def checkOutcome (path source : String) : Outcome :=
  match lintSource source with
  | .ok compilation => (verdict path compilation).after [checkNote]
  | .error _ => { exitCode := brokenOff, errors := [checkNote] }

/-- Runs a command on the text of a file. -/
def withFile (readFile : String → Except FileError String) (path : String)
    (run : String → Outcome) : Outcome :=
  match readFile path with
  | .ok source => run source
  | .error error => { exitCode := 1, errors := [error.message path] }

def warningLines (parsed : ParsedOptions) : List String :=
  parsed.warnings.map OptionWarning.message

/-- Runs a command, given how files are read. -/
def Command.run (readFile : String → Except FileError String) :
    Command → Outcome
  | .usage => { exitCode := 0, output := usageLines }
  | .version => { exitCode := 0, output := [versionLine] }
  | .expand none => { exitCode := 1, errors := expandUsage }
  | .expand (some path) => withFile readFile path (expandOutcome path)
  | .emit parsed =>
      let lines :=
        match parsed.path with
        | none => emitUsage
        | some _ => emitUnavailable
      { exitCode := 1, errors := warningLines parsed ++ lines }
  | .check parsed =>
      let outcome : Outcome :=
        match parsed.path with
        | none => { exitCode := 1, errors := checkUsage }
        | some path => withFile readFile path (checkOutcome path)
      outcome.after (warningLines parsed)
  | .unknown name =>
      { exitCode := 1
        output := usageLines
        errors := [s!"Unknown command: {name}", ""] }

/-- The file that a command reads. -/
def Command.path? : Command → Option String
  | .expand path => path
  | .check parsed => parsed.path
  | .usage | .version | .emit _ | .unknown _ => none

end FormCompiler.CommandLine
