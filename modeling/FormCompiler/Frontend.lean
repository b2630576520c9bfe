import FormCompiler.Form.Reader
import FormCompiler.Sugar
import FormCompiler.Coverage

/-!
# Reading, expanding and checking a module

A source text holds one module form.  Faults of reading and of expansion stop
the work with one diagnostic; faults found by checking do not.
-/

namespace FormCompiler

def ReadFault.code : ReadFault → ErrorCode
  | .unexpectedEnd => .unexpectedEnd
  | .unexpectedChar _ => .unexpectedChar
  | .unmatchedClose _ => .unmatchedClose
  | .oddMapEntries => .oddMapEntries
  | .invalidNumber _ => .invalidNumber
  | .empty => .emptyInput

/-- How the place of a fault is labelled. -/
def ReadFault.label : ReadFault → String
  | .unexpectedEnd => "input ends here"
  | .oddMapEntries => "map starts here"
  | _ => "here"

def ReadError.diagnostic (error : ReadError) : Diagnostic :=
  (Diagnostic.error error.fault.code error.fault.summary).withLabel
    (.point error.position) error.fault.label

def ExpansionError.code : ExpansionError → ErrorCode
  | .stepLimit .. => .stepLimit
  | .depthLimit .. => .depthLimit

def ExpansionError.diagnostic (error : ExpansionError) (span : Option Span) :
    Diagnostic :=
  ((Diagnostic.error error.code error.message).withLabel? span
    "while expanding this form").withNote
    "a macro probably rewrites into itself or into another macro that does"

/-- Reads a text that must hold exactly one form. -/
def readModule (source : String) : Except Diagnostic Form :=
  match readForms source with
  | .error error => .error error.diagnostic
  | .ok [form] => .ok form
  | .ok [] =>
      .error ((Diagnostic.error .emptyInput "no form found").withLabel
        (.point .origin) "expected `(module ..)`")
  | .ok (first :: second :: rest) =>
      let count := (first :: second :: rest).length
      .error ((Diagnostic.error .malformedModule
        s!"expected one `(module ..)` form, found {count}").withLabel?
          second.span? "second top-level form")

/-- Expands the built-in abbreviations of a module. -/
def expandModule (form : Form) : Except Diagnostic Form :=
  match Sugar.rules.expand form with
  | .error error => .error (error.diagnostic form.span?)
  | .ok expanded => .ok expanded

def readExpanded (source : String) : Except Diagnostic Form :=
  match readModule source with
  | .error diagnostic => .error diagnostic
  | .ok form => expandModule form

/-- What one run over a source text gave. -/
structure Compilation where
  /-- The expanded and checked module. -/
  expanded : Option Form := none
  /-- The lines of the emitted module. -/
  lines : Option (List String) := none
  diagnostics : List Diagnostic := []

namespace Compilation

def hasErrors (compilation : Compilation) : Bool :=
  compilation.diagnostics.any Diagnostic.isError

def errorCount (compilation : Compilation) : Nat :=
  compilation.diagnostics.countP Diagnostic.isError

def warningCount (compilation : Compilation) : Nat :=
  compilation.diagnostics.length - compilation.errorCount

end Compilation

/-- Reads, expands and checks a module without emitting it. -/
def lintSource (source : String) : Except Coverage.Fault Compilation :=
  match readExpanded source with
  | .error diagnostic => .ok { diagnostics := [diagnostic] }
  | .ok expanded =>
      (Coverage.checkMatches expanded).map fun (checked, diagnostics) =>
        { expanded := some checked, diagnostics }

end FormCompiler
