import FormCompiler.Source.Position

/-!
# Diagnostics

A diagnostic has a code that names the kind of fault, a severity, a message,
labelled places in the source and notes.
-/

namespace FormCompiler

inductive ErrorCode where
  | unexpectedEnd
  | unexpectedChar
  | unmatchedClose
  | oddMapEntries
  | invalidNumber
  | emptyInput
  | stepLimit
  | depthLimit
  | badType
  | unresolvedOperand
  | operandType
  | unknownLayout
  | malformedInstruction
  | unknownCallee
  | inexhaustiveMatch
  | abortedFunction
  | malformedModule
  | invalidModule
deriving DecidableEq, Repr

namespace ErrorCode

def text : ErrorCode → String
  | .unexpectedEnd => "E0001"
  | .unexpectedChar => "E0002"
  | .unmatchedClose => "E0003"
  | .oddMapEntries => "E0004"
  | .invalidNumber => "E0005"
  | .emptyInput => "E0006"
  | .stepLimit => "E1001"
  | .depthLimit => "E1002"
  | .badType => "E2001"
  | .unresolvedOperand => "E2002"
  | .operandType => "E2003"
  | .unknownLayout => "E2004"
  | .malformedInstruction => "E2005"
  | .unknownCallee => "E2006"
  | .inexhaustiveMatch => "E2101"
  | .abortedFunction => "E9001"
  | .malformedModule => "E9002"
  | .invalidModule => "E9003"

def all : List ErrorCode :=
  [.unexpectedEnd, .unexpectedChar, .unmatchedClose, .oddMapEntries,
    .invalidNumber, .emptyInput, .stepLimit, .depthLimit, .badType,
    .unresolvedOperand, .operandType, .unknownLayout, .malformedInstruction,
    .unknownCallee, .inexhaustiveMatch, .abortedFunction, .malformedModule,
    .invalidModule]

def ofText? (text : String) : Option ErrorCode :=
  all.find? fun code => code.text = text

/-- Faults of the source text. -/
def isReaderError (code : ErrorCode) : Bool := code.text.startsWith "E0"

/-- Faults that stop a function or a module. -/
def isInternal (code : ErrorCode) : Bool := code.text.startsWith "E9"

end ErrorCode

inductive Severity where
  | error
  | warning
  | note
deriving DecidableEq, Repr

def Severity.text : Severity → String
  | .error => "error"
  | .warning => "warning"
  | .note => "note"

structure Label where
  span : Span
  message : String
  isPrimary : Bool
deriving DecidableEq, Repr

structure Diagnostic where
  code : ErrorCode
  severity : Severity
  message : String := ""
  labels : List Label := []
  notes : List String := []
deriving DecidableEq, Repr

namespace Diagnostic

def error (code : ErrorCode) (message : String) : Diagnostic :=
  { code, severity := .error, message }

def warning (code : ErrorCode) (message : String) : Diagnostic :=
  { code, severity := .warning, message }

def withLabel (diagnostic : Diagnostic) (span : Span) (message : String) :
    Diagnostic :=
  { diagnostic with
    labels := diagnostic.labels ++ [⟨span, message, true⟩] }

/-- A primary label, where the place is known. -/
def withLabel? (diagnostic : Diagnostic) (span : Option Span)
    (message : String) : Diagnostic :=
  match span with
  | some span => diagnostic.withLabel span message
  | none => diagnostic

def withSecondaryLabel (diagnostic : Diagnostic) (span : Span)
    (message : String) : Diagnostic :=
  { diagnostic with
    labels := diagnostic.labels ++ [⟨span, message, false⟩] }

def withNote (diagnostic : Diagnostic) (note : String) : Diagnostic :=
  { diagnostic with notes := diagnostic.notes ++ [note] }

/-- The first primary label locates a diagnostic. -/
def primarySpan? (diagnostic : Diagnostic) : Option Span :=
  (diagnostic.labels.find? Label.isPrimary).map Label.span

def isError (diagnostic : Diagnostic) : Bool :=
  diagnostic.severity == .error

def labelText (label : Label) : String :=
  let marker := if label.isPrimary then "-->" else "   "
  let place := label.span.text
  let message := label.message
  s!"\n  {marker} {place}: {message}"

def text (diagnostic : Diagnostic) : String :=
  let severity := diagnostic.severity.text
  let code := diagnostic.code.text
  let message := diagnostic.message
  s!"{severity} [{code}]: {message}" ++
    String.join (diagnostic.labels.map labelText) ++
    String.join (diagnostic.notes.map fun note => s!"\n  = note: {note}")

end Diagnostic

end FormCompiler
