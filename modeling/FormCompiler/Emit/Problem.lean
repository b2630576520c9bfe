import FormCompiler.Diagnostic

/-!
# Emission problems

A problem is local: the form that caused it is skipped and emission goes on.
A fatal error ends the emission of the module.
-/

namespace FormCompiler

/-- Why a form was skipped. -/
inductive ProblemCause where
  | malformed (shape : String)
  | unknownType (text : String)
  | unresolved (name : String)
  | typeMismatch (text : String)
  | unknownLayout (name : String)
  | unknownCallee (name : String)
  | unrecognized
deriving DecidableEq, Repr

namespace ProblemCause

/-- A form that should have this shape was read beyond its end.  Handlers
check how long a form is, so that none of them comes to this. -/
def outOfRange (shape : String) : ProblemCause :=
  .malformed s!"item in range: {shape}"

def message : ProblemCause → String
  | .malformed shape => s!"malformed instruction, expected `{shape}`"
  | .unknownType text => s!"unknown type `{text}`"
  | .unresolved name => s!"cannot resolve `{name}`"
  | .typeMismatch text => s!"type mismatch: {text}"
  | .unknownLayout name => s!"unknown layout `{name}`"
  | .unknownCallee name => s!"unknown callee `{name}`"
  | .unrecognized => "unrecognized instruction"

def code : ProblemCause → ErrorCode
  | .malformed _ => .malformedInstruction
  | .unknownType _ => .badType
  | .unresolved _ => .unresolvedOperand
  | .typeMismatch _ => .operandType
  | .unknownLayout _ => .unknownLayout
  | .unknownCallee _ => .unknownCallee
  | .unrecognized => .malformedInstruction

end ProblemCause

/-- A skipped form. -/
structure Problem where
  /-- The function that was being emitted; empty outside of functions. -/
  function : String
  /-- The head of the form. -/
  operation : String
  cause : ProblemCause
  span : Option Span
deriving DecidableEq, Repr

def Problem.diagnostic (problem : Problem) : Diagnostic :=
  let operation := problem.operation
  let message := problem.cause.message
  let function := problem.function
  let located := (Diagnostic.warning problem.cause.code
    s!"`{operation}` skipped: {message}").withLabel? problem.span
    "instruction not emitted"
  if function.isEmpty then located
  else located.withNote s!"in function `{function}`"

/-- Why a module could not be emitted. -/
inductive EmitError where
  | noInsertionPoint (function : String) (count : Nat)
  | unknownFunction (name : String)
  | malformedModule (text : String)
  | missingEntry (name : String)
deriving DecidableEq, Repr

namespace EmitError

def message : EmitError → String
  | .noInsertionPoint function count =>
      s!"`{function}`: {count} instruction(s) built with no insertion point"
  | .unknownFunction name => s!"unknown function `{name}`"
  | .malformedModule text => s!"malformed module form: {text}"
  | .missingEntry name => s!"function `{name}` has no entry block"

def code : EmitError → ErrorCode
  | .malformedModule _ => .malformedModule
  | .noInsertionPoint .. | .unknownFunction _ | .missingEntry _ =>
      .abortedFunction

def diagnostic (error : EmitError) : Diagnostic :=
  Diagnostic.error error.code error.message

end EmitError

end FormCompiler
