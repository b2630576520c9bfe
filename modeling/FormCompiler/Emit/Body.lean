import FormCompiler.Emit.Mutability
import FormCompiler.Emit.Scalar
import FormCompiler.Emit.Storage
import FormCompiler.Emit.Aggregate
import FormCompiler.Emit.Closure
import FormCompiler.Emit.Coroutine
import FormCompiler.Emit.Branching
import FormCompiler.Emit.Matching

/-!
# Function bodies

Every form is dispatched on its opcode.  A form that cannot be emitted is
reported and skipped, and the next one follows.  Forms nest in the bodies of
others, and a form is emitted to the depth of its own nesting.
-/

namespace FormCompiler

open Ir

/-- Emits a form by its opcode. -/
def dispatch (emit : FormEmitter) (opcode : Opcode) (items : List Form) :
    Handler Unit :=
  match opcode with
  | .conditional => emitConditional emit items
  | .whileLoop => emitWhile emit items
  | .forLoop => emitFor emit items
  | .switch => emitSwitch emit items
  | .sumMatch => emitMatch emit items
  | .breakLoop => emitBreak items
  | .continueLoop => emitContinue items
  | .block => emitBlock emit items
  | .phi => emitPhi items
  | .ret => emitReturn items
  | .panic => emitPanic
  | .tryCatch => emitTry emit items
  | .constant => emitConstant items
  | .binary operator => emitBinary operator items
  | .comparison comparison => emitComparison comparison items
  | .compareInt => emitCompareInt items
  | .compareFloat => emitCompareFloat items
  | .cast operator => emitCast operator items
  | .pointerAdd => emitPointerOffset false items
  | .pointerSub => emitPointerOffset true items
  | .pointerDiff => emitPointerDiff items
  | .localVariable => emitVariable items
  | .assign => emitAssign items
  | .alloca => emitAlloca items
  | .load => emitLoad items
  | .store => emitStore items
  | .loadGlobal => emitLoadGlobal items
  | .storeGlobal => emitStoreGlobal items
  | .index => emitIndex items
  | .arrayLiteral => emitArrayLiteral items
  | .structLiteral => emitStructLiteral items
  | .member => emitMember items
  | .memberAddress => emitMemberAddress items
  | .unionMember => emitUnionMember items
  | .address => emitAddress items
  | .dereference => emitDereference items
  | .functionPointer => emitFunctionPointer items
  | .call => emitCall items
  | .callIndirect => emitCallIndirect items
  | .vaStart => emitVaStart items
  | .vaArg => emitVaArg items
  | .vaEnd => emitVaEnd items
  | .textLiteral => emitTextLiteral items
  | .bytesLiteral => emitBytesLiteral items
  | .closure => emitClosure items
  | .makeClosure => emitMakeClosure items
  | .callClosure => emitCallClosure items
  | .coroutine step => emitCoroutineStep step items
  | .sumNew => emitSumNew items
  | .sumIs => emitSumIs items
  | .sumGet => emitSumGet items

/-- Runs an emission at the place of a form; a form without a place is where
the form around it is. -/
def atPlaceOf (form : Form) (emission : Emission Unit) : Emission Unit := do
  let outer := (← get).span
  modify fun state => { state with span := form.span?.or outer }
  emission
  modify fun state => { state with span := outer }

/-- Emits a list form, given how the forms in its bodies are emitted. -/
def emitList (emit : FormEmitter) (form : Form) (items : List Form) :
    Emission Unit :=
  atPlaceOf form do
    let handler : Handler Unit :=
      match form.head?.bind Opcode.ofHead? with
      | some opcode => dispatch emit opcode items
      | none => throw .unrecognized
    match ← handler.run with
    | .ok _ => pure ()
    | .error cause => report (form.head?.getD "") cause

/-- Emits a form that nests at most `depth` levels. -/
def emitWithin : (depth : Nat) → FormEmitter
  | 0, form => report form.kindName (.malformed "(op ..)")
  | depth + 1, form =>
      match form.list? with
      | some items => emitList (emitWithin depth) form items
      | none => report form.kindName (.malformed "(op ..)")

/-- Emits a form. -/
def emitForm : FormEmitter := fun form => emitWithin form.height form

/-- A function that a module defines or declares. -/
structure FunctionHeader where
  name : String
  type : TypeId
  parameters : List (String × TypeId)
  /-- Absent for a function defined elsewhere. -/
  body : Option (List Form)

/-- Binds parameters from a position on.  It fails where the function has
fewer. -/
def bindParameters (function : FunctionId) (name : String) :
    (index : Nat) → List (String × TypeId) →
      ExceptT EmitError Emission Unit
  | _, [] => pure ()
  | index, (parameter, type) :: parameters => do
      Module.setParameterName function index parameter
      match ((← module).function function).parameters[index]? with
      | none => throw (.missingEntry name)
      | some value =>
          modifyContext (·.bind parameter value type)
          if (← context).isMutable parameter then
            let _ ← ensureSlot parameter type true
          bindParameters function name (index + 1) parameters

/-- Names the personality of a function. -/
def markPersonality (function : FunctionId) : Emission Unit := do
  match ← personality? with
  | some personality =>
      let routine ← (declarePersonality personality : StateM Module FunctionId)
      Module.setPersonality function routine
      Module.addAttributes function [.unwindTable]
  | none => pure ()

/-- Emits the body of a function. -/
def emitBody (function : FunctionId) (header : FunctionHeader)
    (body : List Form) : ExceptT EmitError Emission Unit := do
  markPersonality function
  let entry ← Builder.appendBlock "entry"
  Builder.positionAtEnd entry
  bindParameters function header.name 0 header.parameters
  emitSequence emitForm body
  if !(← isTerminated) then buildDefaultReturn (← returnType)
  completePhis
  let detached := (← get).builder.detached
  if 0 < detached then throw (.noInsertionPoint header.name detached)

end FormCompiler
