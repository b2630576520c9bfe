import FormCompiler.Types.Spelling
import FormCompiler.Ir.Builder
import FormCompiler.Emit.Configuration
import FormCompiler.Emit.Layout
import FormCompiler.Emit.FunctionContext
import FormCompiler.Emit.LiteralPool

/-!
# Emitting a function

Emission runs over one function of a module: it builds instructions, keeps
track of names and collects problems.  A handler of one instruction may give
up with a cause; what it did before stays done.
-/

namespace FormCompiler

/-- What all instructions of a function see. -/
structure Environment where
  configuration : Configuration
  layouts : Layouts
  functionName : String

/-- Where the value of a phi on one edge comes from: a name is looked up when
the whole body is there. -/
inductive EdgeSource where
  | named (name : String)
  | value (value : Ir.Value)
deriving Repr

/-- A phi whose edges are still to be added. -/
structure PendingPhi where
  destination : String
  type : TypeId
  phi : Ir.Value
  /-- Sources with the names of the blocks they come from. -/
  incoming : List (EdgeSource × String)
deriving Repr

/-- Where calls unwind to inside the bodies of `try`, the innermost first. -/
structure UnwindTargets where
  landingPads : List Ir.BlockId := []
  dispatches : List Ir.BlockId := []
  /-- The one cleanup block for calls outside of any `try`. -/
  cleanup : Option Ir.BlockId := none
deriving Repr

structure EmitState where
  builder : Ir.Builder
  context : FunctionContext := {}
  pendingPhis : List PendingPhi := []
  /-- The blocks that matches with a result end at, with the types of the
  results, in the order in which they were emitted. -/
  matchEnds : List (Ir.BlockId × TypeId) := []
  unwindTargets : UnwindTargets := {}
  /-- The identity of the coroutine that was begun last. -/
  coroutineId : Option Ir.Value := none
  literals : LiteralPool := {}
  /-- The number of closures made in the module. -/
  closureCount : Nat := 0
  /-- In the order in which they were met. -/
  problems : List Problem := []
  /-- The place of the instruction that is being emitted. -/
  span : Option Span := none

abbrev Emission := ReaderT Environment (StateM EmitState)

/-- The emission of one instruction, which may fail. -/
abbrev Handler := ExceptT ProblemCause Emission

/-- Emits one form, with the forms in its bodies. -/
abbrev FormEmitter := Form → Emission Unit

/-- Runs a builder operation. -/
def onBuilder {Result : Type} (operation : Ir.Build Result) :
    Emission Result :=
  modifyGet fun state =>
    let (result, builder) := operation state.builder
    (result, { state with builder })

instance (priority := low) : MonadLift Ir.Build Emission := ⟨onBuilder⟩

instance (priority := low) : MonadLift (StateM TypeTable) Ir.Build :=
  ⟨Ir.Builder.onTypes⟩

instance (priority := low) : MonadLift (StateM Ir.Module) Ir.Build :=
  ⟨Ir.Builder.onModule⟩

/-- Records a skipped instruction. -/
def report (operation : String) (cause : ProblemCause) : Emission Unit := do
  let function := (← read).functionName
  modify fun state =>
    { state with
      problems := state.problems ++ [⟨function, operation, cause, state.span⟩] }

def context : Emission FunctionContext := do pure (← get).context

def modifyContext (change : FunctionContext → FunctionContext) :
    Emission Unit :=
  modify fun state => { state with context := change state.context }

/-- A number for the blocks of one construct. -/
def freshId : Emission Nat := do
  let id := (← context).nextId
  modifyContext fun context => { context with nextId := id + 1 }
  pure id

def types : Emission TypeTable := do pure (← get).builder.module.types

def module : Emission Ir.Module := do pure (← get).builder.module

def currentBlock? : Emission (Option Ir.BlockId) := do
  pure (← get).builder.block

def isTerminated : Emission Bool := do pure (← get).builder.isTerminated

def personality? : Emission (Option Personality) := do
  pure (← read).configuration.personality

/-- A value that must be there. -/
def orFail {Part : Type} (cause : ProblemCause) : Option Part → Handler Part
  | some part => pure part
  | none => throw cause

/-- The result of a handler, if it does not fail. -/
def attempt {Result : Type} (handler : Handler Result) :
    Emission (Option Result) := do
  pure (← handler.run).toOption

/-- Reads a type form into the type table of the module. -/
def typeOf (form : Form) : Handler TypeId :=
  ExceptT.mk (onBuilder (Ir.Builder.onTypes (readType form).run))

def spelling (type : TypeId) : Emission String := do
  pure ((← types).spell type)

/-- Fails because of the type of an operand. -/
def mismatch {Result : Type} (what : String) (expected found : TypeId) :
    Handler Result := do
  let expected ← spelling expected
  let found ← spelling found
  throw (.typeMismatch s!"{what}: expected {expected}, found {found}")

/-- Fails unless a type is the expected one. -/
def expectType (what : String) (expected found : TypeId) : Handler Unit :=
  if found = expected then pure () else mismatch what expected found

/-- The function type of the current function. -/
def functionType : Emission TypeId := do
  pure (← get).builder.currentFunction.type

/-- The result type of a function type. -/
def resultType (table : TypeTable) (type : TypeId) : TypeId :=
  match table.signature? type with
  | some signature => signature.result
  | none => type

def returnType : Emission TypeId := do
  pure (resultType (← types) (← functionType))

/-- The function of a name, declared where it is not there yet. -/
def declareFunction (name : String) (result : TypeId)
    (parameters : List TypeId) (variadic : Bool) :
    Emission Ir.FunctionId := do
  match (← module).function? name with
  | some id => pure id
  | none =>
      let type ← TypeTable.function result parameters variadic
      Ir.Module.addFunction name type .external

/-- Emits instructions in order, up to one that ends the current block. -/
def emitSequence (emit : FormEmitter) : List Form → Emission Unit
  | [] => pure ()
  | form :: forms => do
      if ← isTerminated then pure ()
      else
        emit form
        emitSequence emit forms

/-- Branches to a block, unless the current one is ended. -/
def fallThrough (next : Ir.BlockId) : Emission Unit := do
  if ← isTerminated then pure () else Ir.Builder.branch next

/-- Emits a body into a block that continues in another one. -/
def emitArm (emit : FormEmitter) (block : Ir.BlockId) (body : List Form)
    (next : Ir.BlockId) : Emission Unit := do
  Ir.Builder.positionAtEnd block
  emitSequence emit body
  fallThrough next

end FormCompiler
