import FormCompiler.Emit.ModuleForm

/-!
# Targets are lexical

Loops and the handlers of exceptions are kept on stacks while a body is
emitted, but what is on top is always what encloses the form in the source.
Here forms are emitted with their surroundings at hand: the innermost loop
whose body a form is in, and the innermost `try` whose body it is in.  The
stacks are kept up all the same, but nothing looks at them any more.  The code
that comes out is the same.
-/

namespace FormCompiler

open Ir

/-! ## Emitting with surroundings -/

/-- What encloses a form: where the innermost loop whose body it is in is left
and continued, and where the innermost `try` whose body it is in lands. -/
structure Surroundings where
  loop : Option LoopTargets := none
  handler : Option BlockId := none

namespace Surroundings

def inLoop (around : Surroundings) (targets : LoopTargets) : Surroundings :=
  { around with loop := some targets }

def inTry (around : Surroundings) (handler : BlockId) : Surroundings :=
  { around with handler := some handler }

end Surroundings

/-- How forms are emitted, given what encloses them. -/
abbrev LexicalEmitter := Surroundings → FormEmitter

namespace Lexical

variable (emit : LexicalEmitter) (around : Surroundings)

def emitBreak (items : List Form) : Handler Unit := do
  expectLength items 1 "(break)"
  match around.loop with
  | some targets => Builder.branch targets.breakTo
  | none => pure ()

def emitContinue (items : List Form) : Handler Unit := do
  expectLength items 1 "(continue)"
  match around.loop with
  | some targets => Builder.branch targets.continueTo
  | none => pure ()

/-- The condition block is continued, the end block is where the loop is
left. -/
def emitWhile (items : List Form) : Handler Unit := do
  let shape := "(while %c [body])"
  expectLength items 3 shape
  let body ← vectorAt items 2 shape
  let test ← itemAt items 1 shape
  let id ← freshId
  let testBlock ← Builder.appendBlock s!"while.cond.{id}"
  let bodyBlock ← Builder.appendBlock s!"while.body.{id}"
  let endBlock ← Builder.appendBlock s!"while.end.{id}"
  Builder.branch testBlock
  Builder.positionAtEnd testBlock
  branchOn test bodyBlock endBlock
  let targets : LoopTargets := ⟨endBlock, testBlock⟩
  emitLoopBody (emit (around.inLoop targets)) targets bodyBlock body testBlock
  Builder.positionAtEnd endBlock

/-- The step block is continued; the step itself is outside of the loop. -/
def emitForBlocks (id : Nat) (test : Option Form) (step body : List Form) :
    Emission Unit := do
  let testBlock ← Builder.appendBlock s!"for.cond.{id}"
  let bodyBlock ← Builder.appendBlock s!"for.body.{id}"
  let stepBlock ← Builder.appendBlock s!"for.step.{id}"
  let endBlock ← Builder.appendBlock s!"for.end.{id}"
  Builder.branch testBlock
  Builder.positionAtEnd testBlock
  match test with
  | some test => branchOn test bodyBlock endBlock
  | none => Builder.branch bodyBlock
  let targets : LoopTargets := ⟨endBlock, stepBlock⟩
  emitLoopBody (emit (around.inLoop targets)) targets bodyBlock body stepBlock
  emitArm (emit around) stepBlock step testBlock
  Builder.positionAtEnd endBlock

def emitFor (items : List Form) : Handler Unit := do
  let shape := "(for :init [..] :cond %c :step [..] :body [..])"
  let arguments ← KeywordArguments.follow items 1 shape
  let body ← orFail (.malformed shape) (arguments.vector? "body")
  let id ← freshId
  emitSequence (emit around) ((arguments.vector? "init").getD [])
  if ← isTerminated then pure ()
  else
    emitForBlocks emit around id (arguments.get? "cond")
      ((arguments.vector? "step").getD []) body

/-- The handler that encloses the form, or else a block that passes the
exception on: a new one each time, or the one of the function. -/
def unwindTarget (personality : Personality) : Emission BlockId :=
  match around.handler with
  | some handler => pure handler
  | none =>
      match personality with
      | .itanium => resumingPad
      | .seh => cleanupFunclet

def buildInvocation (callee : Value) (arguments : List Value)
    (name : String) : Emission (Option Value) := do
  if (Builder.calleeType? (← types) callee).isNone then pure none
  else
    match ← personality? with
    | none => Builder.call callee arguments name
    | some personality =>
        let unwind ← unwindTarget around personality
        let id ← freshId
        let next ← Builder.appendBlock s!"invoke.cont.{id}"
        let value ← Builder.invoke callee arguments next unwind name
        Builder.positionAtEnd next
        pure value

def emitCall (items : List Form) : Handler Unit := do
  let shape := "(call %d RetT callee args..)"
  if items.length < 4 then throw (.malformed shape)
  let destination ← nameAt items 1 shape
  let result ← typeOf (← itemAt items 2 shape)
  let name ← itemSymbolAt items 3 shape
  let (id, arguments) ← calledFunction name result
    (← itemsFrom items 4 shape)
  let declared := resultType (← types) ((← module).function id).type
  expectType s!"return of `{name}`" result declared
  let callee ← Builder.functionAddress id
  let value ← orFail (.unknownCallee name)
    (← buildInvocation around callee arguments destination)
  defineResult destination value result

def emitThrow (personality : Personality) : Emission Unit := do
  let (routine, arguments) ← throwingCall personality
  let unwind ← unwindTarget around personality
  let id ← freshId
  let next ← Builder.appendBlock s!"panic.cont.{id}"
  let callee ← Builder.functionAddress routine
  let _ ← Builder.invoke callee arguments next unwind ""
  Builder.positionAtEnd next
  Builder.unreachable

def emitPanic : Handler Unit := do
  match ← personality? with
  | some personality =>
      if (← read).configuration.panicUnwinds then emitThrow around personality
      else emitTrap
  | none => emitTrap

/-- The body lands in the pad; the handler does not. -/
def emitWithLandingPad (id : Nat) (bodyBlock : BlockId)
    (body handler : List Form) : Emission Unit := do
  let padBlock ← Builder.appendBlock s!"try.lpad.{id}"
  let handlerBlock ← Builder.appendBlock s!"try.handler.{id}"
  let endBlock ← Builder.appendBlock s!"try.end.{id}"
  Builder.branch bodyBlock
  Builder.positionAtEnd padBlock
  let catchAll ← Builder.constantZero (← TypeTable.bytePointer)
  let _ ← Builder.landingPad false [catchAll] "lpad"
  Builder.branch handlerBlock
  protectedBy .itanium padBlock
    (emitArm (emit (around.inTry padBlock)) bodyBlock body endBlock)
  emitArm (emit around) handlerBlock handler endBlock
  Builder.positionAtEnd endBlock

/-- The body is dispatched; the handler is not. -/
def emitWithFunclet (id : Nat) (bodyBlock : BlockId)
    (body handler : List Form) : Emission Unit := do
  let dispatchBlock ← Builder.appendBlock s!"try.dispatch.{id}"
  let padBlock ← Builder.appendBlock s!"try.pad.{id}"
  let handlerBlock ← Builder.appendBlock s!"try.handler.{id}"
  let endBlock ← Builder.appendBlock s!"try.end.{id}"
  Builder.branch bodyBlock
  Builder.positionAtEnd dispatchBlock
  let outside ← Builder.constantNone
  let dispatch ← Builder.catchSwitch outside [padBlock] none "cs"
  Builder.positionAtEnd padBlock
  let pointer ← TypeTable.bytePointer
  let word ← TypeTable.int 32
  let null ← Builder.constantZero pointer
  let flags ← Builder.constantInt word catchAllFlags
  let pad ← Builder.catchPad dispatch [null, flags, null] "cpad"
  Builder.catchReturn pad handlerBlock
  protectedBy .seh dispatchBlock
    (emitArm (emit (around.inTry dispatchBlock)) bodyBlock body endBlock)
  emitArm (emit around) handlerBlock handler endBlock
  Builder.positionAtEnd endBlock

def emitTry (items : List Form) : Handler Unit := do
  let shape := "(try :body [..] :catch [..])"
  let arguments ← KeywordArguments.follow items 1 shape
  let body ← orFail (.malformed shape) (arguments.vector? "body")
  let handler := (arguments.vector? "catch").getD []
  let id ← freshId
  let bodyBlock ← Builder.appendBlock s!"try.body.{id}"
  match ← personality? with
  | none => emitUnprotected (emit around) id bodyBlock body handler
  | some .itanium =>
      emitWithLandingPad emit around id bodyBlock body handler
  | some .seh => emitWithFunclet emit around id bodyBlock body handler

/-- Loops and `try` change what encloses their bodies; all other forms are in
the same surroundings as the forms in them. -/
def dispatch (opcode : Opcode) (items : List Form) : Handler Unit :=
  match opcode with
  | .breakLoop => emitBreak around items
  | .continueLoop => emitContinue around items
  | .whileLoop => emitWhile emit around items
  | .forLoop => emitFor emit around items
  | .call => emitCall around items
  | .panic => emitPanic around
  | .tryCatch => emitTry emit around items
  | opcode => FormCompiler.dispatch (emit around) opcode items

def emitList (form : Form) (items : List Form) : Emission Unit :=
  atPlaceOf form do
    let handler : Handler Unit :=
      match form.head?.bind Opcode.ofHead? with
      | some opcode => dispatch emit around opcode items
      | none => throw .unrecognized
    match ← handler.run with
    | .ok _ => pure ()
    | .error cause => report (form.head?.getD "") cause

/-- Emits a form that nests at most `depth` levels. -/
def emitWithin : (depth : Nat) → LexicalEmitter
  | 0, _, form => report form.kindName (.malformed "(op ..)")
  | depth + 1, around, form =>
      match form.list? with
      | some items => emitList (emitWithin depth) around form items
      | none => report form.kindName (.malformed "(op ..)")

/-- Emits a form in its surroundings. -/
def emitForm : LexicalEmitter := fun around form =>
  emitWithin form.height around form

/-- Emits the body of a function, which nothing encloses. -/
def emitBody (function : FunctionId) (header : FunctionHeader)
    (body : List Form) : ExceptT EmitError Emission Unit := do
  markPersonality function
  let entry ← Builder.appendBlock "entry"
  Builder.positionAtEnd entry
  bindParameters function header.name 0 header.parameters
  emitSequence (emitForm {}) body
  if !(← isTerminated) then buildDefaultReturn (← returnType)
  completePhis
  let detached := (← get).builder.detached
  if 0 < detached then throw (.noInsertionPoint header.name detached)

/-- Emits one function of a module. -/
def emitFunction (configuration : Configuration) (header : FunctionHeader)
    (body : List Form) : ModuleHandler Unit := do
  let state ← get
  match state.module.function? header.name with
  | none => throw (.unknownFunction header.name)
  | some function =>
      let environment : Environment :=
        { configuration
          layouts := state.layouts
          functionName := (state.module.function function).name }
      let context := FunctionContext.ofMutableNames
        (mutableNames (header.parameters.map Prod.fst) body)
      let (result, final) := (emitBody function header body).run environment
        { builder := { module := state.module, function }
          context
          literals := state.literals
          closureCount := state.closureCount
          matchEnds := state.matchEnds
          problems := state.problems }
      set { state with
        module := final.builder.module
        literals := final.literals
        closureCount := final.closureCount
        matchEnds := final.matchEnds
        problems := final.problems }
      emitFunction.liftExcept result

end Lexical

end FormCompiler
