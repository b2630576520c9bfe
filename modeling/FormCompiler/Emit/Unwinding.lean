import FormCompiler.Emit.Emission

/-!
# Unwinding

Under a personality, calls and panics name the block that an exception
continues in: the handler of the innermost `try`, or else a block that passes
the exception on to the caller.  With landing pads each such block is made
afresh, with funclets one block serves the whole function.

Without a personality, or where panics do not unwind, a panic traps, and a
`try` is its body followed by its handler.
-/

namespace FormCompiler

open Ir

/-- Declares the routine of a personality. -/
def declarePersonality (personality : Personality) :
    StateM Module FunctionId := do
  let word ← Module.withTypes (TypeTable.int 32)
  let type ← Module.withTypes (TypeTable.function word [] true)
  Module.addFunction personality.routine type .external

/-- Runs an emission elsewhere and comes back. -/
def elsewhere {Result : Type} (emission : Emission Result) :
    Emission Result := do
  let point ← Builder.save
  let result ← emission
  Builder.restore point
  pure result

/-- A block that passes an exception on by a landing pad. -/
def resumingPad : Emission BlockId := do
  let id ← freshId
  let block ← Builder.appendBlock s!"panic.lpad.{id}"
  elsewhere do
    Builder.positionAtEnd block
    let pad ← Builder.landingPad true [] "lpad"
    Builder.resume pad
  pure block

/-- A block that passes an exception on by a funclet. -/
def returningPad : Emission BlockId := do
  let block ← Builder.appendBlock "seh.cleanup"
  elsewhere do
    Builder.positionAtEnd block
    let outside ← Builder.constantNone
    let pad ← Builder.cleanupPad outside [] "cp"
    Builder.cleanupReturn pad none
  pure block

/-- The one block of a function that passes exceptions on by a funclet. -/
def cleanupFunclet : Emission BlockId := do
  match (← get).unwindTargets.cleanup with
  | some block => pure block
  | none =>
      let block ← returningPad
      modify fun state =>
        { state with
          unwindTargets :=
            { state.unwindTargets with cleanup := some block } }
      pure block

/-- The block that an exception continues in. -/
def unwindTarget (personality : Personality) : Emission BlockId := do
  let targets := (← get).unwindTargets
  match personality with
  | .itanium =>
      match targets.landingPads with
      | handler :: _ => pure handler
      | [] => resumingPad
  | .seh =>
      match targets.dispatches with
      | handler :: _ => pure handler
      | [] => cleanupFunclet

/-- Runs the emission of a body whose calls unwind to a handler. -/
def protectedBy (personality : Personality) (handler : BlockId)
    (body : Emission Unit) : Emission Unit := do
  let change (update : List BlockId → List BlockId) : Emission Unit :=
    modify fun state =>
      let targets := state.unwindTargets
      { state with
        unwindTargets :=
          match personality with
          | .itanium =>
              { targets with landingPads := update targets.landingPads }
          | .seh =>
              { targets with dispatches := update targets.dispatches } }
  change (handler :: ·)
  body
  change List.tail

/-! ## Panics -/

/-- Declares a routine that does not return. -/
def declareNoReturn (name : String) (parameters : List TypeId) :
    Emission FunctionId := do
  let void ← TypeTable.void
  let id ← declareFunction name void parameters false
  Module.addAttributes id [.noReturn]
  pure id

/-- The code that panics raise. -/
def panicCode : Int := 0xE0ED0001

/-- The routine that throws, and what it is called with. -/
def throwingCall (personality : Personality) :
    Emission (FunctionId × List Value) := do
  let pointer ← TypeTable.bytePointer
  match personality with
  | .itanium =>
      let routine ← declareNoReturn "__cxa_throw" [pointer, pointer, pointer]
      let null ← Builder.constantZero pointer
      pure (routine, [null, null, null])
  | .seh =>
      let word ← TypeTable.int 32
      let routine ←
        declareNoReturn "RaiseException" [word, word, word, pointer]
      let code ← Builder.constantInt word panicCode
      let flags ← Builder.constantInt word 1
      let count ← Builder.constantInt word 0
      let null ← Builder.constantZero pointer
      pure (routine, [code, flags, count, null])

/-- Stops the program. -/
def emitTrap : Emission Unit := do
  let trap ← declareNoReturn "llvm.trap" []
  let callee ← Builder.functionAddress trap
  let _ ← Builder.call callee [] ""
  Builder.unreachable

/-- Raises an exception. -/
def emitThrow (personality : Personality) : Emission Unit := do
  let (routine, arguments) ← throwingCall personality
  let unwind ← unwindTarget personality
  let id ← freshId
  let next ← Builder.appendBlock s!"panic.cont.{id}"
  let callee ← Builder.functionAddress routine
  let _ ← Builder.invoke callee arguments next unwind ""
  Builder.positionAtEnd next
  Builder.unreachable

/-- `(panic)` or `(panic "message")`; the message is not emitted. -/
def emitPanic : Handler Unit := do
  match ← personality? with
  | some personality =>
      if (← read).configuration.panicUnwinds then emitThrow personality
      else emitTrap
  | none => emitTrap

/-! ## Handlers -/

/-- The flags of a funclet that catches everything. -/
def catchAllFlags : Int := 64

/-- A body and its handler in sequence. -/
def emitUnprotected (emit : FormEmitter) (id : Nat) (bodyBlock : BlockId)
    (body handler : List Form) : Emission Unit := do
  let endBlock ← Builder.appendBlock s!"try.end.{id}"
  Builder.branch bodyBlock
  Builder.positionAtEnd bodyBlock
  emitSequence emit body
  emitSequence emit handler
  fallThrough endBlock
  Builder.positionAtEnd endBlock

/-- A body whose exceptions land in a pad that goes on to the handler. -/
def emitWithLandingPad (emit : FormEmitter) (id : Nat) (bodyBlock : BlockId)
    (body handler : List Form) : Emission Unit := do
  let padBlock ← Builder.appendBlock s!"try.lpad.{id}"
  let handlerBlock ← Builder.appendBlock s!"try.handler.{id}"
  let endBlock ← Builder.appendBlock s!"try.end.{id}"
  Builder.branch bodyBlock
  Builder.positionAtEnd padBlock
  let catchAll ← Builder.constantZero (← TypeTable.bytePointer)
  let _ ← Builder.landingPad false [catchAll] "lpad"
  Builder.branch handlerBlock
  protectedBy .itanium padBlock (emitArm emit bodyBlock body endBlock)
  emitArm emit handlerBlock handler endBlock
  Builder.positionAtEnd endBlock

/-- A body whose exceptions are dispatched to a funclet that returns to the
handler. -/
def emitWithFunclet (emit : FormEmitter) (id : Nat) (bodyBlock : BlockId)
    (body handler : List Form) : Emission Unit := do
  let dispatchBlock ← Builder.appendBlock s!"try.dispatch.{id}"
  let padBlock ← Builder.appendBlock s!"try.pad.{id}"
  let handlerBlock ← Builder.appendBlock s!"try.handler.{id}"
  let endBlock ← Builder.appendBlock s!"try.end.{id}"
  Builder.branch bodyBlock
  Builder.positionAtEnd dispatchBlock
  let outside ← Builder.constantNone
  let dispatch ← Builder.catchSwitch outside [padBlock] none "cs"
  Builder.positionAtEnd padBlock
  let pointer ← TypeTable.bytePointer
  let word ← TypeTable.int 32
  let null ← Builder.constantZero pointer
  let flags ← Builder.constantInt word catchAllFlags
  let pad ← Builder.catchPad dispatch [null, flags, null] "cpad"
  Builder.catchReturn pad handlerBlock
  protectedBy .seh dispatchBlock (emitArm emit bodyBlock body endBlock)
  emitArm emit handlerBlock handler endBlock
  Builder.positionAtEnd endBlock

/-- `(try :body [..] :catch [..])` -/
def emitTry (emit : FormEmitter) (items : List Form) : Handler Unit := do
  let shape := "(try :body [..] :catch [..])"
  let arguments ← KeywordArguments.follow items 1 shape
  let body ← orFail (.malformed shape) (arguments.vector? "body")
  let handler := (arguments.vector? "catch").getD []
  let id ← freshId
  let bodyBlock ← Builder.appendBlock s!"try.body.{id}"
  match ← personality? with
  | none => emitUnprotected emit id bodyBlock body handler
  | some .itanium => emitWithLandingPad emit id bodyBlock body handler
  | some .seh => emitWithFunclet emit id bodyBlock body handler

end FormCompiler
