import FormCompiler.Emit.Resolution

/-!
# Coroutines

With coroutines on, every step calls a routine of its own, and beginning one
marks the function as a coroutine.  With coroutines off, a step that gives a
value gives a constant of the same type, and the others do nothing.
-/

namespace FormCompiler

open Ir

namespace CoroutineStep

def shape : CoroutineStep → String
  | .begin => "(coro-begin %h)"
  | .id => "(coro-id %d)"
  | .size => "(coro-size %d)"
  | .alloc => "(coro-alloc %d %id)"
  | .free => "(coro-free %d %id %h)"
  | .save => "(coro-save %d %h)"
  | .suspend => "(coro-suspend %d %tok)"
  | .finalSuspend => "(coro-final-suspend %d %tok)"
  | .promise => "(coro-promise %d %h)"
  | .resume => "(coro-resume %h)"
  | .destroy => "(coro-destroy %h)"
  | .done => "(coro-done %d %h)"
  | .finish => "(coro-end %h)"

/-- The length of the form of a step, its head included. -/
def length : CoroutineStep → Nat
  | .begin | .id | .size | .resume | .destroy | .finish => 2
  | .free => 4
  | .alloc | .save | .suspend | .finalSuspend | .promise | .done => 3

/-- The type that a step gives. -/
def type : CoroutineStep → StateM TypeTable TypeId
  | .begin | .free | .promise => TypeTable.bytePointer
  | .id | .save => TypeTable.token
  | .size => TypeTable.int 64
  | .suspend | .finalSuspend => TypeTable.int 8
  | .alloc | .done => TypeTable.int 1
  | .resume | .destroy | .finish => TypeTable.void

end CoroutineStep

/-- A name that must have a type. -/
def coroutineOperand (form : Form) (type : TypeId) : Handler Value := do
  let value ← valueOf form
  expectType "coroutine operand" type value.type
  pure value

/-- Calls a routine that is declared from its arguments. -/
def callRoutine (name : String) (result : TypeId) (arguments : List Value)
    (resultName : String) : Handler Value := do
  let id ← declareFunction name result (arguments.map Value.type) false
  let callee ← Builder.functionAddress id
  orFail (.unknownCallee name)
    (← Builder.call callee arguments resultName)

/-- Begins a coroutine and gives its handle. -/
def beginCoroutine (handle : String) : Handler Value := do
  let pointer ← TypeTable.bytePointer
  let token ← TypeTable.token
  let null ← Builder.constantZero pointer
  let align ← Builder.constantI32 0
  let id ← callRoutine "llvm.coro.id" token [align, null, null, null] "coro.id"
  modify fun state => { state with coroutineId := some id }
  let begun ← callRoutine "llvm.coro.begin" pointer [id, null] handle
  Module.addAttributes (← get).builder.function [.presplitCoroutine]
  pure begun

/-- The token that a suspension is given; anything else counts as none. -/
def suspensionToken (form : Form) : Handler Value := do
  let value ← valueOf form
  if value.type = (← TypeTable.token) then pure value
  else Builder.constantNone

/-- Builds the call of a step. -/
def buildStep (step : CoroutineStep) (items : List Form)
    (destination : String) (result : TypeId) : Handler Value := do
  let pointer ← TypeTable.bytePointer
  let token ← TypeTable.token
  let item (index : Nat) : Except ProblemCause Form :=
    itemAt items index step.shape
  match step with
  | .begin => beginCoroutine destination
  | .id => orFail (.unresolved "coro.id") (← get).coroutineId
  | .size => callRoutine "llvm.coro.size.i64" result [] destination
  | .alloc =>
      let id ← coroutineOperand (← item 2) token
      callRoutine "llvm.coro.alloc" result [id] destination
  | .free =>
      let id ← coroutineOperand (← item 2) token
      let handle ← coroutineOperand (← item 3) pointer
      callRoutine "llvm.coro.free" result [id, handle] destination
  | .save =>
      let handle ← coroutineOperand (← item 2) pointer
      callRoutine "llvm.coro.save" result [handle] destination
  | .suspend =>
      let saved ← suspensionToken (← item 2)
      let last ← Builder.constantBool false
      callRoutine "llvm.coro.suspend" result [saved, last] destination
  | .finalSuspend =>
      let saved ← suspensionToken (← item 2)
      let last ← Builder.constantBool true
      callRoutine "llvm.coro.suspend" result [saved, last] destination
  | .promise =>
      let handle ← coroutineOperand (← item 2) pointer
      let align ← Builder.constantI32 0
      let backwards ← Builder.constantBool false
      callRoutine "llvm.coro.promise" result [handle, align, backwards]
        destination
  | .done =>
      let handle ← coroutineOperand (← item 2) pointer
      callRoutine "llvm.coro.done" result [handle] destination
  | .resume =>
      let handle ← coroutineOperand (← item 1) pointer
      callRoutine "llvm.coro.resume" result [handle] ""
  | .destroy =>
      let handle ← coroutineOperand (← item 1) pointer
      callRoutine "llvm.coro.destroy" result [handle] ""
  | .finish =>
      let handle ← coroutineOperand (← item 1) pointer
      let unwinding ← Builder.constantBool false
      let outside ← Builder.constantNone
      callRoutine "llvm.coro.end" (← TypeTable.int 1)
        [handle, unwinding, outside] "coro.end"

/-- Emits a step of a coroutine. -/
def emitCoroutineStep (step : CoroutineStep) (items : List Form) :
    Handler Unit := do
  let shape := step.shape
  expectLength items step.length shape
  if (← read).configuration.coroutines then
    let result ← step.type
    if step.definesResult then
      let destination ← nameAt items 1 shape
      let value ← buildStep step items destination result
      define destination value result
    else
      let _ ← buildStep step items "" result
  else if step.definesResult then
    let destination ← nameAt items 1 shape
    let result ← step.type
    let value ← Builder.constantZero result
    define destination value result

end FormCompiler
