import FormCompiler.Emit.Storage
import FormCompiler.Emit.Unwinding

/-!
# Calls, function pointers, returns and variadic arguments
-/

namespace FormCompiler

open Ir

/-! ## Arguments -/

/-- An operand without an expected type: integers and booleans are words,
floats are doubles. -/
def looseOperand (form : Form) : Handler Value := do
  match form with
  | .atom _ (.int _) | .atom _ (.bool _) =>
      operand form (← TypeTable.int 32)
  | .atom _ (.float _) => operand form (← TypeTable.double)
  | _ => valueOf form

/-- Arguments for parameters; those beyond the last parameter are loose. -/
def argumentValues : List TypeId → List Form → Handler (List Value)
  | _, [] => pure []
  | [], form :: forms => do
      let value ← looseOperand form
      pure (value :: (← argumentValues [] forms))
  | type :: types, form :: forms => do
      let value ← typedOperand form type "argument"
      pure (value :: (← argumentValues types forms))

/-- The arguments of a call through a function type. -/
def callArguments (callee : String) (type : TypeId) (forms : List Form) :
    Handler (List Value) := do
  let signature ← orFail (.unknownCallee callee) ((← types).signature? type)
  let arity := signature.parameters.length
  let count := forms.length
  if count < arity ∨ (arity < count ∧ !signature.variadic) then
    throw (.typeMismatch s!"`{callee}` takes {arity} arguments, found {count}")
  argumentValues signature.parameters forms

/-! ## Calls -/

/-- Calls, or under a personality invokes and goes on in a new block. -/
def buildInvocation (callee : Value) (arguments : List Value)
    (name : String) : Emission (Option Value) := do
  if (Builder.calleeType? (← types) callee).isNone then pure none
  else
    match ← personality? with
    | none => Builder.call callee arguments name
    | some personality =>
        let unwind ← unwindTarget personality
        let id ← freshId
        let next ← Builder.appendBlock s!"invoke.cont.{id}"
        let value ← Builder.invoke callee arguments next unwind name
        Builder.positionAtEnd next
        pure value

/-- Gives a name the result of a call, unless there is none. -/
def defineResult (destination : String) (value : Value) (type : TypeId) :
    Handler Unit := do
  if (← types).isVoid type then pure () else define destination value type

/-- The function that a call names, with the arguments.  A function that is
not there is declared from the arguments. -/
def calledFunction (name : String) (result : TypeId) (forms : List Form) :
    Handler (FunctionId × List Value) := do
  match (← module).function? name with
  | some id =>
      let arguments ← callArguments name ((← module).function id).type forms
      pure (id, arguments)
  | none =>
      let arguments ← forms.mapM looseOperand
      let id ←
        declareFunction name result (arguments.map Value.type) false
      pure (id, arguments)

/-- `(call %d RetT callee args..)` -/
def emitCall (items : List Form) : Handler Unit := do
  let shape := "(call %d RetT callee args..)"
  if items.length < 4 then throw (.malformed shape)
  let destination ← nameAt items 1 shape
  let result ← typeOf (← itemAt items 2 shape)
  let name ← itemSymbolAt items 3 shape
  let (id, arguments) ← calledFunction name result
    (← itemsFrom items 4 shape)
  let declared := resultType (← types) ((← module).function id).type
  expectType s!"return of `{name}`" result declared
  let callee ← Builder.functionAddress id
  let value ← orFail (.unknownCallee name)
    (← buildInvocation callee arguments destination)
  defineResult destination value result

/-- `(call-indirect %d RetT %fptr args..)` -/
def emitCallIndirect (items : List Form) : Handler Unit := do
  let shape := "(call-indirect %d RetT %fptr args..)"
  if items.length < 4 then throw (.malformed shape)
  let destination ← nameAt items 1 shape
  let result ← typeOf (← itemAt items 2 shape)
  let name ← nameAt items 3 shape
  let callee ← valueOf (← itemAt items 3 shape)
  let (type, signature) ← orFail (.unknownCallee name)
    (Builder.calleeType? (← types) callee)
  let arguments ← callArguments name type
    (← itemsFrom items 4 shape)
  expectType s!"return of `{name}`" result signature.result
  let value ← orFail (.unknownCallee name)
    (← Builder.call callee arguments destination)
  defineResult destination value result

/-- The function of a name, declared from a pointer type where it is not
there yet. -/
def pointedFunction (name : String) (type : TypeId) : Handler FunctionId := do
  match (← module).function? name with
  | some id => pure id
  | none =>
      let table ← types
      match (table.pointee? type).bind table.signature? with
      | some signature =>
          declareFunction name signature.result signature.parameters
            signature.variadic
      | none => rejectType "fnptr of type" type

/-- `(fnptr %d PtrT fname)` -/
def emitFunctionPointer (items : List Form) : Handler Unit := do
  let shape := "(fnptr %d PtrT fname)"
  expectLength items 4 shape
  let destination ← nameAt items 1 shape
  let type ← typeOf (← itemAt items 2 shape)
  let name ← itemSymbolAt items 3 shape
  let id ← pointedFunction name type
  let value ← Builder.functionAddress id
  expectType s!"fnptr `{name}`" type value.type
  define destination value type

/-! ## Returns -/

/-- Returns nothing, or zero of the result type. -/
def buildDefaultReturn (type : TypeId) : Emission Unit := do
  if (← types).isVoid type then Builder.retVoid
  else Builder.ret (← Builder.constantZero type)

/-- `(ret T %v)`, `(ret void)` or `(ret)` -/
def emitReturn (items : List Form) : Handler Unit := do
  let expected ← returnType
  match items with
  | [_] | [_, _] => buildDefaultReturn expected
  | [_, typeForm, valueForm] =>
      let type ← typeOf typeForm
      expectType "ret" expected type
      let value ← typedOperand valueForm type "return value"
      Builder.ret value
  | _ => throw (.malformed "(ret T %v)")

/-! ## Variadic arguments -/

/-- Calls a routine on a list of variadic arguments. -/
def callOnList (routine name : String) (list : Value) : Emission Unit := do
  let void ← TypeTable.void
  let pointer ← TypeTable.bytePointer
  let id ← declareFunction routine void [pointer] false
  let raw ← Builder.bitcast list pointer s!"{name}.raw"
  let callee ← Builder.functionAddress id
  let _ ← Builder.call callee [raw] ""

/-- A list of variadic arguments that was started. -/
def argumentList (form : Form) (shape : String) : Handler Value := do
  let list ← valueOf form
  let pointer ← TypeTable.bytePointer
  if (← pointeeOf? list) = some pointer then pure list
  else throw (.malformed shape)

/-- `(va-start %ap)` -/
def emitVaStart (items : List Form) : Handler Unit := do
  let shape := "(va-start %ap)"
  expectLength items 2 shape
  let name ← nameAt items 1 shape
  let signature := (← types).signature? (← functionType)
  if !(signature.any fun signature => signature.variadic) then
    throw (.typeMismatch "va-start in a function without varargs")
  let list ← Builder.entryAlloca (← TypeTable.bytePointer) name
  callOnList "llvm.va_start" name list
  modifyContext (·.bind name list list.type)

/-- `(va-arg %d T %ap)` -/
def emitVaArg (items : List Form) : Handler Unit := do
  let shape := "(va-arg %d T %ap)"
  expectLength items 4 shape
  let destination ← nameAt items 1 shape
  let type ← typeOf (← itemAt items 2 shape)
  let list ← argumentList (← itemAt items 3 shape) shape
  let value ← Builder.vaArg list type destination
  define destination value type

/-- `(va-end %ap)` -/
def emitVaEnd (items : List Form) : Handler Unit := do
  let shape := "(va-end %ap)"
  expectLength items 2 shape
  let name ← nameAt items 1 shape
  let list ← argumentList (← itemAt items 1 shape) shape
  callOnList "llvm.va_end" name list

end FormCompiler
