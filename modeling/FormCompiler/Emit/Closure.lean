import FormCompiler.Emit.Invocation

/-!
# Closures

A closure that is a plain function pointer keeps its environment in a global:
a thunk loads it and calls the target with the environment ahead of its own
arguments.  A closure record holds a function pointer and the environment,
and the name of its type tells the target.
-/

namespace FormCompiler

open Ir

def closureStem : String := "__edn.closure."

/-- The one value that a closure captures. -/
def capturedValue (items : List Form) (index : Nat) (shape : String) :
    Handler Value := do
  match ← vectorAt items index shape with
  | [form] => valueOf form
  | _ => throw (.malformed shape)

def closureTarget (name : String) : Handler FunctionId := do
  orFail (.unknownCallee name) ((← module).function? name)

/-- Whether a target takes the environment and then the parameters of a
closure, and gives the same result. -/
def canBack (closure : TypeTable.Signature)
    (target : Option TypeTable.Signature) (captured : TypeId)
    (shape : String) : Except ProblemCause Bool :=
  match target with
  | some target =>
      if target.result = closure.result ∧
          target.parameters.head? = some captured then
        (itemsFrom target.parameters 1 shape).map (· == closure.parameters)
      else .ok false
  | none => .ok false

theorem canBack_eq_true {closure : TypeTable.Signature}
    {target : Option TypeTable.Signature} {captured : TypeId} {shape : String}
    (read : canBack closure target captured shape = .ok true) :
    ∃ backing, target = some backing ∧ backing.result = closure.result ∧
      backing.parameters = captured :: closure.parameters := by
  unfold canBack at read
  split at read
  · next backing =>
      split at read
      · next agrees =>
          obtain ⟨parameters, found⟩ := List.head?_eq_some_iff.mp agrees.2
          rw [found] at read
          have same : parameters = closure.parameters :=
            eq_of_beq (Except.ok.inj read)
          exact ⟨backing, rfl, agrees.1, by rw [found, same]⟩
      · cases read
  · cases read

/-- The global that keeps the environment of a closure. -/
def addEnvironment (number : Nat) (type : TypeId) : Emission GlobalId := do
  let initializer : Initializer :=
    if (← types).isPointer type then .null else .zero
  Module.addGlobal s!"__edn.closure.env.{number}" type (some initializer)
    false .unlisted

/-- Names the parameters of a thunk. -/
def nameParameters (function : FunctionId) (count : Nat) : Emission Unit :=
  (List.range count).forM fun index =>
    (Module.setParameterName function index s!"a{index}" :
      StateM Module Unit)

/-- Calls the target of a closure with the environment and the parameters of
its thunk. -/
def callTarget (thunk : FunctionId) (environment : GlobalId)
    (target : FunctionId) (signature : TypeTable.Signature) :
    Emission (Option Value) := do
  let slot ← Builder.globalAddress environment
  let captured ← Builder.load slot "env"
  let parameters := ((← module).function thunk).parameters.take
    signature.parameters.length
  let callee ← Builder.functionAddress target
  Builder.call callee (captured.toList ++ parameters) "retv"

/-- Returns what a call gave. -/
def returnResult (type : TypeId) (result : Option Value) :
    Emission Unit := do
  match result with
  | some value =>
      if (← types).isVoid type then Builder.retVoid else Builder.ret value
  | none => Builder.retVoid

/-- The body of a thunk. -/
def emitThunk (thunk : FunctionId) (environment : GlobalId)
    (target : FunctionId) (signature : TypeTable.Signature) :
    Emission Unit := do
  Builder.switchFunction thunk
  let entry ← Builder.appendBlock "entry"
  Builder.positionAtEnd entry
  let result ← callTarget thunk environment target signature
  returnResult signature.result result

/-- Adds the thunk of a closure. -/
def addThunk (name : String) (type : TypeId) (environment : GlobalId)
    (target : FunctionId) (signature : TypeTable.Signature) :
    Emission FunctionId := do
  let thunk ← Module.addFunction name type .unlisted
  nameParameters thunk signature.parameters.length
  elsewhere (emitThunk thunk environment target signature)
  pure thunk

/-- `(closure %d FnPtrT callee [%env])` -/
def emitClosure (items : List Form) : Handler Unit := do
  let shape := "(closure %d FnPtrT callee [%env])"
  expectLength items 5 shape
  let destination ← nameAt items 1 shape
  let pointerType ← typeOf (← itemAt items 2 shape)
  let name ← itemSymbolAt items 3 shape
  let captured ← capturedValue items 4 shape
  let table ← types
  let closureType := (table.pointee? pointerType).bind fun type =>
    (table.signature? type).map fun signature => (type, signature)
  match closureType with
  | none => rejectType "closure of type" pointerType
  | some (type, signature) =>
      let target ← closureTarget name
      let backing := table.signature? ((← module).function target).type
      let backs ← canBack signature backing captured.type shape
      if !backs then
        let closure ← spelling pointerType
        let environment ← spelling captured.type
        throw (.typeMismatch
          (s!"`{name}` cannot back a closure of type {closure} " ++
            s!"over {environment}"))
      let number := (← get).closureCount
      modify fun state => { state with closureCount := number + 1 }
      let environment ← addEnvironment number captured.type
      Builder.store captured (← Builder.globalAddress environment)
      let thunk ← addThunk s!"__edn.closure.thunk.{name}.{number}" type
        environment target signature
      let value ← Builder.functionAddress thunk
      define destination value pointerType

/-- The type of closure records over a target, made with its first use. -/
def closureRecord (name : String) (captured : TypeId) : Handler TypeId := do
  let pointer ← TypeTable.bytePointer
  let record ← TypeTable.named (structTypeName (closureStem ++ name))
  match (← types).fields? record with
  | none =>
      TypeTable.setBody record [pointer, captured]
      pure record
  | some [_, existing] =>
      if existing = captured then pure record else reject
  | some _ => reject
where
  reject : Handler TypeId :=
    throw (.typeMismatch
      s!"closures over `{name}` capture different environment types")

/-- Stores a value into a field. -/
def storeField (record : Value) (index : Nat) (name : String)
    (value : Value) : Emission Unit := do
  match ← Builder.fieldPointer record index name with
  | some address => Builder.store value address
  | none => pure ()

/-- `(make-closure %d callee [%env])` -/
def emitMakeClosure (items : List Form) : Handler Unit := do
  let shape := "(make-closure %d callee [%env])"
  expectLength items 4 shape
  let destination ← nameAt items 1 shape
  let name ← itemSymbolAt items 2 shape
  let captured ← capturedValue items 3 shape
  let target ← closureTarget name
  let record ← closureRecord name captured.type
  let pointer ← Builder.alloca record destination
  storeField pointer 1 s!"{destination}.env.addr" captured
  let bytes ← TypeTable.bytePointer
  let callee ← Builder.functionAddress target
  let erased ← Builder.bitcast callee bytes s!"{destination}.fn.raw"
  storeField pointer 0 s!"{destination}.fn.addr" erased
  define destination pointer pointer.type

/-- The target that the type of a pointer to a closure record names. -/
def recordTarget? (table : TypeTable) (type : TypeId) : Option String :=
  (table.pointee? type).bind fun record =>
    match table.kind record with
    | .named name => dropBeginning? (structTypeName closureStem) name
    | _ => none

/-- Loads a field of a record. -/
def loadField (record : Value) (index : Nat) (name : String) :
    Emission (Option Value) := do
  match ← Builder.fieldPointer record index s!"{name}.addr" with
  | some address => Builder.load address name
  | none => pure none

/-- `(call-closure %d RetT %clos args..)` -/
def emitCallClosure (items : List Form) : Handler Unit := do
  let shape := "(call-closure %d RetT %clos args..)"
  if items.length < 4 then throw (.malformed shape)
  let destination ← nameAt items 1 shape
  let result ← typeOf (← itemAt items 2 shape)
  let record ← valueOf (← itemAt items 3 shape)
  match recordTarget? (← types) record.type with
  | none => rejectType "call-closure on" record.type
  | some name =>
      let target ← closureTarget name
      let type := ((← module).function target).type
      let signature ← orFail (.unknownCallee name) ((← types).signature? type)
      expectType s!"return of `{name}`" result signature.result
      let forms ← itemsFrom items 4 shape
      let arity := signature.parameters.length
      let count := forms.length
      if arity ≠ count + 1 then
        let rest := arity - 1
        throw (.typeMismatch
          (s!"`{name}` takes {rest} arguments after its environment, " ++
            s!"found {count}"))
      let parameters ← itemsFrom signature.parameters 1 shape
      let arguments ← argumentValues parameters forms
      let erased ← orFail (.unknownLayout name)
        (← loadField record 0 s!"{destination}.fn")
      let captured ← orFail (.unknownLayout name)
        (← loadField record 1 s!"{destination}.env")
      let callee ← Builder.bitcast erased (← TypeTable.pointer type)
        s!"{destination}.fntyped"
      let value ← orFail (.unknownCallee name)
        (← Builder.call callee (captured :: arguments) destination)
      defineResult destination value result

end FormCompiler
