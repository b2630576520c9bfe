import FormCompiler.Ir.Module

/-!
# Building instructions

A builder works on one function of a module and inserts instructions at its
cursor: at the end of a block, or ahead of the last instruction of a block
that is terminated.  Building without a current block changes nothing but a
count of such attempts and gives an undefined value.

Slots and phis are placed by position instead: a slot goes after the slots
that open the first block of the function, a phi after the phis that open its
block.  Neither moves the cursor.
-/

namespace FormCompiler.Ir

structure InsertPoint where
  function : FunctionId
  block : Option BlockId
  beforeTerminator : Bool
deriving DecidableEq, Repr

structure Builder where
  module : Module
  function : FunctionId
  block : Option BlockId := none
  beforeTerminator : Bool := false
  /-- Instructions that were asked for without a current block. -/
  detached : Nat := 0

abbrev Build := StateM Builder

namespace Builder

/-- Runs an operation on the module. -/
def onModule {Result : Type} (operation : StateM Module Result) :
    Build Result := fun builder =>
  let (result, module) := operation builder.module
  (result, { builder with module })

/-- Runs an operation on the type table. -/
def onTypes {Result : Type} (operation : StateM TypeTable Result) :
    Build Result :=
  onModule (Module.withTypes operation)

def types : Build TypeTable := do pure (← get).module.types

/-! ## Position -/

def switchFunction (function : FunctionId) : Build Unit :=
  modify fun builder =>
    { builder with function, block := none, beforeTerminator := false }

def positionAtEnd (block : BlockId) : Build Unit :=
  modify fun builder =>
    { builder with block := some block, beforeTerminator := false }

def isTerminatedBlock (builder : Builder) (block : BlockId) : Bool :=
  match builder.module.block? block with
  | some block => block.isTerminated
  | none => false

/-- Ahead of the terminator of a block, or at its end if it has none. -/
def positionBeforeTerminator (block : BlockId) : Build Unit :=
  modify fun builder =>
    { builder with
      block := some block
      beforeTerminator := builder.isTerminatedBlock block }

def save : Build InsertPoint := do
  let builder ← get
  pure ⟨builder.function, builder.block, builder.beforeTerminator⟩

def restore (point : InsertPoint) : Build Unit := do
  modify fun builder => { builder with function := point.function }
  match point.block with
  | some block =>
      if point.beforeTerminator then positionBeforeTerminator block
      else positionAtEnd block
  | none =>
      modify fun builder =>
        { builder with block := none, beforeTerminator := false }

/-! ## Blocks -/

def appendBlock (name : String) : Build BlockId := do
  onModule (Module.appendBlock (← get).function name)

/-- Whether the current block is terminated; no block counts as one. -/
def isTerminated (builder : Builder) : Bool :=
  match builder.block with
  | some block => builder.isTerminatedBlock block
  | none => true

def findBlock? (builder : Builder) (name : String) : Option BlockId :=
  builder.module.findBlock? builder.function name

def currentFunction (builder : Builder) : Function :=
  builder.module.function builder.function

/-! ## Constants -/

def push (content : Content) (type : TypeId) : Build Value :=
  onModule (Module.pushValue content type)

def pushOperand (operand : Operand) (type : TypeId) : Build Value :=
  push (.firstClass operand) type

/-- A constant of any type: nothing for `void`, a token where the type is not
first-class. -/
def constant (make : IrType → Operand) (type : TypeId) : Build Value := do
  let lowered ← onModule (Module.lower type)
  if lowered.isFirstClass then push (.firstClass (make lowered)) type
  else
    match lowered with
    | .void => push .nothing type
    | _ => push (.token (make lowered)) type

def constantUndef (type : TypeId) : Build Value := constant .undef type

def constantZero (type : TypeId) : Build Value := constant .zero type

/-- An integer constant; zero where the type is no integer type. -/
def constantInt (type : TypeId) (value : Int) : Build Value := do
  match ← onModule (Module.lower type) with
  | .int bits => pushOperand (.ofInt bits value) type
  | _ => constantZero type

/-- A float constant; zero where the type is no float type. -/
def constantFloat (type : TypeId) (value : Double) : Build Value := do
  let lowered ← onModule (Module.lower type)
  if lowered.isFloat then pushOperand (.ofDouble lowered value) type
  else constantZero type

def constantI32 (value : Int) : Build Value := do
  constantInt (← onTypes (TypeTable.int 32)) value

def constantBool (value : Bool) : Build Value := do
  constantInt (← onTypes (TypeTable.int 1)) (if value then 1 else 0)

/-- The token that no pad encloses. -/
def constantNone : Build Value := do
  constantZero (← onTypes TypeTable.token)

def globalAddress (id : GlobalId) : Build Value := do
  let pointee := ((← get).module.global id).type
  let type ← onTypes (TypeTable.pointer pointee)
  pushOperand (.global id) type

def functionAddress (id : FunctionId) : Build Value := do
  let signature := ((← get).module.function id).type
  let type ← onTypes (TypeTable.pointer signature)
  pushOperand (.function id) type

/-! ## Insertion -/

/-- The current block, unless there is none: then the attempt is counted. -/
def attached : Build (Option BlockId) := do
  match (← get).block with
  | some block => pure (some block)
  | none =>
      modify fun builder => { builder with detached := builder.detached + 1 }
      pure none

/-- Inserts at the cursor in its block. -/
def insert (block : BlockId) (operation : Operation) (name : String) :
    Build Operand := do
  let beforeTerminator := (← get).beforeTerminator
  let register ← onModule (Module.insertInstruction block
    (fun block => block.instructions.length - if beforeTerminator then 1 else 0)
    operation name)
  pure (.register register operation.resultType)

/-- Inserts an instruction whose result is first-class. -/
def insertValue (block : BlockId) (operation : Operation) (name : String)
    (type : TypeId) : Build Value := do
  pushOperand (← insert block operation (nameBeforeNul name)) type

/-- Inserts an instruction without a result. -/
def insertEffect (operation : Operation) : Build Unit := do
  match ← attached with
  | some block => let _ ← insert block operation ""
  | none => pure ()

/-! ## Arithmetic -/

/-- The result has the type of the left operand. -/
def binary (operator : BinaryOperator) (left right : Value) (name : String) :
    Build Value := do
  match ← attached with
  | none => constantUndef left.type
  | some block =>
      insertValue block (.binary operator left.operand right.operand) name
        left.type

def compareInt (predicate : IntPredicate) (left right : Value)
    (name : String) : Build Value := do
  let type ← onTypes (TypeTable.int 1)
  match ← attached with
  | none => constantUndef type
  | some block =>
      let left := left.operand
      let right := right.operand
      let name :=
        if left.type.isInt && right.type.isInt then nameBeforeNul name
        else nameWithoutNul name
      pushOperand (← insert block (.compareInt predicate left right) name) type

def compareFloat (predicate : FloatPredicate) (left right : Value)
    (name : String) : Build Value := do
  let type ← onTypes (TypeTable.int 1)
  match ← attached with
  | none => constantUndef type
  | some block =>
      let left := left.operand
      let right := right.operand
      if left.type.isFloat && right.type.isFloat then
        insertValue block (.compareFloat predicate left right) name type
      else constantUndef type

/-- Converts a value.  A conversion to the type that an operand has already
builds nothing. -/
def cast (operator : CastOperator) (value : Value) (target : TypeId)
    (name : String) : Build Value := do
  if operator = .bitcast ∧ value.type = target then pure value
  else
    let operand := value.operand
    match ← onModule (Module.lowerFirstClass? target) with
    | none => constantUndef target
    | some lowered =>
        if operator = .bitcast ∧ operand.type == lowered then
          pushOperand operand target
        else
          match ← attached with
          | none => constantUndef target
          | some block =>
              if operand.type == lowered then pushOperand operand target
              else
                insertValue block (.cast operator operand lowered) name target

def bitcast (value : Value) (target : TypeId) (name : String) : Build Value :=
  cast .bitcast value target name

/-! ## Memory -/

/-- A stack slot at the cursor. -/
def alloca (type : TypeId) (name : String) : Build Value := do
  let pointer ← onTypes (TypeTable.pointer type)
  match ← attached with
  | none => constantUndef pointer
  | some block =>
      match ← onModule (Module.lowerFirstClass? type) with
      | none => constantUndef pointer
      | some lowered => insertValue block (.alloca lowered) name pointer

/-- A stack slot after the slots that open the first block. -/
def entryAlloca (type : TypeId) (name : String) : Build Value := do
  let builder ← get
  if builder.currentFunction.blocks.isEmpty then alloca type name
  else
    let pointer ← onTypes (TypeTable.pointer type)
    match ← onModule (Module.lowerFirstClass? type) with
    | none => constantUndef pointer
    | some lowered =>
        let register ← onModule (Module.insertInstruction
          ⟨builder.function, 0⟩ (·.leading Operation.isAlloca)
          (.alloca lowered) (nameBeforeNul name))
        pushOperand (.register register .pointer) pointer

/-- Loads through a pointer. -/
def load (pointer : Value) (name : String) : Build (Option Value) := do
  match (← types).pointee? pointer.type with
  | none => pure none
  | some type =>
      match ← attached with
      | none => some <$> constantUndef type
      | some block =>
          if !pointer.operand.type.isPointer then pure none
          else
            match ← onModule (Module.lowerFirstClass? type) with
            | none => some <$> constantUndef type
            | some lowered =>
                some <$> insertValue block (.load lowered pointer.operand)
                  name type

/-- Stores through a pointer; nothing is stored through another value. -/
def store (value pointer : Value) : Build Unit := do
  match ← attached with
  | none => pure ()
  | some block =>
      if pointer.operand.type.isPointer then
        let _ ← insert block (.store value.operand pointer.operand) ""

/-- The type that indices reach below the first one. -/
def walkIndices (table : TypeTable) :
    TypeId → List Value → Option TypeId
  | type, [] => some type
  | type, index :: indices =>
      let step := index.constantInt?.getD 0
      if step < 0 then none
      else
        (table.element? type step.toNat).bind fun element =>
          walkIndices table element indices

/-- The address of an element. -/
def elementPointer (base : Value) (indices : List Value) (name : String) :
    Build (Option Value) := do
  let table ← types
  let reached := (table.pointee? base.type).bind fun pointee =>
    (walkIndices table pointee (indices.drop 1)).map fun element =>
      (pointee, element)
  match reached with
  | none => pure none
  | some (pointee, element) =>
      let type ← onTypes (TypeTable.pointer element)
      match ← attached with
      | none => some <$> constantUndef type
      | some block =>
          if !base.operand.type.isPointer then pure none
          else
            match ← onModule (Module.lowerFirstClass? pointee) with
            | none => pure none
            | some lowered =>
                let operands := indices.map Value.operand
                if operands.all fun operand => operand.type.isInt then
                  some <$> insertValue block
                    (.elementPointer lowered base.operand operands) name type
                else pure none

/-- The address of a field of a struct. -/
def fieldPointer (base : Value) (field : Nat) (name : String) :
    Build (Option Value) := do
  let zero ← constantI32 0
  if field < 0x80000000 then
    let index ← constantI32 field
    elementPointer base [zero, index] name
  else pure none

/-- The address a number of bytes further on. -/
def bytePointer (base : Value) (offset : Nat) (name : String) :
    Build (Option Value) := do
  let raw ← bitcast base (← onTypes TypeTable.bytePointer) ""
  let type ← onTypes (TypeTable.int 64)
  if offset < 0x8000000000000000 then
    let index ← constantInt type offset
    elementPointer raw [index] name
  else pure none

/-! ## Calls -/

/-- The function type that a callee points to. -/
def calleeType? (table : TypeTable) (callee : Value) :
    Option (TypeId × TypeTable.Signature) :=
  (table.pointee? callee.type).bind fun type =>
    (table.signature? type).map fun signature => (type, signature)

/-- Whether tokens, or values that are nothing, take part in a call. -/
def involvesTokens (table : TypeTable) (signature : TypeTable.Signature)
    (arguments : List Value) : Bool :=
  table.isToken signature.result ||
    signature.parameters.any table.isToken ||
    arguments.any fun argument => !argument.isFirstClass

/-- What the result of a call is, by its lowered type. -/
def resultContent (type : IrType) (operand : Operand) : Content :=
  if type.isFirstClass then .firstClass operand
  else
    match type with
    | .void => .nothing
    | _ => .token operand

/-- Builds a call, given how its parts make an operation. -/
def buildCall (make : IrType → List IrType → Bool → Operand → List Operand →
      Operation) (callee : Value) (arguments : List Value) (name : String) :
    Build (Option Value) := do
  let table ← types
  match calleeType? table callee with
  | none => pure none
  | some (type, signature) =>
      let name := if table.isVoid signature.result then "" else name
      match ← attached with
      | none => some <$> constantUndef signature.result
      | some block =>
          match ← onModule (Module.lower type) with
          | .function result parameters variadic =>
              if involvesTokens table signature arguments then
                let operand ← insert block
                  (make result parameters variadic callee.operandOrToken
                    (arguments.map Value.operandOrToken))
                  (nameWithoutNul name)
                let lowered ← onModule (Module.lower signature.result)
                some <$> push (resultContent lowered operand) signature.result
              else if callee.operand.type.isPointer then
                let operand ← insert block
                  (make result parameters variadic callee.operand
                    (arguments.map Value.operand))
                  (nameBeforeNul name)
                some <$> push (resultContent result operand) signature.result
              else pure none
          | _ => pure none

/-- Calls through a function pointer. -/
def call (callee : Value) (arguments : List Value) (name : String) :
    Build (Option Value) :=
  buildCall .call callee arguments name

/-- A call that goes on in one of two blocks. -/
def invoke (callee : Value) (arguments : List Value)
    (normal unwind : BlockId) (name : String) : Build (Option Value) :=
  buildCall
    (fun result parameters variadic callee arguments =>
      .invoke result parameters variadic callee arguments normal unwind)
    callee arguments name

/-- The next variadic argument. -/
def vaArg (list : Value) (type : TypeId) (name : String) : Build Value := do
  match ← attached with
  | none => constantUndef type
  | some block =>
      match ← onModule (Module.lowerFirstClass? type) with
      | some lowered =>
          if list.operand.type.isPointer then
            insertValue block (.vaArg list.operand lowered) name type
          else constantUndef type
      | none => constantUndef type

/-! ## Control flow -/

def branch (target : BlockId) : Build Unit := insertEffect (.branch target)

/-- Branches on an integer; nothing is built on another condition. -/
def branchIf (condition : Value) (thenTarget elseTarget : BlockId) :
    Build Unit := do
  match ← attached with
  | none => pure ()
  | some block =>
      if condition.operand.type.isInt then
        let _ ← insert block
          (.branchIf condition.operand thenTarget elseTarget) ""

def ret (value : Value) : Build Unit :=
  insertEffect (.ret (some value.operand))

def retVoid : Build Unit := insertEffect (.ret none)

def unreachable : Build Unit := insertEffect .unreachable

/-- A phi without edges after the phis that open a block. -/
def phiAtStart (block : BlockId) (type : TypeId) (name : String) :
    Build Value := do
  match ← onModule (Module.lowerFirstClass? type) with
  | none => constantUndef type
  | some lowered =>
      let register ← onModule (Module.insertInstruction block
        (·.leading Operation.isPhi) (.phi lowered []) (nameBeforeNul name))
      pushOperand (.register register lowered) type

/-- Adds an edge to a phi; other values have none. -/
def addIncoming (phi value : Value) (block : BlockId) : Build Unit := do
  match phi.content with
  | .firstClass (.register register _) =>
      onModule (Module.modifyOperation register fun operation =>
        match operation with
        | .phi type edges => .phi type (edges ++ [(value.operand, block)])
        | operation => operation)
  | _ => pure ()

/-! ## Exceptions -/

/-- What a landing pad gives: the exception and its selector. -/
def landingPadType : Build TypeId := do
  let pointer ← onTypes TypeTable.bytePointer
  let selector ← onTypes (TypeTable.int 32)
  onTypes (TypeTable.struct [pointer, selector])

def landingPad (cleanup : Bool) (clauses : List Value) (name : String) :
    Build Value := do
  let type ← landingPadType
  match ← attached with
  | none => constantUndef type
  | some block =>
      match ← onModule (Module.lowerFirstClass? type) with
      | none => constantUndef type
      | some lowered =>
          insertValue block
            (.landingPad lowered cleanup (clauses.map Value.operand)) name type

def resume (value : Value) : Build Unit :=
  insertEffect (.resume value.operand)

/-- Inserts a pad, whose result is a token. -/
def insertPad (operation : Operation) (name : String) : Build Value := do
  let type ← onTypes TypeTable.token
  match ← attached with
  | none => constantUndef type
  | some block =>
      push (.token (← insert block operation (nameWithoutNul name))) type

def catchSwitch (parent : Value) (handlers : List BlockId)
    (unwind : Option BlockId) (name : String) : Build Value :=
  insertPad (.catchSwitch parent.operandOrToken handlers unwind) name

/-- Adds a handler to a catchswitch. -/
def addHandler (dispatch : Value) (handler : BlockId) : Build Unit := do
  match dispatch.content with
  | .token (.register register _) =>
      onModule (Module.modifyOperation register fun operation =>
        match operation with
        | .catchSwitch parent handlers unwind =>
            .catchSwitch parent (handlers ++ [handler]) unwind
        | operation => operation)
  | _ => pure ()

def catchPad (parent : Value) (arguments : List Value) (name : String) :
    Build Value :=
  insertPad
    (.catchPad parent.operandOrToken (arguments.map Value.operandOrToken)) name

def cleanupPad (parent : Value) (arguments : List Value) (name : String) :
    Build Value :=
  insertPad
    (.cleanupPad parent.operandOrToken (arguments.map Value.operandOrToken))
    name

def catchReturn (pad : Value) (target : BlockId) : Build Unit :=
  insertEffect (.catchReturn pad.operandOrToken target)

def cleanupReturn (pad : Value) (unwind : Option BlockId) : Build Unit :=
  insertEffect (.cleanupReturn pad.operandOrToken unwind)

end Builder

end FormCompiler.Ir
