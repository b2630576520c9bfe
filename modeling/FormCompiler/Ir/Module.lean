import FormCompiler.Types.Table
import FormCompiler.Ir.Names
import FormCompiler.Ir.Instruction

/-!
# Emitted modules

A module owns its type table, its functions and its globals.  Types are
lowered to instruction types when a value, a function or a global first needs
them; a named struct is entered in the module's list of structs when it is
first lowered, and takes the body that the type table has for it as soon as
it has one.
-/

namespace FormCompiler.Ir

/-- Where a symbol is visible. -/
inductive Linkage where
  | external
  | internal
  /-- Left out of the symbol table. -/
  | unlisted
deriving DecidableEq, Repr, Inhabited

inductive Attribute where
  | unwindTable
  | presplitCoroutine
  | noReturn
deriving DecidableEq, Repr

namespace Attribute

def all : List Attribute := [.unwindTable, .presplitCoroutine, .noReturn]

def text : Attribute → String
  | .unwindTable => "uwtable(2)"
  | .presplitCoroutine => "presplitcoroutine"
  | .noReturn => "noreturn"

end Attribute

/-- What a value stands for.  Tokens are kept apart because most
instructions cannot take them, and a call that returns nothing still gives a
value that nothing can take. -/
inductive Content where
  | firstClass (operand : Operand)
  | token (operand : Operand)
  | nothing
deriving Repr, Inhabited

/-- A numbered value with its type in the type table. -/
structure Value where
  number : Nat
  type : TypeId
  content : Content
deriving Repr, Inhabited

namespace Value

/-- Stands in where a value cannot be an operand. -/
def standIn : Operand := .undef (.int 8)

/-- The operand that a value is in an instruction on first-class values. -/
def operand (value : Value) : Operand :=
  match value.content with
  | .firstClass operand => operand
  | .token _ | .nothing => standIn

/-- The operand that a value is where tokens are admitted. -/
def operandOrToken (value : Value) : Operand :=
  match value.content with
  | .firstClass operand => operand
  | .token operand => operand
  | .nothing => standIn

def isFirstClass (value : Value) : Bool :=
  match value.content with
  | .firstClass _ => true
  | _ => false

/-- The integer that a value is known to be. -/
def constantInt? (value : Value) : Option Int :=
  match value.content with
  | .firstClass operand => operand.constantInt?
  | _ => none

def isConstant (value : Value) : Bool :=
  match value.content with
  | .firstClass operand => operand.isConstant
  | .token operand => operand.isConstant
  | .nothing => false

end Value

/-- The initial value that a global is declared with. -/
inductive Initializer where
  | int (value : Int64)
  | float (value : Double)
  | null
  | zero
  | bytes (contents : List UInt8)
deriving DecidableEq, Repr

structure Global where
  name : String
  /-- The unique name in the emitted text. -/
  symbol : String
  type : TypeId
  irType : IrType
  initializer : Option Initializer
  initialOperand : Option Operand
  isConstant : Bool
  linkage : Linkage
deriving Repr, Inhabited

structure Function where
  name : String
  /-- The unique name in the emitted text. -/
  symbol : String
  type : TypeId
  result : IrType
  parameterTypes : List IrType
  variadic : Bool
  linkage : Linkage
  /-- In the order in which they were added. -/
  attributes : List Attribute := []
  personality : Option FunctionId := none
  parameters : List Value := []
  parameterNames : List String := []
  names : NameTable := {}
  blocks : List Block := []
  registerCount : Nat := 0
deriving Repr, Inhabited

namespace Function

def isDeclaration (function : Function) : Bool := function.blocks.isEmpty

def blockNames (function : Function) : List String :=
  function.blocks.map Block.name

end Function

/-- Named structs in the order in which they were first lowered; one without
a body is opaque. -/
abbrev StructBodies := List (String × Option (List IrType))

namespace StructBodies

def declare (name : String) : StateM StructBodies Unit := fun structs =>
  ((), if (structs.lookup name).isSome then structs
    else structs ++ [(name, none)])

def isOpaque (structs : StructBodies) (name : String) : Bool :=
  match structs.lookup name with
  | some none => true
  | _ => false

def setBody (name : String) (body : List IrType) :
    StateM StructBodies Unit := fun structs =>
  ((), structs.map fun entry =>
    if entry.1 = name then (name, some body) else entry)

end StructBodies

/-- Lowers fields up to the first one that is not first-class; then there is
no result. -/
def lowerFields (lower : TypeId → StateM StructBodies IrType) :
    List TypeId → StateM StructBodies (Option (List IrType))
  | [] => pure (some [])
  | field :: fields => do
      let lowered ← lower field
      if lowered.isFirstClass then
        match ← lowerFields lower fields with
        | some rest => pure (some (lowered :: rest))
        | none => pure none
      else pure none

/-- Gives an opaque struct the body that the type table has for it. -/
def completeStruct (table : TypeTable)
    (lower : TypeId → StateM StructBodies IrType) (name : String)
    (type : TypeId) : StateM StructBodies Unit := do
  if (← get).isOpaque name then
    match table.fields? type with
    | some fields =>
        match ← lowerFields lower fields with
        | some body => StructBodies.setBody name body
        | none => pure ()
    | none => pure ()

/-- Lowers a type that nests at most `levels` levels by value.  Deeper types,
and aggregates of what is not first-class, become `void`. -/
def lowerWithin (table : TypeTable) :
    (levels : Nat) → TypeId → StateM StructBodies IrType
  | 0, _ => pure .void
  | levels + 1, type =>
      match table.kind type with
      | .void => pure .void
      | .int bits => pure (.int bits)
      | .float => pure .float
      | .double => pure .double
      | .pointer _ => pure .pointer
      | .label => pure .label
      | .token => pure .token
      | .array element length => do
          let element ← lowerWithin table levels element
          pure (if element.isFirstClass then
            .array (min length 0xFFFFFFFF) element else .void)
      | .struct fields => do
          match ← lowerFields (lowerWithin table levels) fields with
          | some fields => pure (.struct fields)
          | none => pure .void
      | .named name => do
          let name := nameBeforeNul name
          StructBodies.declare name
          completeStruct table (lowerWithin table levels) name type
          pure (.named name)
      | .function result parameters variadic => do
          let result ← lowerWithin table levels result
          let parameters ← parameters.mapM (lowerWithin table levels)
          pure (.function result parameters variadic)

/-- The deepest nesting of types by value. -/
def loweringLevels : Nat := 65

structure Module where
  name : String
  triple : Option String := none
  types : TypeTable := {}
  structs : StructBodies := []
  functions : List Function := []
  globals : List Global := []
  /-- Names of functions and globals in the emitted text. -/
  symbols : NameTable := {}
  valueCount : Nat := 0
deriving Inhabited

namespace Module

def setName (module : Module) (name : String) : Module :=
  { module with name }

def setTriple (module : Module) (triple : Option String) : Module :=
  match triple with
  | some triple => { module with triple := some triple }
  | none => module

/-- Runs a type table operation. -/
def withTypes {Result : Type} (operation : StateM TypeTable Result) :
    StateM Module Result := fun module =>
  let (result, types) := operation module.types
  (result, { module with types })

/-- Lowers a type. -/
def lower (type : TypeId) : StateM Module IrType := fun module =>
  let (lowered, structs) :=
    lowerWithin module.types loweringLevels type module.structs
  (lowered, { module with structs })

/-- Lowers a type to a first-class one. -/
def lowerFirstClass? (type : TypeId) : StateM Module (Option IrType) := do
  let lowered ← lower type
  pure (if lowered.isFirstClass then some lowered else none)

/-- Gives every lowered struct the body that its type has by now. -/
def syncStructs (module : Module) : Module :=
  module.types.namedStructs.foldl
    (fun module type =>
      match module.types.kind type with
      | .named name =>
          let name := nameBeforeNul name
          let (_, structs) := completeStruct module.types
            (lowerWithin module.types (loweringLevels - 1)) name type
            module.structs
          { module with structs }
      | _ => module)
    module

/-- A new value. -/
def pushValue (content : Content) (type : TypeId) : StateM Module Value :=
  fun module =>
    (⟨module.valueCount, type, content⟩,
      { module with valueCount := module.valueCount + 1 })

/-- A unique symbol. -/
def reserveSymbol (name : String) : StateM Module String := fun module =>
  let (symbol, symbols) := module.symbols.reserve "." (nameBeforeNul name)
  (symbol, { module with symbols })

def function? (module : Module) (name : String) : Option FunctionId :=
  module.functions.findIdx? fun function => function.name = name

def global? (module : Module) (name : String) : Option GlobalId :=
  module.globals.findIdx? fun global => global.name = name

def function (module : Module) (id : FunctionId) : Function :=
  (module.functions[id]?).getD default

def global (module : Module) (id : GlobalId) : Global :=
  (module.globals[id]?).getD default

def modifyFunction (id : FunctionId) (change : Function → Function) :
    StateM Module Unit := fun module =>
  ((), { module with functions := module.functions.modify id change })

/-- The values of a function's parameters. -/
def pushParameters (table : TypeTable) (function : FunctionId) :
    (index : Nat) → List (TypeId × IrType) → StateM Module (List Value)
  | _, [] => pure []
  | index, (type, irType) :: rest => do
      let operand : Operand := .argument function index irType
      let value ← pushValue
        (if table.isToken type then .token operand else .firstClass operand)
        type
      let values ← pushParameters table function (index + 1) rest
      pure (value :: values)

/-- Adds a function, unless one of that name is there. -/
def addFunction (name : String) (type : TypeId) (linkage : Linkage) :
    StateM Module FunctionId := do
  let module ← get
  match module.function? name with
  | some id => pure id
  | none =>
      let (result, parameterTypes, variadic) :=
        match ← lower type with
        | .function result parameters variadic =>
            (result, parameters, variadic)
        | _ => (.void, [], false)
      let symbol ← reserveSymbol name
      let id := module.functions.length
      let types := match module.types.signature? type with
        | some signature => signature.parameters
        | none => []
      let parameters ←
        pushParameters module.types id 0 (types.zip parameterTypes)
      modify fun module =>
        { module with
          functions := module.functions ++
            [{ name, symbol, type, result, parameterTypes, variadic, linkage,
               parameters
               parameterNames := parameterTypes.map fun _ => "" }] }
      pure id

/-- Renames a parameter, if it is there and is not a token. -/
def setParameterName (id : FunctionId) (index : Nat) (name : String) :
    StateM Module Unit :=
  modifyFunction id fun function =>
    match function.parameters[index]? with
    | some parameter =>
        let name := nameBeforeNul name
        let old := (function.parameterNames[index]?).getD ""
        if parameter.isFirstClass && name != old then
          let (name, names) := (function.names.release old).reserve "" name
          { function with
            names, parameterNames := function.parameterNames.set index name }
        else function
    | none => function

/-- Adds those attributes that a function does not have yet. -/
def addAttributes (id : FunctionId) (attributes : List Attribute) :
    StateM Module Unit :=
  modifyFunction id fun function =>
    { function with
      attributes := function.attributes ++ Attribute.all.filter fun added =>
        attributes.contains added && !function.attributes.contains added }

def setPersonality (id personality : FunctionId) : StateM Module Unit :=
  modifyFunction id fun function =>
    { function with personality := some personality }

/-- The constant of a type that an initializer stands for; one that does not
fit the type is zero. -/
def initialOperand (type : IrType) : Initializer → Operand
  | .int value =>
      match type with
      | .int bits => .ofInt bits value.toInt
      | _ => .zero type
  | .float value => if type.isFloat then .ofDouble type value else .zero type
  | .bytes contents =>
      match type with
      | .array .. => .bytes contents
      | _ => .zero type
  | .null | .zero => .zero type

/-- Adds a global, unless one of that name is there. -/
def addGlobal (name : String) (type : TypeId)
    (initializer : Option Initializer) (isConstant : Bool)
    (linkage : Linkage) : StateM Module GlobalId := do
  match (← get).global? name with
  | some id => pure id
  | none =>
      let irType := (← lowerFirstClass? type).getD (.int 8)
      let symbol ← reserveSymbol name
      let id := (← get).globals.length
      modify fun module =>
        { module with
          globals := module.globals ++
            [{ name, symbol, type, irType, initializer, isConstant, linkage
               initialOperand := initializer.map (initialOperand irType) }] }
      pure id

/-- A block of a function. -/
def block? (module : Module) (id : BlockId) : Option Block :=
  (module.function id.function).blocks[id.index]?

def blockName (module : Module) (id : BlockId) : String :=
  ((module.block? id).map Block.name).getD ""

/-- The block of a function that has a given name. -/
def findBlock? (module : Module) (function : FunctionId) (name : String) :
    Option BlockId :=
  ((module.function function).blocks.findIdx? fun block =>
    block.name = name).map (BlockId.mk function)

/-- Adds a block at the end of a function. -/
def appendBlock (function : FunctionId) (name : String) :
    StateM Module BlockId := do
  let index := ((← get).function function).blocks.length
  modifyFunction function fun function =>
    let (name, names) := function.names.reserve "" (nameBeforeNul name)
    { function with names, blocks := function.blocks ++ [{ name }] }
  pure ⟨function, index⟩

/-- Inserts an instruction into a block at the position that `position`
chooses, and gives its register.  Only an instruction with a result takes a
name. -/
def insertInstruction (block : BlockId) (position : Block → Nat)
    (operation : Operation) (name : String) : StateM Module Register := do
  let register : Register :=
    ⟨block.function, ((← get).function block.function).registerCount⟩
  modifyFunction block.function fun function =>
    let (name, names) :=
      match operation.resultType with
      | .void => ("", function.names)
      | _ => function.names.reserve "" name
    { function with
      names
      registerCount := function.registerCount + 1
      blocks := function.blocks.modify block.index fun block =>
        block.insertAt (position block) ⟨register, name, operation⟩ }
  pure register

/-- The instruction that fills a register. -/
def instruction? (module : Module) (register : Register) :
    Option Instruction :=
  (module.function register.function).blocks.findSome? fun block =>
    block.instructions.find? fun instruction =>
      instruction.register = register

/-- Changes the operation that fills a register. -/
def modifyOperation (register : Register) (change : Operation → Operation) :
    StateM Module Unit :=
  modifyFunction register.function fun function =>
    { function with
      blocks := function.blocks.map fun block =>
        { block with
          instructions := block.instructions.map fun instruction =>
            if instruction.register = register then
              { instruction with
                operation := change instruction.operation }
            else instruction } }

end Module

end FormCompiler.Ir
