import FormCompiler.Text.Identifier
import FormCompiler.Text.Lines
import FormCompiler.Ir.Module

/-!
# Text of emitted modules

A module is written line by line: its name, its target, its named structs,
its globals and its functions.  Arguments, blocks and results without a name
are numbered in one sequence for each function.
-/

namespace FormCompiler.Ir

/-- Characters of identifiers that need no quotes. -/
def isIdentifierChar (character : Char) : Bool :=
  character.isAlphanum || character == '-' || character == '.' ||
    character == '_'

def identifier (name : String) : String :=
  identifierText isIdentifierChar name

def commaSeparated (texts : List String) : String := ", ".intercalate texts

mutual

def IrType.text : IrType → String
  | .void => "void"
  | .int bits => "i" ++ toString bits
  | .float => "float"
  | .double => "double"
  | .pointer => "ptr"
  | .label => "label"
  | .token => "token"
  | .array length element =>
      "[" ++ toString length ++ " x " ++ element.text ++ "]"
  | .struct [] => "\x7b\x7d"
  | .struct fields =>
      "\x7b " ++ commaSeparated (IrType.texts fields) ++ " \x7d"
  | .named name => "%" ++ identifier name
  | .function result parameters variadic =>
      result.text ++ " (" ++ commaSeparated (IrType.texts parameters ++
        if variadic then ["..."] else []) ++ ")"

def IrType.texts : List IrType → List String
  | [] => []
  | type :: types => type.text :: IrType.texts types

end

/-- What is named or numbered inside a function. -/
inductive Local where
  | argument (index : Nat)
  | block (index : Nat)
  | register (index : Nat)
deriving DecidableEq

/-- The unnamed instructions of a block that have a result. -/
def unnamedRegisters (block : Block) : List Local :=
  block.instructions.filterMap fun instruction =>
    match instruction.operation.resultType with
    | .void => none
    | _ =>
        if instruction.name.isEmpty then
          some (.register instruction.register.index)
        else none

/-- The unnamed blocks and results from a block on. -/
def unnamedFrom : (index : Nat) → List Block → List Local
  | _, [] => []
  | index, block :: blocks =>
      (if block.name.isEmpty then [.block index] else []) ++
        unnamedRegisters block ++ unnamedFrom (index + 1) blocks

/-- What is numbered in a function, in the order of the numbers. -/
def Function.unnamed (function : Function) : List Local :=
  ((List.range function.parameterNames.length).filterMap fun index =>
    if function.parameterNames[index]? = some "" then
      some (.argument index) else none) ++
    unnamedFrom 0 function.blocks

/-- The module that is written, with the numbering of each function. -/
structure Writer where
  module : Module
  unnamed : List (List Local)

namespace Writer

def ofModule (module : Module) : Writer :=
  ⟨module, module.functions.map Function.unnamed⟩

/-- A name, or else the number of what has none. -/
def localText (writer : Writer) (function : FunctionId) (name : String)
    (subject : Local) : String :=
  if name.isEmpty then
    let unnamed := (writer.unnamed[function]?).getD []
    toString ((unnamed.idxOf? subject).getD 0)
  else identifier name

def argumentText (writer : Writer) (function : FunctionId) (index : Nat) :
    String :=
  let name :=
    ((writer.module.function function).parameterNames[index]?).getD ""
  "%" ++ writer.localText function name (.argument index)

/-- A block's label. -/
def labelText (writer : Writer) (block : BlockId) : String :=
  writer.localText block.function (writer.module.blockName block)
    (.block block.index)

def blockText (writer : Writer) (block : BlockId) : String :=
  "%" ++ writer.labelText block

def registerText (writer : Writer) (register : Register) (name : String) :
    String :=
  "%" ++ writer.localText register.function name (.register register.index)

def functionText (writer : Writer) (function : FunctionId) : String :=
  "@" ++ identifier (writer.module.function function).symbol

/-- Sixteen hexadecimal digits. -/
def doubleText (value : Double) : String :=
  let digits := (List.range 16).map fun position =>
    hexDigit (value.bits.toNat / Nat.pow 16 (15 - position) % 16)
  "0x" ++ String.ofList digits

def nullText : IrType → String
  | .pointer => "null"
  | .token => "none"
  | _ => "zeroinitializer"

def operandText (writer : Writer) : Operand → String
  | .argument function index _ => writer.argumentText function index
  | .register register _ =>
      writer.registerText register
        (((writer.module.instruction? register).map
          Instruction.name).getD "")
  | .int 1 value => if value = 0 then "false" else "true"
  | .int _ value => toString value
  | .float value => doubleText value
  | .double value => doubleText value
  | .null type => nullText type
  | .undef _ => "undef"
  | .bytes contents => "c\"" ++ escapedBytes contents ++ "\""
  | .function function => writer.functionText function
  | .global global =>
      "@" ++ identifier (writer.module.global global).symbol

/-- An operand after its type. -/
def typedText (writer : Writer) (operand : Operand) : String :=
  operand.type.text ++ " " ++ writer.operandText operand

def typedTexts (writer : Writer) (operands : List Operand) : String :=
  commaSeparated (operands.map writer.typedText)

def targetText (writer : Writer) (block : BlockId) : String :=
  "label " ++ writer.blockText block

/-- Where an exception goes on. -/
def unwindText (writer : Writer) : Option BlockId → String
  | some block => "unwind " ++ writer.targetText block
  | none => "unwind to caller"

/-- The result type of a call, or its whole type if that is variadic. -/
def calledText (result : IrType) (parameters : List IrType)
    (variadic : Bool) : String :=
  if variadic then (IrType.function result parameters variadic).text
  else result.text

/-- The start of a line that continues an instruction. -/
def continuation : String := "          "

/-- The lines of an operation; the first one follows the result. -/
def operationLines (writer : Writer) : Operation → List String
  | .binary operator left right =>
      [operator.mnemonic ++ " " ++ writer.typedText left ++ ", " ++
        writer.operandText right]
  | .compareInt predicate left right =>
      ["icmp " ++ predicate.mnemonic ++ " " ++ writer.typedText left ++
        ", " ++ writer.operandText right]
  | .compareFloat predicate left right =>
      ["fcmp " ++ predicate.mnemonic ++ " " ++ writer.typedText left ++
        ", " ++ writer.operandText right]
  | .cast operator value type =>
      [operator.mnemonic ++ " " ++ writer.typedText value ++ " to " ++
        type.text]
  | .alloca type => ["alloca " ++ type.text]
  | .load type pointer =>
      ["load " ++ type.text ++ ", " ++ writer.typedText pointer]
  | .store value pointer =>
      ["store " ++ writer.typedText value ++ ", " ++
        writer.typedText pointer]
  | .elementPointer type base indices =>
      ["getelementptr " ++ type.text ++ ", " ++
        writer.typedTexts (base :: indices)]
  | .vaArg list type =>
      ["va_arg " ++ writer.typedText list ++ ", " ++ type.text]
  | .phi type edges =>
      ["phi " ++ type.text ++ " " ++ commaSeparated (edges.map fun edge =>
        "[ " ++ writer.operandText edge.1 ++ ", " ++
          writer.blockText edge.2 ++ " ]")]
  | .call result parameters variadic callee arguments =>
      ["call " ++ calledText result parameters variadic ++ " " ++
        writer.operandText callee ++ "(" ++ writer.typedTexts arguments ++
        ")"]
  | .invoke result parameters variadic callee arguments normal unwind =>
      ["invoke " ++ calledText result parameters variadic ++ " " ++
        writer.operandText callee ++ "(" ++ writer.typedTexts arguments ++
        ")",
        continuation ++ "to " ++ writer.targetText normal ++ " unwind " ++
          writer.targetText unwind]
  | .branch target => ["br " ++ writer.targetText target]
  | .branchIf condition thenTarget elseTarget =>
      ["br " ++ writer.typedText condition ++ ", " ++
        writer.targetText thenTarget ++ ", " ++ writer.targetText elseTarget]
  | .ret none => ["ret void"]
  | .ret (some value) => ["ret " ++ writer.typedText value]
  | .unreachable => ["unreachable"]
  | .landingPad type cleanup clauses =>
      ("landingpad " ++ type.text) ::
        (if cleanup then [continuation ++ "cleanup"] else []) ++
        clauses.map fun clause =>
          continuation ++ "catch " ++ writer.typedText clause
  | .resume value => ["resume " ++ writer.typedText value]
  | .catchSwitch parent handlers unwind =>
      ["catchswitch within " ++ writer.operandText parent ++ " [" ++
        commaSeparated (handlers.map writer.targetText) ++ "] " ++
        writer.unwindText unwind]
  | .catchPad parent arguments =>
      ["catchpad within " ++ writer.operandText parent ++ " [" ++
        writer.typedTexts arguments ++ "]"]
  | .cleanupPad parent arguments =>
      ["cleanuppad within " ++ writer.operandText parent ++ " [" ++
        writer.typedTexts arguments ++ "]"]
  | .catchReturn pad target =>
      ["catchret from " ++ writer.operandText pad ++ " to " ++
        writer.targetText target]
  | .cleanupReturn pad unwind =>
      ["cleanupret from " ++ writer.operandText pad ++ " " ++
        writer.unwindText unwind]

/-- The lines of an instruction. -/
def instructionLines (writer : Writer) (instruction : Instruction) :
    List String :=
  let result :=
    match instruction.operation.resultType with
    | .void => ""
    | _ =>
        writer.registerText instruction.register instruction.name ++ " = "
  match writer.operationLines instruction.operation with
  | [] => []
  | first :: rest => ("  " ++ result ++ first) :: rest

/-- The lines of the blocks of a function, an empty line between two. -/
def blockLines (writer : Writer) (function : FunctionId) :
    (index : Nat) → List Block → List String
  | _, [] => []
  | index, block :: blocks =>
      (if index = 0 then [] else [""]) ++
        (writer.labelText ⟨function, index⟩ ++ ":") ::
        block.instructions.flatMap writer.instructionLines ++
        writer.blockLines function (index + 1) blocks

def linkageText : Linkage → String
  | .external => ""
  | .internal => "internal "
  | .unlisted => "private "

def attributesText : List Attribute → String
  | [] => ""
  | attributes =>
      " #\x7b" ++ " ".intercalate (attributes.map Attribute.text) ++ "\x7d"

def parametersText (writer : Writer) (id : FunctionId) (function : Function) :
    String :=
  let fixed := (List.range function.parameterTypes.length).zipWith
    (fun index (type : IrType) =>
      if function.isDeclaration then type.text
      else type.text ++ " " ++ writer.argumentText id index)
    function.parameterTypes
  commaSeparated (fixed ++ if function.variadic then ["..."] else [])

def functionLines (writer : Writer) (id : FunctionId)
    (function : Function) : List String :=
  let personality :=
    match function.personality with
    | some routine => " personality ptr " ++ writer.functionText routine
    | none => ""
  let header := linkageText function.linkage ++ function.result.text ++ " " ++
    writer.functionText id ++ "(" ++ writer.parametersText id function ++
    ")" ++ attributesText function.attributes ++ personality
  if function.isDeclaration then ["", "declare " ++ header]
  else
    ["", "define " ++ header ++ " \x7b"] ++
      writer.blockLines id 0 function.blocks ++ ["\x7d"]

def functionsLines (writer : Writer) :
    (id : FunctionId) → List Function → List String
  | _, [] => []
  | id, function :: functions =>
      writer.functionLines id function ++
        writer.functionsLines (id + 1) functions

def structLine (name : String) (body : Option (List IrType)) : String :=
  "%" ++ identifier name ++ " = type " ++
    match body with
    | some fields => (IrType.struct fields).text
    | none => "opaque"

def globalLine (writer : Writer) (global : Global) : String :=
  "@" ++ identifier global.symbol ++ " = " ++ linkageText global.linkage ++
    (if global.isConstant then "constant " else "global ") ++
    global.irType.text ++
    match global.initialOperand with
    | some operand => " " ++ writer.operandText operand
    | none => ""

end Writer

/-- The line of the target, if one is set. -/
def tripleLines (triple : Option String) : List String :=
  match triple.map nameBeforeNul with
  | none => []
  | some triple =>
      if triple.isEmpty then []
      else ["target triple = \"" ++ escapedBytes (utf8Bytes triple) ++ "\""]

/-- The lines of a module. -/
def Module.lines (module : Module) : List String :=
  let module := module.syncStructs
  let writer := Writer.ofModule module
  textLines ("; ModuleID = '" ++ nameBeforeNul module.name ++ "'") ++
    tripleLines module.triple ++
    module.structs.map (fun entry => Writer.structLine entry.1 entry.2) ++
    module.globals.map writer.globalLine ++
    writer.functionsLines 0 module.functions

end FormCompiler.Ir
