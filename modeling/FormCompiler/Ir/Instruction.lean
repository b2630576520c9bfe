import FormCompiler.Double.Basic
import FormCompiler.Ir.Operator

/-!
# Instructions

Types, operands and instructions of emitted functions.  Pointers have one
type here, whatever they point to.  An operand knows its type.
-/

namespace FormCompiler.Ir

inductive IrType where
  | void
  | int (bits : Nat)
  | float
  | double
  | pointer
  | label
  | token
  | array (length : Nat) (element : IrType)
  | struct (fields : List IrType)
  | named (name : String)
  | function (result : IrType) (parameters : List IrType) (variadic : Bool)
deriving Repr, Inhabited

namespace IrType

mutual

/-- Equality of types. -/
def equals : IrType → IrType → Bool
  | .void, .void | .float, .float | .double, .double | .pointer, .pointer
  | .label, .label | .token, .token => true
  | .int left, .int right => left == right
  | .array leftLength left, .array rightLength right =>
      leftLength == rightLength && equals left right
  | .struct left, .struct right => equalsList left right
  | .named left, .named right => left == right
  | .function leftResult left leftVariadic,
      .function rightResult right rightVariadic =>
      equals leftResult rightResult && equalsList left right &&
        leftVariadic == rightVariadic
  | _, _ => false

def equalsList : List IrType → List IrType → Bool
  | [], [] => true
  | left :: lefts, right :: rights =>
      equals left right && equalsList lefts rights
  | _, _ => false

end

instance : BEq IrType := ⟨equals⟩

/-- The types of values that an instruction may hold in a register. -/
def isFirstClass : IrType → Bool
  | .int _ | .float | .double | .pointer | .array .. | .struct _ | .named _ =>
      true
  | .void | .label | .token | .function .. => false

def isInt : IrType → Bool
  | .int _ => true
  | _ => false

def isFloat : IrType → Bool
  | .float | .double => true
  | _ => false

def isPointer : IrType → Bool
  | .pointer => true
  | _ => false

end IrType

/-- A function of a module, by position. -/
abbrev FunctionId := Nat

/-- A global variable of a module, by position. -/
abbrev GlobalId := Nat

/-- A block of a function, by position. -/
structure BlockId where
  function : FunctionId
  index : Nat
deriving DecidableEq, Repr, Inhabited

/-- The result of an instruction.  Registers of a function are counted in
the order in which its instructions are built. -/
structure Register where
  function : FunctionId
  index : Nat
deriving DecidableEq, Repr, Inhabited

inductive Operand where
  | argument (function : FunctionId) (index : Nat) (type : IrType)
  | register (register : Register) (type : IrType)
  /-- An integer of a width, in the signed range of that width. -/
  | int (bits : Nat) (value : Int)
  | float (value : Double)
  | double (value : Double)
  | null (type : IrType)
  | undef (type : IrType)
  | bytes (contents : List UInt8)
  | function (function : FunctionId)
  | global (global : GlobalId)
deriving Repr, Inhabited

namespace Operand

def type : Operand → IrType
  | .argument _ _ type => type
  | .register _ type => type
  | .int bits _ => .int bits
  | .float _ => .float
  | .double _ => .double
  | .null type => type
  | .undef type => type
  | .bytes contents => .array contents.length (.int 8)
  | .function _ => .pointer
  | .global _ => .pointer

/-- Constants other than the addresses of functions and globals. -/
def isConstant : Operand → Bool
  | .argument .. | .register .. | .function _ | .global _ => false
  | .int .. | .float _ | .double _ | .null _ | .undef _ | .bytes _ => true

def constantInt? : Operand → Option Int
  | .int _ value => some value
  | _ => none

/-- The low bits of an integer, read as a signed number. -/
def ofInt (bits : Nat) (value : Int) : Operand :=
  .int bits (Int.bmod value (Nat.pow 2 bits))

/-- A float constant of a float type; a single is rounded first. -/
def ofDouble (type : IrType) (value : Double) : Operand :=
  match type with
  | .float => .float value.toSingle
  | _ => .double value

/-- Zero of a type: a number for numeric types, null for the others. -/
def zero (type : IrType) : Operand :=
  match type with
  | .int bits => .int bits 0
  | .float => .float .zero
  | .double => .double .zero
  | _ => .null type

end Operand

inductive Operation where
  | binary (operator : BinaryOperator) (left right : Operand)
  | compareInt (predicate : IntPredicate) (left right : Operand)
  | compareFloat (predicate : FloatPredicate) (left right : Operand)
  | cast (operator : CastOperator) (value : Operand) (type : IrType)
  | alloca (type : IrType)
  | load (type : IrType) (pointer : Operand)
  | store (value pointer : Operand)
  | elementPointer (type : IrType) (base : Operand) (indices : List Operand)
  | vaArg (list : Operand) (type : IrType)
  | phi (type : IrType) (edges : List (Operand × BlockId))
  | call (result : IrType) (parameters : List IrType) (variadic : Bool)
      (callee : Operand) (arguments : List Operand)
  | invoke (result : IrType) (parameters : List IrType) (variadic : Bool)
      (callee : Operand) (arguments : List Operand) (normal unwind : BlockId)
  | branch (target : BlockId)
  | branchIf (condition : Operand) (thenTarget elseTarget : BlockId)
  | ret (value : Option Operand)
  | unreachable
  | landingPad (type : IrType) (cleanup : Bool) (clauses : List Operand)
  | resume (value : Operand)
  | catchSwitch (parent : Operand) (handlers : List BlockId)
      (unwind : Option BlockId)
  | catchPad (parent : Operand) (arguments : List Operand)
  | cleanupPad (parent : Operand) (arguments : List Operand)
  | catchReturn (pad : Operand) (target : BlockId)
  | cleanupReturn (pad : Operand) (unwind : Option BlockId)
deriving Repr, Inhabited

namespace Operation

/-- The type of the register that an operation fills; `void` for none. -/
def resultType : Operation → IrType
  | .binary _ left _ => left.type
  | .compareInt .. | .compareFloat .. => .int 1
  | .cast _ _ type => type
  | .alloca _ => .pointer
  | .load type _ => type
  | .elementPointer .. => .pointer
  | .vaArg _ type => type
  | .phi type _ => type
  | .call result .. => result
  | .invoke result .. => result
  | .landingPad type .. => type
  | .catchSwitch .. | .catchPad .. | .cleanupPad .. => .token
  | .store .. | .branch _ | .branchIf .. | .ret _ | .unreachable | .resume _
  | .catchReturn .. | .cleanupReturn .. => .void

/-- Operations that end a block. -/
def isTerminator : Operation → Bool
  | .ret _ | .branch _ | .branchIf .. | .unreachable | .invoke ..
  | .resume _ | .catchSwitch .. | .catchReturn .. | .cleanupReturn .. => true
  | _ => false

/-- The blocks that an operation may continue in. -/
def targets : Operation → List BlockId
  | .invoke _ _ _ _ _ normal unwind => [normal, unwind]
  | .branch target => [target]
  | .branchIf _ thenTarget elseTarget => [thenTarget, elseTarget]
  | .catchSwitch _ handlers unwind => handlers ++ unwind.toList
  | .catchReturn _ target => [target]
  | .cleanupReturn _ unwind => unwind.toList
  | _ => []

def isPhi : Operation → Bool
  | .phi .. => true
  | _ => false

def isAlloca : Operation → Bool
  | .alloca _ => true
  | _ => false

end Operation

structure Instruction where
  register : Register
  /-- Empty for an unnamed result. -/
  name : String
  operation : Operation
deriving Repr, Inhabited

structure Block where
  /-- Empty for an unnamed block. -/
  name : String
  instructions : List Instruction := []
deriving Repr, Inhabited

namespace Block

/-- The last instruction, if it ends the block. -/
def terminator? (block : Block) : Option Operation :=
  match block.instructions.getLast? with
  | some last =>
      if last.operation.isTerminator then some last.operation else none
  | none => none

def isTerminated (block : Block) : Bool := block.terminator?.isSome

/-- Inserts an instruction at a position. -/
def insertAt (block : Block) (position : Nat) (instruction : Instruction) :
    Block :=
  { block with
    instructions := block.instructions.take position ++
      instruction :: block.instructions.drop position }

/-- The number of leading instructions of one kind. -/
def leading (block : Block) (isKind : Operation → Bool) : Nat :=
  (block.instructions.takeWhile fun instruction =>
    isKind instruction.operation).length

end Block

end FormCompiler.Ir
