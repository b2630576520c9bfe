import FormCompiler.Ir.Operator

/-!
# Opcodes

The head of an instruction form names what it does.  Every opcode has one
head, and a head that no opcode has is not an instruction.
-/

namespace FormCompiler

open Ir

/-- Comparisons whose predicate depends on the type compared. -/
inductive Comparison where
  | eq
  | ne
  | lt
  | gt
  | le
  | ge
deriving DecidableEq, Repr

namespace Comparison

def head : Comparison → String
  | .eq => "eq"
  | .ne => "ne"
  | .lt => "lt"
  | .gt => "gt"
  | .le => "le"
  | .ge => "ge"

def all : List Comparison := [.eq, .ne, .lt, .gt, .le, .ge]

def intPredicate (comparison : Comparison) (unsigned : Bool) : IntPredicate :=
  match comparison with
  | .eq => .eq
  | .ne => .ne
  | .lt => if unsigned then .ult else .slt
  | .gt => if unsigned then .ugt else .sgt
  | .le => if unsigned then .ule else .sle
  | .ge => if unsigned then .uge else .sge

/-- On a NaN every comparison is false but `ne`. -/
def floatPredicate : Comparison → FloatPredicate
  | .eq => .oeq
  | .ne => .une
  | .lt => .olt
  | .gt => .ogt
  | .le => .ole
  | .ge => .oge

end Comparison

/-- Steps in the life of a coroutine. -/
inductive CoroutineStep where
  | begin
  | id
  | size
  | alloc
  | free
  | save
  | suspend
  | finalSuspend
  | promise
  | resume
  | destroy
  | done
  | finish
deriving DecidableEq, Repr

namespace CoroutineStep

def head : CoroutineStep → String
  | .begin => "coro-begin"
  | .id => "coro-id"
  | .size => "coro-size"
  | .alloc => "coro-alloc"
  | .free => "coro-free"
  | .save => "coro-save"
  | .suspend => "coro-suspend"
  | .finalSuspend => "coro-final-suspend"
  | .promise => "coro-promise"
  | .resume => "coro-resume"
  | .destroy => "coro-destroy"
  | .done => "coro-done"
  | .finish => "coro-end"

def all : List CoroutineStep :=
  [.begin, .id, .size, .alloc, .free, .save, .suspend, .finalSuspend,
    .promise, .resume, .destroy, .done, .finish]

def definesResult : CoroutineStep → Bool
  | .resume | .destroy | .finish => false
  | _ => true

end CoroutineStep

inductive Opcode where
  | conditional
  | whileLoop
  | forLoop
  | switch
  | sumMatch
  | breakLoop
  | continueLoop
  | block
  | phi
  | ret
  | panic
  | tryCatch
  | constant
  | binary (operator : BinaryOperator)
  | comparison (relation : Comparison)
  | compareInt
  | compareFloat
  | cast (operator : CastOperator)
  | pointerAdd
  | pointerSub
  | pointerDiff
  | localVariable
  | assign
  | alloca
  | load
  | store
  | loadGlobal
  | storeGlobal
  | index
  | arrayLiteral
  | structLiteral
  | member
  | memberAddress
  | unionMember
  | address
  | dereference
  | functionPointer
  | call
  | callIndirect
  | vaStart
  | vaArg
  | vaEnd
  | textLiteral
  | bytesLiteral
  | closure
  | makeClosure
  | callClosure
  | coroutine (step : CoroutineStep)
  | sumNew
  | sumIs
  | sumGet
deriving DecidableEq, Repr

namespace Opcode

/-- The head of the forms of an opcode. -/
def head : Opcode → String
  | .conditional => "if"
  | .whileLoop => "while"
  | .forLoop => "for"
  | .switch => "switch"
  | .sumMatch => "match"
  | .breakLoop => "break"
  | .continueLoop => "continue"
  | .block => "block"
  | .phi => "phi"
  | .ret => "ret"
  | .panic => "panic"
  | .tryCatch => "try"
  | .constant => "const"
  | .binary operator => operator.mnemonic
  | .comparison relation => relation.head
  | .compareInt => "icmp"
  | .compareFloat => "fcmp"
  | .cast operator => operator.mnemonic
  | .pointerAdd => "ptr-add"
  | .pointerSub => "ptr-sub"
  | .pointerDiff => "ptr-diff"
  | .localVariable => "as"
  | .assign => "assign"
  | .alloca => "alloca"
  | .load => "load"
  | .store => "store"
  | .loadGlobal => "gload"
  | .storeGlobal => "gstore"
  | .index => "index"
  | .arrayLiteral => "array-lit"
  | .structLiteral => "struct-lit"
  | .member => "member"
  | .memberAddress => "member-addr"
  | .unionMember => "union-member"
  | .address => "addr"
  | .dereference => "deref"
  | .functionPointer => "fnptr"
  | .call => "call"
  | .callIndirect => "call-indirect"
  | .vaStart => "va-start"
  | .vaArg => "va-arg"
  | .vaEnd => "va-end"
  | .textLiteral => "cstr"
  | .bytesLiteral => "bytes"
  | .closure => "closure"
  | .makeClosure => "make-closure"
  | .callClosure => "call-closure"
  | .coroutine step => step.head
  | .sumNew => "sum-new"
  | .sumIs => "sum-is"
  | .sumGet => "sum-get"

def all : List Opcode :=
  [.conditional, .whileLoop, .forLoop, .switch, .sumMatch, .breakLoop,
    .continueLoop, .block, .phi, .ret, .panic, .tryCatch, .constant] ++
  BinaryOperator.all.map .binary ++
  Comparison.all.map .comparison ++
  [.compareInt, .compareFloat] ++
  CastOperator.all.map .cast ++
  [.pointerAdd, .pointerSub, .pointerDiff, .localVariable, .assign, .alloca,
    .load, .store, .loadGlobal, .storeGlobal, .index, .arrayLiteral,
    .structLiteral, .member, .memberAddress, .unionMember, .address,
    .dereference, .functionPointer, .call, .callIndirect, .vaStart, .vaArg,
    .vaEnd, .textLiteral, .bytesLiteral, .closure, .makeClosure,
    .callClosure] ++
  CoroutineStep.all.map .coroutine ++
  [.sumNew, .sumIs, .sumGet]

/-- The opcode that a head stands for. -/
def ofHead? (head : String) : Option Opcode :=
  all.find? fun opcode => opcode.head == head

/-- Whether the name after the head is given a value.  A match does so only
where it has a result, which its form shows. -/
def definesResult : Opcode → Bool
  | .conditional | .whileLoop | .forLoop | .switch | .sumMatch | .breakLoop
  | .continueLoop | .block | .ret | .panic | .tryCatch | .store
  | .storeGlobal | .vaStart | .vaEnd => false
  | .coroutine step => step.definesResult
  | _ => true

end Opcode

end FormCompiler
