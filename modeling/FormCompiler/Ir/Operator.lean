/-!
# Operators and predicates of instructions
-/

namespace FormCompiler.Ir

inductive BinaryOperator where
  | add
  | sub
  | mul
  | sdiv
  | udiv
  | srem
  | urem
  | fadd
  | fsub
  | fmul
  | fdiv
  | frem
  | and
  | or
  | xor
  | shl
  | lshr
  | ashr
deriving DecidableEq, Repr

namespace BinaryOperator

def mnemonic : BinaryOperator → String
  | .add => "add"
  | .sub => "sub"
  | .mul => "mul"
  | .sdiv => "sdiv"
  | .udiv => "udiv"
  | .srem => "srem"
  | .urem => "urem"
  | .fadd => "fadd"
  | .fsub => "fsub"
  | .fmul => "fmul"
  | .fdiv => "fdiv"
  | .frem => "frem"
  | .and => "and"
  | .or => "or"
  | .xor => "xor"
  | .shl => "shl"
  | .lshr => "lshr"
  | .ashr => "ashr"

def all : List BinaryOperator :=
  [.add, .sub, .mul, .sdiv, .udiv, .srem, .urem, .fadd, .fsub, .fmul, .fdiv,
    .frem, .and, .or, .xor, .shl, .lshr, .ashr]

def ofMnemonic? (mnemonic : String) : Option BinaryOperator :=
  all.find? fun operator => operator.mnemonic = mnemonic

def isFloat : BinaryOperator → Bool
  | .fadd | .fsub | .fmul | .fdiv | .frem => true
  | _ => false

end BinaryOperator

inductive CastOperator where
  | trunc
  | zext
  | sext
  | fptrunc
  | fpext
  | fptoui
  | fptosi
  | uitofp
  | sitofp
  | ptrtoint
  | inttoptr
  | bitcast
deriving DecidableEq, Repr

namespace CastOperator

def mnemonic : CastOperator → String
  | .trunc => "trunc"
  | .zext => "zext"
  | .sext => "sext"
  | .fptrunc => "fptrunc"
  | .fpext => "fpext"
  | .fptoui => "fptoui"
  | .fptosi => "fptosi"
  | .uitofp => "uitofp"
  | .sitofp => "sitofp"
  | .ptrtoint => "ptrtoint"
  | .inttoptr => "inttoptr"
  | .bitcast => "bitcast"

def all : List CastOperator :=
  [.trunc, .zext, .sext, .fptrunc, .fpext, .fptoui, .fptosi, .uitofp, .sitofp,
    .ptrtoint, .inttoptr, .bitcast]

def ofMnemonic? (mnemonic : String) : Option CastOperator :=
  all.find? fun operator => operator.mnemonic = mnemonic

end CastOperator

inductive IntPredicate where
  | eq
  | ne
  | ugt
  | uge
  | ult
  | ule
  | sgt
  | sge
  | slt
  | sle
deriving DecidableEq, Repr

namespace IntPredicate

def mnemonic : IntPredicate → String
  | .eq => "eq"
  | .ne => "ne"
  | .ugt => "ugt"
  | .uge => "uge"
  | .ult => "ult"
  | .ule => "ule"
  | .sgt => "sgt"
  | .sge => "sge"
  | .slt => "slt"
  | .sle => "sle"

def all : List IntPredicate :=
  [.eq, .ne, .ugt, .uge, .ult, .ule, .sgt, .sge, .slt, .sle]

def ofMnemonic? (mnemonic : String) : Option IntPredicate :=
  all.find? fun predicate => predicate.mnemonic = mnemonic

end IntPredicate

/-- Ordered predicates are false on a NaN and unordered ones are true. -/
inductive FloatPredicate where
  | never
  | oeq
  | ogt
  | oge
  | olt
  | ole
  | one
  | ord
  | ueq
  | ugt
  | uge
  | ult
  | ule
  | une
  | uno
  | always
deriving DecidableEq, Repr

namespace FloatPredicate

def mnemonic : FloatPredicate → String
  | .never => "false"
  | .oeq => "oeq"
  | .ogt => "ogt"
  | .oge => "oge"
  | .olt => "olt"
  | .ole => "ole"
  | .one => "one"
  | .ord => "ord"
  | .ueq => "ueq"
  | .ugt => "ugt"
  | .uge => "uge"
  | .ult => "ult"
  | .ule => "ule"
  | .une => "une"
  | .uno => "uno"
  | .always => "true"

def all : List FloatPredicate :=
  [.never, .oeq, .ogt, .oge, .olt, .ole, .one, .ord, .ueq, .ugt, .uge, .ult,
    .ule, .une, .uno, .always]

def ofMnemonic? (mnemonic : String) : Option FloatPredicate :=
  all.find? fun predicate => predicate.mnemonic = mnemonic

end FloatPredicate

end FormCompiler.Ir
