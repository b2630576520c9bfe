import FormCompiler.Emit.Resolution

/-!
# Constants, arithmetic, comparisons and conversions
-/

namespace FormCompiler

open Ir

/-- A literal of a declared type.  What the type cannot hold is undefined. -/
def buildConstant (table : TypeTable) (type : TypeId) (literal : Form) :
    Build Value :=
  let isNumber := table.isFloat type
  let isZeroable := table.isPointer type || table.isAggregate type
  match literal with
  | .atom _ (.int value) =>
      if table.isInt type then Builder.constantInt type value.toInt
      else if isNumber then Builder.constantFloat type (.ofInt value.toInt)
      else if value = 0 && isZeroable then Builder.constantZero type
      else Builder.constantUndef type
  | .atom _ (.bool value) =>
      if table.isInt type then
        Builder.constantInt type (if value then 1 else 0)
      else Builder.constantUndef type
  | .atom _ (.float value) =>
      if isNumber then Builder.constantFloat type value
      else Builder.constantUndef type
  | .atom _ .nil =>
      if isZeroable then Builder.constantZero type
      else Builder.constantUndef type
  | .atom _ (.symbol "null") =>
      if table.isPointer type then Builder.constantZero type
      else Builder.constantUndef type
  | .atom _ (.symbol "zeroinitializer") =>
      if table.isAggregate type then Builder.constantZero type
      else Builder.constantUndef type
  | _ => Builder.constantUndef type

/-- `(const %d T lit)` -/
def emitConstant (items : List Form) : Handler Unit := do
  let shape := "(const %d T lit)"
  expectLength items 4 shape
  let destination ← nameAt items 1 shape
  let type ← typeOf (← itemAt items 2 shape)
  let literal ← itemAt items 3 shape
  let value ← buildConstant (← types) type literal
  define destination value type

/-- `(op %d T a b)`.  Bitwise operations are kept for conditions. -/
def emitBinary (operator : BinaryOperator) (items : List Form) :
    Handler Unit := do
  let shape := "(op %d T a b)"
  expectLength items 5 shape
  let destination ← nameAt items 1 shape
  let type ← typeOf (← itemAt items 2 shape)
  let table ← types
  let mnemonic := operator.mnemonic
  let fits := if operator.isFloat then table.isFloat type else table.isInt type
  if !fits then
    let spelled ← spelling type
    throw (.typeMismatch s!"`{mnemonic}` on {spelled}")
  let left ← operand (← itemAt items 3 shape) type
  let right ← operand (← itemAt items 4 shape) type
  expectType mnemonic type left.type
  expectType mnemonic type right.type
  if isBitwise operator then
    modifyContext (·.recordDefinition destination (Form.list items))
  let value ← Builder.binary operator left right destination
  define destination value type

/-- Two operands of one type. -/
def comparedOperands (leftForm rightForm : Form) (type : TypeId) :
    Handler (Value × Value) := do
  let left ← operand leftForm type
  let right ← operand rightForm type
  expectType "compare" type left.type
  expectType "compare" type right.type
  pure (left, right)

/-- Gives a name the result of a comparison. -/
def defineTruth (destination : String) (value : Value) : Handler Unit := do
  define destination value (← TypeTable.int 1)

/-- `(eq %d T a b)` and the other comparisons. -/
def emitComparison (comparison : Comparison) (items : List Form) :
    Handler Unit := do
  let shape := "(cmp %d T a b)"
  expectLength items 5 shape
  let destination ← nameAt items 1 shape
  let typeForm ← itemAt items 2 shape
  let type ← typeOf typeForm
  let (left, right) ← comparedOperands (← itemAt items 3 shape)
    (← itemAt items 4 shape) type
  modifyContext (·.recordDefinition destination (Form.list items))
  let value ← buildComparison comparison typeForm left right destination
  defineTruth destination value

/-- Destination and predicate of a form that names its predicate. -/
def predicateParts (items : List Form) (shape : String) :
    Except ProblemCause (String × String) := do
  expectLength items 7 shape
  if (← itemAt items 3 shape).keyword? ≠ some "pred" then
    throw (.malformed shape)
  let destination ← nameAt items 1 shape
  let predicate ← itemSymbolAt items 4 shape
  pure (destination, predicate)

/-- `(icmp %d T :pred p a b)` -/
def emitCompareInt (items : List Form) : Handler Unit := do
  let shape := "(icmp %d T :pred p a b)"
  let (destination, mnemonic) ← predicateParts items shape
  let predicate ← orFail (.malformed shape)
    (IntPredicate.ofMnemonic? mnemonic)
  let type ← typeOf (← itemAt items 2 shape)
  let table ← types
  if !table.isInt type && !table.isPointer type then
    let spelled ← spelling type
    throw (.typeMismatch s!"icmp on {spelled}")
  let (left, right) ← comparedOperands (← itemAt items 5 shape)
    (← itemAt items 6 shape) type
  let value ← Builder.compareInt predicate left right destination
  defineTruth destination value

/-- `(fcmp %d T :pred p a b)` -/
def emitCompareFloat (items : List Form) : Handler Unit := do
  let shape := "(fcmp %d T :pred p a b)"
  let (destination, mnemonic) ← predicateParts items shape
  let predicate ← orFail (.malformed shape)
    (FloatPredicate.ofMnemonic? mnemonic)
  let type ← typeOf (← itemAt items 2 shape)
  if !(← types).isFloat type then
    let spelled ← spelling type
    throw (.typeMismatch s!"fcmp on {spelled}")
  let (left, right) ← comparedOperands (← itemAt items 5 shape)
    (← itemAt items 6 shape) type
  let value ← Builder.compareFloat predicate left right destination
  defineTruth destination value

/-- Whether a conversion takes one type to another. -/
def canCast (table : TypeTable) (operator : CastOperator)
    (source target : TypeId) : Bool :=
  let narrower (left right : TypeId) :=
    match table.intWidth? left, table.intWidth? right with
    | some left, some right => left < right
    | _, _ => false
  match operator with
  | .zext | .sext => narrower source target
  | .trunc => narrower target source
  | .fptrunc | .fpext => table.isFloat source && table.isFloat target
  | .sitofp | .uitofp => table.isInt source && table.isFloat target
  | .fptosi | .fptoui => table.isFloat source && table.isInt target
  | .ptrtoint => table.isPointer source && table.isInt target
  | .inttoptr => table.isInt source && table.isPointer target
  | .bitcast =>
      (table.isPointer source && table.isPointer target) ||
        (!table.isAggregate source && table.size source == table.size target)

/-- Moves a constant through a stack slot, so that it becomes the result of
an instruction. -/
def throughSlot (name : String) (value : Value) : Handler Value := do
  if value.isConstant then
    let slot ← Builder.alloca value.type s!"{name}.cst.tmp"
    Builder.store value slot
    orFail (.unresolved name) (← Builder.load slot s!"{name}.cst.load")
  else pure value

/-- `(op %d T %src)` -/
def emitCast (operator : CastOperator) (items : List Form) :
    Handler Unit := do
  let shape := "(op %d T %src)"
  expectLength items 4 shape
  let destination ← nameAt items 1 shape
  let target ← typeOf (← itemAt items 2 shape)
  let sourceName ← nameAt items 3 shape
  let value ← valueOf (← itemAt items 3 shape)
  if !canCast (← types) operator value.type target then
    let mnemonic := operator.mnemonic
    let source ← spelling value.type
    let target ← spelling target
    throw (.typeMismatch s!"cannot {mnemonic} {source} to {target}")
  let value ← throughSlot sourceName value
  let result ← Builder.cast operator value target destination
  define destination result target

end FormCompiler
