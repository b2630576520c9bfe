import FormCompiler.Text.Affix
import FormCompiler.Emit.Opcode
import FormCompiler.Emit.Emission

/-!
# Resolution of names

A name with a slot is read from the slot.  A name that initialized a variable
stands for the variable, and so does a temporary made from such a name.  Any
other name is the last value bound to it.
-/

namespace FormCompiler

open Ir

/-- Endings of temporaries that are made from a name. -/
def temporaryEndings : List String :=
  [".cst.load", ".load", ".cst.tmp", ".tmp"]

/-- The name that a temporary is made from. -/
def temporaryBase? (name : String) : Option String :=
  temporaryEndings.findSome? fun ending => dropEnding? ending name

/-- The first of two searches that finds something. -/
def orElseFind {Result : Type} (first second : Emission (Option Result)) :
    Emission (Option Result) := do
  match ← first with
  | some result => pure (some result)
  | none => second

/-- Loads a name from its slot. -/
def loadSlot (name : String) : Emission (Option Value) := do
  match (← context).slot? name with
  | some slot => Builder.load slot name
  | none => pure none

/-- The last value bound to a name. -/
def boundValue (name : String) : Emission (Option Value) := do
  pure ((← context).value? name)

/-- Reads the variable that a name initialized. -/
def readAliased (initial : String) : Emission (Option Value) := do
  match (← context).alias? initial with
  | some target => orElseFind (loadSlot target) (boundValue target)
  | none => pure none

/-- The value of a name. -/
def getValue (name : String) : Emission (Option Value) :=
  orElseFind (loadSlot name) <|
  orElseFind (readAliased name) <|
  orElseFind
    (match temporaryBase? name with
      | some base => readAliased base
      | none => pure none)
    (boundValue name)

/-- The value of an operand that must be a name. -/
def valueOf (form : Form) : Handler Value := do
  let name ← orFail (.malformed "%name") (localName? form)
  orFail (.unresolved name) (← getValue name)

/-- An operand for a type: a literal, or a name of any type. -/
def operand (form : Form) (type : TypeId) : Handler Value := do
  let table ← types
  match form with
  | .atom _ (.int value) =>
      if table.isFloat type then
        Builder.constantFloat type (.ofInt value.toInt)
      else Builder.constantInt type value.toInt
  | .atom _ (.float value) => Builder.constantFloat type value
  | .atom _ (.bool value) =>
      Builder.constantInt type (if value then 1 else 0)
  | .atom _ .nil =>
      if table.isPointer type then Builder.constantZero type
      else valueOf form
  | _ => valueOf form

/-- An operand that must have a type. -/
def typedOperand (form : Form) (type : TypeId) (what : String) :
    Handler Value := do
  let value ← operand form type
  let what :=
    match localName? form with
    | some name => s!"{what} `{name}`"
    | none => what
  expectType what type value.type
  pure value

/-- The type that a pointer value points to. -/
def pointeeOf? (value : Value) : Emission (Option TypeId) := do
  pure ((← types).pointee? value.type)

/-- The slot of a name, made in the first block where there is none.  A new
slot may start with the value of the name. -/
def ensureSlot (name : String) (type : TypeId) (seeded : Bool) :
    Emission Value := do
  match (← context).slot? name with
  | some slot => pure slot
  | none =>
      let slot ← Builder.entryAlloca type s!"{name}.slot"
      match (← context).value? name with
      | some value =>
          if seeded && value.type == type then Builder.store value slot
      | none => pure ()
      modifyContext (·.pushSlot name slot type)
      pure slot

/-- A slot of a name that the current scope owns. -/
def declareSlot (name : String) (type : TypeId) : Emission Value := do
  let table ← types
  let own := ((← context).ownSlot? name).filter fun slot =>
    table.pointee? slot.type == some type
  match own with
  | some slot => pure slot
  | none =>
      let slot ← Builder.entryAlloca type s!"{name}.slot"
      modifyContext (·.pushSlot name slot type)
      pure slot

/-- Gives a name its value.  The value of a mutable name is also stored in
its slot. -/
def define (name : String) (value : Value) (type : TypeId) :
    Handler Unit := do
  modifyContext (·.publish name value type)
  if (← context).isMutable name then
    let slot ← ensureSlot name type false
    match ← pointeeOf? slot with
    | some expected =>
        expectType s!"store to `{name}`" expected value.type
        Builder.store value slot
    | none => throw (.unresolved name)

/-- Compares two values as the spelling of their type says. -/
def buildComparison (comparison : Comparison) (typeForm : Form)
    (left right : Value) (name : String) : Emission Value := do
  if (← types).isFloat left.type then
    Builder.compareFloat comparison.floatPredicate left right name
  else
    Builder.compareInt (comparison.intPredicate (isUnsigned typeForm))
      left right name

/-- Whether an operator works on bits, so that a condition made by it is
computed anew. -/
def isBitwise : BinaryOperator → Bool
  | .and | .or | .xor => true
  | _ => false

/-- Computes the form that defines a name once more in the current block. -/
def recompute (name : String) (form : Form) : Handler (Option Value) := do
  match form.list? with
  | some [_, _, typeForm, leftForm, rightForm] =>
      let type ← typeOf typeForm
      let left ← operand leftForm type
      let right ← operand rightForm type
      let result := s!"{name}.re"
      match form.head?.bind Opcode.ofHead? with
      | some (.comparison comparison) =>
          some <$> buildComparison comparison typeForm left right result
      | some (.binary operator) =>
          if isBitwise operator then
            some <$> Builder.binary operator left right result
          else pure none
      | _ => pure none
  | _ => pure none

/-- The value that a comparison or a bitwise operation has now. -/
def recomputed (name : String) : Emission (Option Value) := do
  match (← context).definition? name with
  | some form => pure ((← attempt (recompute name form)).bind id)
  | none => pure none

end FormCompiler
