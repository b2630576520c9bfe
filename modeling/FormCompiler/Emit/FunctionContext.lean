import FormCompiler.Form.Basic
import FormCompiler.Ir.Module
import FormCompiler.Emit.NameMap

/-!
# Names and scopes of a function

Names have values and types.  A name may be backed by stack slots, one for
each scope that declared it: the innermost slot is the authority for the name
until its scope is left, and then the slot around it is again.  A name whose
last slot goes is forgotten.
-/

namespace FormCompiler

/-- A slot and the depth of the scope that owns it. -/
structure ScopedSlot where
  depth : Nat
  slot : Ir.Value
  type : TypeId
deriving Repr, Inhabited

/-- Where `break` and `continue` lead. -/
structure LoopTargets where
  breakTo : Ir.BlockId
  continueTo : Ir.BlockId
deriving DecidableEq, Repr

/-- What happens to a name in the course of a function. -/
inductive NameEvent where
  /-- An instruction gave the name its result. -/
  | published (name : String)
  | slotted (name : String)
deriving DecidableEq, Repr

structure FunctionContext where
  values : NameMap Ir.Value := {}
  types : NameMap TypeId := {}
  /-- From the name that initialized a variable to the variable. -/
  aliases : NameMap String := {}
  /-- Slots of a name, the innermost first.  No stack is empty. -/
  slotStacks : NameMap (List ScopedSlot) := {}
  /-- Forms that define comparisons and bitwise operations. -/
  definitions : NameMap Form := {}
  mutableNames : List String := []
  depth : Nat := 0
  /-- The innermost first. -/
  loops : List LoopTargets := []
  nextId : Nat := 0
  /-- In the order in which they happened. -/
  history : List NameEvent := []

namespace FunctionContext

def ofMutableNames (mutableNames : List String) : FunctionContext :=
  { mutableNames }

def value? (context : FunctionContext) (name : String) : Option Ir.Value :=
  context.values.find? name

def type? (context : FunctionContext) (name : String) : Option TypeId :=
  context.types.find? name

def alias? (context : FunctionContext) (name : String) : Option String :=
  context.aliases.find? name

def definition? (context : FunctionContext) (name : String) : Option Form :=
  context.definitions.find? name

def isMutable (context : FunctionContext) (name : String) : Bool :=
  context.mutableNames.contains name

/-- The innermost slot of a name. -/
def innermost? (context : FunctionContext) (name : String) :
    Option ScopedSlot :=
  (context.slotStacks.find? name).bind List.head?

def slot? (context : FunctionContext) (name : String) : Option Ir.Value :=
  (context.innermost? name).map ScopedSlot.slot

/-- The slot of a name that the current scope owns. -/
def ownSlot? (context : FunctionContext) (name : String) : Option Ir.Value :=
  ((context.innermost? name).filter fun entry =>
    entry.depth == context.depth).map ScopedSlot.slot

def bind (context : FunctionContext) (name : String) (value : Ir.Value)
    (type : TypeId) : FunctionContext :=
  { context with
    values := context.values.insert name value
    types := context.types.insert name type }

/-- Gives a name the result of an instruction. -/
def publish (context : FunctionContext) (name : String) (value : Ir.Value)
    (type : TypeId) : FunctionContext :=
  { context.bind name value type with
    history := context.history ++ [.published name] }

def setAlias (context : FunctionContext) (initial target : String) :
    FunctionContext :=
  { context with aliases := context.aliases.insert initial target }

def recordDefinition (context : FunctionContext) (name : String)
    (form : Form) : FunctionContext :=
  { context with definitions := context.definitions.insert name form }

/-- Makes a slot the authority for a name in the current scope. -/
def pushSlot (context : FunctionContext) (name : String) (slot : Ir.Value)
    (type : TypeId) : FunctionContext :=
  { context with
    slotStacks := context.slotStacks.insert name
      (⟨context.depth, slot, type⟩ ::
        (context.slotStacks.find? name).getD [])
    types := context.types.insert name type
    history := context.history ++ [.slotted name] }

/-- Enters a scope. -/
def enterScope (context : FunctionContext) : FunctionContext :=
  { context with depth := context.depth + 1 }

/-- Removes the slots of one name that are owned by scopes below a depth, and
what only they were known by. -/
def unwindName (depth : Nat) (name : String) (context : FunctionContext) :
    FunctionContext :=
  let stack := (context.slotStacks.find? name).getD []
  let kept := stack.dropWhile fun entry => depth < entry.depth
  if kept.length = stack.length then context
  else
    match kept with
    | outer :: _ =>
        { context with
          slotStacks := context.slotStacks.insert name kept
          types := context.types.insert name outer.type }
    | [] =>
        { context with
          slotStacks := context.slotStacks.erase name
          types := context.types.erase name
          values := context.values.erase name }

/-- Leaves every scope below a depth. -/
def unwindTo (context : FunctionContext) (depth : Nat) : FunctionContext :=
  { context.slotStacks.names.foldl
      (fun context name => context.unwindName depth name) context with depth }

def pushLoop (context : FunctionContext) (targets : LoopTargets) :
    FunctionContext :=
  { context with loops := targets :: context.loops }

def popLoop (context : FunctionContext) : FunctionContext :=
  { context with loops := context.loops.tail }

def innermostLoop? (context : FunctionContext) : Option LoopTargets :=
  context.loops.head?

end FunctionContext

end FormCompiler
