/-!
# Interned types

A type is an index into a table of kinds, and each kind stands in the table
once, so two types are equal exactly when their indices are.  Pointers keep
the type they point to.  A named struct is its name; it has no fields until a
body is attached to it, which may happen after the struct is mentioned.
-/

namespace FormCompiler

/-- An index into a type table. -/
structure TypeId where
  index : Nat
deriving DecidableEq, Repr, Inhabited

inductive TypeKind where
  | void
  | int (bits : Nat)
  | float
  | double
  | pointer (pointee : TypeId)
  | array (element : TypeId) (length : Nat)
  | struct (fields : List TypeId)
  | named (name : String)
  | function (result : TypeId) (parameters : List TypeId) (variadic : Bool)
  | label
  | token
deriving DecidableEq, Repr

structure TypeTable where
  kinds : List TypeKind := []
  /-- Bodies of named structs, the latest first. -/
  bodies : List (TypeId × List TypeId) := []
deriving Repr

namespace TypeTable

def empty : TypeTable := {}

/-- The index of a kind that the table holds. -/
def find? (table : TypeTable) (kind : TypeKind) : Option TypeId :=
  (table.kinds.idxOf? kind).map TypeId.mk

/-- The type of a kind, which is added to the table unless it is there. -/
def intern (kind : TypeKind) : StateM TypeTable TypeId := fun table =>
  match table.find? kind with
  | some type => (type, table)
  | none =>
      (⟨table.kinds.length⟩, { table with kinds := table.kinds ++ [kind] })

def void : StateM TypeTable TypeId := intern .void

def int (bits : Nat) : StateM TypeTable TypeId := intern (.int bits)

def float : StateM TypeTable TypeId := intern .float

def double : StateM TypeTable TypeId := intern .double

def label : StateM TypeTable TypeId := intern .label

def token : StateM TypeTable TypeId := intern .token

def pointer (pointee : TypeId) : StateM TypeTable TypeId :=
  intern (.pointer pointee)

/-- The pointer to bytes, which stands for a pointer to anything. -/
def bytePointer : StateM TypeTable TypeId := do
  pointer (← int 8)

def array (element : TypeId) (length : Nat) : StateM TypeTable TypeId :=
  intern (.array element length)

def struct (fields : List TypeId) : StateM TypeTable TypeId :=
  intern (.struct fields)

def named (name : String) : StateM TypeTable TypeId := intern (.named name)

def function (result : TypeId) (parameters : List TypeId) (variadic : Bool) :
    StateM TypeTable TypeId :=
  intern (.function result parameters variadic)

def named? (table : TypeTable) (name : String) : Option TypeId :=
  table.find? (.named name)

/-- Attaches or replaces the body of a named struct. -/
def setBody (type : TypeId) (fields : List TypeId) :
    StateM TypeTable Unit := fun table =>
  ((), { table with bodies := (type, fields) :: table.bodies })

/-- The kind of a type.  An index outside the table has the kind `void`. -/
def kind (table : TypeTable) (type : TypeId) : TypeKind :=
  (table.kinds[type.index]?).getD .void

def isVoid (table : TypeTable) (type : TypeId) : Bool :=
  table.kind type == .void

def isToken (table : TypeTable) (type : TypeId) : Bool :=
  table.kind type == .token

def intWidth? (table : TypeTable) (type : TypeId) : Option Nat :=
  match table.kind type with
  | .int bits => some bits
  | _ => none

def isInt (table : TypeTable) (type : TypeId) : Bool :=
  (table.intWidth? type).isSome

def isFloat (table : TypeTable) (type : TypeId) : Bool :=
  match table.kind type with
  | .float => true
  | .double => true
  | _ => false

def pointee? (table : TypeTable) (type : TypeId) : Option TypeId :=
  match table.kind type with
  | .pointer pointee => some pointee
  | _ => none

def isPointer (table : TypeTable) (type : TypeId) : Bool :=
  (table.pointee? type).isSome

/-- The fields of a struct; a named struct without a body has none to
give. -/
def fields? (table : TypeTable) (type : TypeId) : Option (List TypeId) :=
  match table.kind type with
  | .struct fields => some fields
  | .named _ => table.bodies.lookup type
  | _ => none

def isAggregate (table : TypeTable) (type : TypeId) : Bool :=
  match table.kind type with
  | .struct _ => true
  | .named _ => true
  | .array .. => true
  | _ => false

structure Signature where
  result : TypeId
  parameters : List TypeId
  variadic : Bool
deriving DecidableEq, Repr

def signature? (table : TypeTable) (type : TypeId) : Option Signature :=
  match table.kind type with
  | .function result parameters variadic => some ⟨result, parameters, variadic⟩
  | _ => none

/-- The type that an index reaches inside an aggregate. -/
def element? (table : TypeTable) (type : TypeId) (index : Nat) :
    Option TypeId :=
  match table.kind type with
  | .array element _ => some element
  | _ => (table.fields? type).bind fun fields => fields[index]?

/-- The named structs in the order in which they were added. -/
def namedStructs (table : TypeTable) : List TypeId :=
  ((List.range table.kinds.length).map TypeId.mk).filter fun type =>
    match table.kind type with
    | .named _ => true
    | _ => false

end TypeTable

end FormCompiler
