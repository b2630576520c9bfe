import FormCompiler.Types.Table
import FormCompiler.Form.Printer
import FormCompiler.Emit.Shape

/-!
# Type forms

A type is written as the name of a scalar, as a list that builds a pointer, an
array or a function type, or as the name of a struct.  Integers are spelled
signed or unsigned, but signedness is not part of the type.  Naming a struct
creates it without a body.
-/

namespace FormCompiler

/-- The name under which a declared struct stands in the type table. -/
def structTypeName (name : String) : String := "struct." ++ name

/-- The unsigned spellings of integer types. -/
def isUnsigned (form : Form) : Bool :=
  match form.symbol? with
  | some name => ["u8", "u16", "u32", "u64"].contains name
  | none => false

/-- The type that a symbol stands for. -/
def symbolType (name : String) : StateM TypeTable TypeId :=
  match name with
  | "void" => TypeTable.void
  | "i1" => TypeTable.int 1
  | "i8" => TypeTable.int 8
  | "u8" => TypeTable.int 8
  | "i16" => TypeTable.int 16
  | "u16" => TypeTable.int 16
  | "i32" => TypeTable.int 32
  | "u32" => TypeTable.int 32
  | "i64" => TypeTable.int 64
  | "u64" => TypeTable.int 64
  | "f32" => TypeTable.float
  | "f64" => TypeTable.double
  | name => TypeTable.named (structTypeName name)

/-- Types are added to the table while a type form is read; those added
before a fault stay. -/
abbrev TypeReader := ExceptT ProblemCause (StateM TypeTable)

/-- A part of a type form that must be there. -/
def typePart {Part : Type} (form : Form) : Option Part → TypeReader Part
  | some part => pure part
  | none => throw (.unknownType form.text)

/-- A pointer; a pointer to nothing is a pointer to bytes. -/
def pointerTo (pointee : TypeId) : StateM TypeTable TypeId := do
  if (← get).isVoid pointee then TypeTable.bytePointer
  else TypeTable.pointer pointee

/-- The length of an array. -/
def arrayLength? (form : Form) : Option Nat :=
  form.int?.bind fun length =>
    if length < 0 then none else some length.toInt.toNat

/-- Reads a type form that nests at most `depth` levels. -/
def readTypeWithin : (depth : Nat) → Form → TypeReader TypeId
  | 0, form => throw (.unknownType form.text)
  | depth + 1, form =>
      match form.symbol? with
      | some name => symbolType name
      | none => do
          let items ← typePart form form.list?
          let arguments := KeywordArguments.ofItems items.tail
          match form.head? with
          | some "ptr" =>
              let target ←
                match items with
                | [_, target] => pure target
                | _ => typePart form (arguments.get? "to")
              pointerTo (← readTypeWithin depth target)
          | some "struct-ref" =>
              let name ← typePart form (items[1]?.bind Tree.name?)
              TypeTable.named (structTypeName name)
          | some "array" =>
              let element ← readTypeWithin depth
                (← typePart form (arguments.get? "elem"))
              let length ← typePart form
                ((arguments.get? "size").bind arrayLength?)
              TypeTable.array element length
          | some "fn-type" =>
              let result ←
                match arguments.get? "ret" with
                | some result => readTypeWithin depth result
                | none => TypeTable.void
              let parameters ← ((arguments.vector? "params").getD []).mapM
                (readTypeWithin depth)
              TypeTable.function result parameters (arguments.flag "variadic")
          | _ => throw (.unknownType form.text)

/-- Reads a type form. -/
def readType (form : Form) : TypeReader TypeId :=
  readTypeWithin form.height form

end FormCompiler
