import FormCompiler.Types.Size
import FormCompiler.Emit.NameMap
import FormCompiler.Emit.TypeForm

/-!
# Layouts of declared aggregates

A struct has its fields in order.  A sum is a tag of 32 bits and a payload of
bytes, as large as its largest variant and never empty; the fields of a
variant lie back to back in it.  A union is a payload of bytes, as large as
its largest field and never empty.

All names are entered in the type table before any body is read, so
declarations may refer to each other in any order.  Structs get their bodies
first, because sizes of sums and unions depend on them.
-/

namespace FormCompiler

structure Field where
  name : String
  type : TypeId
deriving DecidableEq, Repr

structure StructLayout where
  type : TypeId
  fields : List Field
deriving Repr

/-- Position and type of a field. -/
def StructLayout.field? (layout : StructLayout) (name : String) :
    Option (Nat × TypeId) :=
  (layout.fields.findIdx? fun field => field.name = name).bind fun index =>
    layout.fields[index]?.map fun field => (index, field.type)

structure Variant where
  name : String
  tag : Nat
  fields : List TypeId
deriving Repr

namespace Variant

/-- The bytes that some fields take back to back. -/
def packedSize (table : TypeTable) (fields : List TypeId) : Nat :=
  fields.foldl (fun total type => total + table.size type) 0

/-- Offset in the payload and type of a field. -/
def field? (variant : Variant) (table : TypeTable) (index : Nat) :
    Option (Nat × TypeId) :=
  variant.fields[index]?.map fun type =>
    (packedSize table (variant.fields.take index), type)

def payloadSize (variant : Variant) (table : TypeTable) : Nat :=
  packedSize table variant.fields

end Variant

structure SumLayout where
  type : TypeId
  variants : List Variant
deriving Repr

namespace SumLayout

def variant? (layout : SumLayout) (name : String) : Option Variant :=
  layout.variants.find? fun variant => variant.name = name

def variantNames (layout : SumLayout) : List String :=
  layout.variants.map Variant.name

end SumLayout

structure UnionLayout where
  type : TypeId
  fields : List Field
deriving Repr

def UnionLayout.field? (layout : UnionLayout) (name : String) :
    Option TypeId :=
  (layout.fields.find? fun field => field.name = name).map Field.type

structure Layouts where
  structs : NameMap StructLayout := {}
  sums : NameMap SumLayout := {}
  unions : NameMap UnionLayout := {}
deriving Repr

inductive AggregateKind where
  | struct
  | sum
  | union
deriving DecidableEq, Repr

namespace AggregateKind

def head : AggregateKind → String
  | .struct => "struct"
  | .sum => "sum"
  | .union => "union"

def ofHead? (head : String) : Option AggregateKind :=
  [struct, sum, union].find? fun kind => kind.head = head

end AggregateKind

/-- The declaration of a named aggregate. -/
structure Declaration where
  kind : AggregateKind
  name : String
  arguments : KeywordArguments
  span : Option Span

/-- A problem outside of functions. -/
def moduleProblem (operation : String) (span : Option Span)
    (cause : ProblemCause) : Problem :=
  ⟨"", operation, cause, span⟩

/-- Reads the head and the name of an aggregate; other forms are none. -/
def Declaration.ofForm? (form : Form) : Option (Except Problem Declaration) :=
  (form.head?.bind AggregateKind.ofHead?).map fun kind =>
    let arguments := KeywordArguments.ofForm form
    match arguments.symbol? "name" with
    | some name => .ok ⟨kind, name, arguments, form.span?⟩
    | none =>
        .error (moduleProblem kind.head form.span?
          (.malformed "(.. :name N ..)"))

/-- A part of a form that must be there. -/
def shaped {Part : Type} (shape : String) : Option Part → TypeReader Part
  | some part => pure part
  | none => throw (.malformed shape)

/-- The arguments of a list form with a given head. -/
def argumentsUnder? (head : String) (form : Form) : Option KeywordArguments :=
  if form.head? = some head then some (.ofForm form) else none

def fieldShape : String := "(.. :fields [(field :name f :type T)..])"

/-- Reads `(head :name f :type T)`. -/
def readField (head : String) (form : Form) : TypeReader Field := do
  let arguments ← shaped fieldShape (argumentsUnder? head form)
  let name ← shaped fieldShape (arguments.symbol? "name")
  let type ← readType (← shaped fieldShape (arguments.get? "type"))
  pure ⟨name, type⟩

/-- Reads the fields of a struct or a union. -/
def readFields (arguments : KeywordArguments) (head : String) :
    TypeReader (List Field) :=
  ((arguments.vector? "fields").getD []).mapM (readField head)

def sumShape : String :=
  "(sum :name S :variants [(variant :name V :fields [T..])..])"

/-- Reads `(variant :name V :fields [T..])`.  A tag is no more than a signed
number of 32 bits. -/
def readVariant (tag : Nat) (form : Form) : TypeReader Variant := do
  let arguments ← shaped sumShape (argumentsUnder? "variant" form)
  let name ← shaped sumShape (arguments.symbol? "name")
  let fields ← ((arguments.vector? "fields").getD []).mapM readType
  if tag < 0x80000000 then pure ⟨name, tag, fields⟩
  else throw (.malformed sumShape)

/-- Reads variants, whose tags count from a start. -/
def readVariants : (tag : Nat) → List Form → TypeReader (List Variant)
  | _, [] => pure []
  | tag, form :: forms => do
      let variant ← readVariant tag form
      pure (variant :: (← readVariants (tag + 1) forms))

/-- The greatest of some sizes, and at least one. -/
def storageSize (sizes : List Nat) : Nat := sizes.foldl max 1

/-- Gives a declared aggregate its body. -/
def complete (name : String) (body : List TypeId) :
    StateM TypeTable TypeId := do
  let type ← TypeTable.named (structTypeName name)
  TypeTable.setBody type body
  pure type

def readStruct (declaration : Declaration) : TypeReader StructLayout := do
  let fields ← readFields declaration.arguments "field"
  let type ← complete declaration.name (fields.map Field.type)
  pure ⟨type, fields⟩

def readSum (declaration : Declaration) : TypeReader SumLayout := do
  let variants ←
    readVariants 0 ((declaration.arguments.vector? "variants").getD [])
  let table ← get
  let size := storageSize (variants.map fun variant =>
    variant.payloadSize table)
  let tag ← TypeTable.int 32
  let payload ← TypeTable.array (← TypeTable.int 8) size
  let type ← complete declaration.name [tag, payload]
  pure ⟨type, variants⟩

def readUnion (declaration : Declaration) : TypeReader UnionLayout := do
  let fields ← readFields declaration.arguments "ufield"
  let table ← get
  let size := storageSize (fields.map fun field => table.size field.type)
  let payload ← TypeTable.array (← TypeTable.int 8) size
  let type ← complete declaration.name [payload]
  pure ⟨type, fields⟩

/-- Layouts and the problems met on the way, with the type table. -/
structure LayoutState where
  table : TypeTable
  layouts : Layouts := {}
  /-- In the order in which they were met. -/
  problems : List Problem := []

namespace LayoutState

/-- Reads the layout of one declaration and enters it, or its problem. -/
def enter {Layout : Type} (declaration : Declaration)
    (reader : TypeReader Layout) (add : Layouts → Layout → Layouts)
    (state : LayoutState) : LayoutState :=
  let (result, table) := reader.run state.table
  match result with
  | .ok layout => { state with table, layouts := add state.layouts layout }
  | .error cause =>
      { state with
        table
        problems := state.problems ++
          [moduleProblem declaration.kind.head declaration.span cause] }

/-- Reads a struct; other declarations wait. -/
def enterStruct (state : LayoutState) (declaration : Declaration) :
    LayoutState :=
  match declaration.kind with
  | .struct =>
      state.enter declaration (readStruct declaration)
        fun layouts layout =>
          { layouts with
            structs := layouts.structs.insert declaration.name layout }
  | .sum | .union => state

/-- Reads a sum or a union. -/
def enterTagged (state : LayoutState) (declaration : Declaration) :
    LayoutState :=
  match declaration.kind with
  | .struct => state
  | .sum =>
      state.enter declaration (readSum declaration)
        fun layouts layout =>
          { layouts with
            sums := layouts.sums.insert declaration.name layout }
  | .union =>
      state.enter declaration (readUnion declaration)
        fun layouts layout =>
          { layouts with
            unions := layouts.unions.insert declaration.name layout }

end LayoutState

/-- Enters the names of declarations in the type table. -/
def declareNames (declarations : List Declaration) :
    StateM TypeTable Unit :=
  declarations.forM fun declaration => do
    let _ ← TypeTable.named (structTypeName declaration.name)

/-- Lays out every aggregate that some forms declare. -/
def layOut (forms : List Form) (table : TypeTable) : LayoutState :=
  let found := forms.filterMap Declaration.ofForm?
  let declarations := found.filterMap fun
    | .ok declaration => some declaration
    | .error _ => none
  let problems := found.filterMap fun
    | .ok _ => none
    | .error problem => some problem
  let (_, table) := declareNames declarations table
  let structs :=
    declarations.foldl LayoutState.enterStruct { table, problems }
  declarations.foldl LayoutState.enterTagged structs

end FormCompiler
