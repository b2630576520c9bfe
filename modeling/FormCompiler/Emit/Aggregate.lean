import FormCompiler.Emit.Storage

/-!
# Arrays, structs, unions, sums and literals

Aggregates live in memory: making one gives a pointer to a stack slot that is
filled part by part.  A sum is reached through its tag, which is its first
field, and through byte offsets into its payload.
-/

namespace FormCompiler

open Ir

/-! ## Arrays -/

/-- The element type of the array that a pointer type points to. -/
def arrayElement? (table : TypeTable) (type : TypeId) : Option TypeId :=
  (table.pointee? type).bind fun pointee =>
    match table.kind pointee with
    | .array element _ => some element
    | _ => none

/-- `(index %d ElemT %base %i)`: the address of an element. -/
def emitIndex (items : List Form) : Handler Unit := do
  let shape := "(index %d ElemT %base %i)"
  expectLength items 5 shape
  let destination ← nameAt items 1 shape
  let element ← typeOf (← itemAt items 2 shape)
  let base ← valueOf (← itemAt items 3 shape)
  if arrayElement? (← types) base.type ≠ some element then
    let found ← spelling base.type
    let wanted ← spelling element
    throw (.typeMismatch s!"index of {found} as {wanted}")
  let word ← TypeTable.int 32
  let index ← operand (← itemAt items 4 shape) word
  if !(← types).isInt index.type then
    throw (.typeMismatch "array index is not an integer")
  let zero ← Builder.constantI32 0
  let address ← orFail (.unresolved destination)
    (← Builder.elementPointer base [zero, index] destination)
  define destination address address.type

/-- Stores values into the elements of an array from a position on. -/
def storeElements (array zero : Value) (name : String) :
    (index : Nat) → List Value → Emission Unit
  | _, [] => pure ()
  | index, value :: values => do
      let position ← Builder.constantI32 (min index 0x7FFFFFFF : Nat)
      match ← Builder.elementPointer array [zero, position]
          s!"{name}.elem{index}.addr" with
      | some address => Builder.store value address
      | none => pure ()
      storeElements array zero name (index + 1) values

/-- `(array-lit %d ElemT n [%e..])` -/
def emitArrayLiteral (items : List Form) : Handler Unit := do
  let shape := "(array-lit %d ElemT n [%e..])"
  expectLength items 5 shape
  let destination ← nameAt items 1 shape
  let element ← typeOf (← itemAt items 2 shape)
  let length ← orFail (.malformed shape)
    (arrayLength? (← itemAt items 3 shape))
  let elements ← vectorAt items 4 shape
  if length = 0 ∨ elements.length ≠ length then throw (.malformed shape)
  let values ← elements.mapM fun form =>
    typedOperand form element "array element"
  let pointer ←
    Builder.alloca (← TypeTable.array element length) destination
  let zero ← Builder.constantI32 0
  storeElements pointer zero destination 0 values
  define destination pointer pointer.type

/-! ## Structs and unions -/

/-- The pointer that a name stands for, which must point to an aggregate. -/
def aggregateBase (form : Form) (aggregate : TypeId) : Handler Value := do
  let base ← valueOf form
  if (← pointeeOf? base) ≠ some aggregate then
    mismatch "aggregate base" (← TypeTable.pointer aggregate) base.type
  pure base

def structLayout (name : String) : Handler StructLayout := do
  orFail (.unknownLayout name) ((← read).layouts.structs.find? name)

/-- Position and type of a field of a struct. -/
def structField (layout : StructLayout) (name field : String) :
    Handler (Nat × TypeId) :=
  orFail (.unknownLayout s!"{name}.{field}") (layout.field? field)

/-- The fields that a struct literal names, with their positions and
values. -/
def literalFields (layout : StructLayout) (name shape : String) :
    List Form → Handler (List (String × Nat × Value))
  | fieldForm :: valueForm :: rest => do
      let field ← orFail (.malformed shape) fieldForm.name?
      let (index, type) ← structField layout name field
      let value ← typedOperand valueForm type "struct field"
      pure ((field, index, value) :: (← literalFields layout name shape rest))
  | _ => pure []

/-- Stores values into fields of a struct. -/
def storeFields (struct : Value) (name : String) :
    List (String × Nat × Value) → Emission Unit
  | [] => pure ()
  | (field, index, value) :: fields => do
      match ← Builder.fieldPointer struct index s!"{name}.{field}.addr" with
      | some address => Builder.store value address
      | none => pure ()
      storeFields struct name fields

/-- `(struct-lit %d S [field %v ..])`.  Fields that are not named stay
undefined. -/
def emitStructLiteral (items : List Form) : Handler Unit := do
  let shape := "(struct-lit %d S [field %v ..])"
  expectLength items 4 shape
  let destination ← nameAt items 1 shape
  let name ← itemSymbolAt items 2 shape
  let pairs ← vectorAt items 3 shape
  if pairs.length % 2 ≠ 0 then throw (.malformed shape)
  let layout ← structLayout name
  let fields ← literalFields layout name shape pairs
  let pointer ← Builder.alloca layout.type destination
  storeFields pointer destination fields
  define destination pointer pointer.type

/-- The address of a field, with the type of the field. -/
def memberAddress (items : List Form) (shape addressName : String) :
    Handler (Value × TypeId) := do
  let name ← itemSymbolAt items 2 shape
  let field ← itemSymbolAt items 4 shape
  let layout ← structLayout name
  let (index, type) ← structField layout name field
  let base ← aggregateBase (← itemAt items 3 shape) layout.type
  let address ← orFail (.unknownLayout name)
    (← Builder.fieldPointer base index addressName)
  pure (address, type)

/-- `(member %d S %base field)`: the value of a field. -/
def emitMember (items : List Form) : Handler Unit := do
  let shape := "(member %d S %base field)"
  expectLength items 5 shape
  let destination ← nameAt items 1 shape
  let (address, type) ← memberAddress items shape s!"{destination}.addr"
  let value ← orFail (.unresolved destination)
    (← Builder.load address destination)
  define destination value type

/-- `(member-addr %d S %base field)`: the address of a field. -/
def emitMemberAddress (items : List Form) : Handler Unit := do
  let shape := "(member %d S %base field)"
  expectLength items 5 shape
  let destination ← nameAt items 1 shape
  let (address, _) ← memberAddress items shape destination
  define destination address address.type

/-- `(union-member %d U %p field)`: the storage of a union, read as a
field. -/
def emitUnionMember (items : List Form) : Handler Unit := do
  let shape := "(union-member %d U %p field)"
  expectLength items 5 shape
  let destination ← nameAt items 1 shape
  let name ← itemSymbolAt items 2 shape
  let field ← itemSymbolAt items 4 shape
  let layout ← orFail (.unknownLayout name)
    ((← read).layouts.unions.find? name)
  let type ← orFail (.unknownLayout s!"{name}.{field}") (layout.field? field)
  let base ← aggregateBase (← itemAt items 3 shape) layout.type
  let storage ← orFail (.unknownLayout name)
    (← Builder.fieldPointer base 0 s!"{destination}.ustorage.addr")
  let pointer ← Builder.bitcast storage (← TypeTable.pointer type)
    s!"{destination}.cast"
  let value ← orFail (.unresolved destination)
    (← Builder.load pointer destination)
  define destination value type

/-! ## Sums -/

/-- A sum and one of its variants, by the names at two positions. -/
def sumVariant (items : List Form) (sumAt variantAt : Nat) (shape : String) :
    Handler (SumLayout × Variant) := do
  let sum ← nameAt items sumAt shape
  let name ← nameAt items variantAt shape
  let layout ← orFail (.unknownLayout sum) ((← read).layouts.sums.find? sum)
  let variant ← orFail (.unknownLayout s!"{sum}.{name}") (layout.variant? name)
  pure (layout, variant)

/-- Offset and type of a field of a variant. -/
def payloadField (variant : Variant) (index : Nat) :
    Handler (Nat × TypeId) := do
  let name := variant.name
  orFail (.unknownLayout s!"{name}.{index}") (variant.field? (← types) index)

/-- The address of a field in a payload. -/
def payloadPointer (payload : Value) (offset : Nat) (type : TypeId)
    (name : String) : Emission (Option Value) := do
  match ← Builder.bytePointer payload offset s!"{name}.raw" with
  | some raw =>
      some <$> Builder.bitcast raw (← TypeTable.pointer type) s!"{name}.ptr"
  | none => pure none

/-- A pointer to a sum. -/
def sumOperand (form : Form) (layout : SumLayout) (what : String) :
    Handler Value := do
  let value ← valueOf form
  expectType what (← TypeTable.pointer layout.type) value.type
  pure value

/-- Stores the fields of a variant from a position on. -/
def storePayload (payload : Value) (variant : Variant) (name : String) :
    (index : Nat) → List Form → Handler Unit
  | _, [] => pure ()
  | index, form :: forms => do
      let (offset, type) ← payloadField variant index
      let value ← typedOperand form type "payload field"
      let pointer ← orFail (.malformed "payload offset")
        (← payloadPointer payload offset type s!"{name}.fld{index}")
      Builder.store value pointer
      storePayload payload variant name (index + 1) forms

/-- `(sum-new %d S V [%v..])` -/
def emitSumNew (items : List Form) : Handler Unit := do
  let shape := "(sum-new %d S V [%v..])"
  expectLength items 5 shape
  let destination ← nameAt items 1 shape
  let (layout, variant) ← sumVariant items 2 3 shape
  let fields ← vectorAt items 4 shape
  let arity := variant.fields.length
  let count := fields.length
  if count ≠ arity then
    let name := variant.name
    throw (.typeMismatch s!"variant `{name}` takes {arity} fields, got {count}")
  let sum ← Builder.alloca layout.type destination
  let tagAddress ← orFail (.malformed shape)
    (← Builder.fieldPointer sum 0 s!"{destination}.tag.addr")
  Builder.store (← Builder.constantI32 variant.tag) tagAddress
  if !fields.isEmpty then
    let payload ← orFail (.malformed shape)
      (← Builder.fieldPointer sum 1 s!"{destination}.payload.addr")
    storePayload payload variant destination 0 fields
  define destination sum (← TypeTable.pointer layout.type)

/-- `(sum-is %d S %val V)` -/
def emitSumIs (items : List Form) : Handler Unit := do
  let shape := "(sum-is %d S %val V)"
  expectLength items 5 shape
  let destination ← nameAt items 1 shape
  let (layout, variant) ← sumVariant items 2 4 shape
  let sum ← sumOperand (← itemAt items 3 shape) layout "sum value"
  let tagAddress ← orFail (.malformed shape)
    (← Builder.fieldPointer sum 0 s!"{destination}.tag.addr")
  let tag ← orFail (.malformed shape)
    (← Builder.load tagAddress s!"{destination}.tag")
  let expected ← Builder.constantI32 variant.tag
  let hit ← Builder.compareInt .eq tag expected destination
  define destination hit (← TypeTable.int 1)

/-- `(sum-get %d S %val V idx)`.  The tag is not looked at. -/
def emitSumGet (items : List Form) : Handler Unit := do
  let shape := "(sum-get %d S %val V idx)"
  expectLength items 6 shape
  let destination ← nameAt items 1 shape
  let index ← orFail (.malformed shape)
    (arrayLength? (← itemAt items 5 shape))
  let (layout, variant) ← sumVariant items 2 4 shape
  let (offset, type) ← payloadField variant index
  let sum ← sumOperand (← itemAt items 3 shape) layout "sum value"
  let payload ← orFail (.malformed shape)
    (← Builder.fieldPointer sum 1 s!"{destination}.payload.addr")
  let pointer ← orFail (.malformed "payload offset")
    (← payloadPointer payload offset type destination)
  let value ← orFail (.malformed shape) (← Builder.load pointer destination)
  define destination value type

/-! ## Literals -/

/-- Gives a name the address of a shared literal. -/
def defineLiteral (destination : String) (literal : Literal) :
    Handler Unit := do
  let (id, literals) ← (← get).literals.intern literal
  modify fun state => { state with literals }
  let array ← Builder.globalAddress id
  let zero ← Builder.constantI32 0
  let pointer ← orFail (.unresolved destination)
    (← Builder.elementPointer array [zero, zero] destination)
  define destination pointer pointer.type

/-- `(cstr %d "text")` -/
def emitTextLiteral (items : List Form) : Handler Unit := do
  let shape := "(cstr %d \"text\")"
  expectLength items 3 shape
  let destination ← nameAt items 1 shape
  let text ← orFail (.malformed shape) (← itemAt items 2 shape).string?
  defineLiteral destination (.ofText text)

/-- A byte between 0 and 255. -/
def byte? (form : Form) : Option UInt8 :=
  form.int?.bind fun value =>
    if 0 ≤ value ∧ value ≤ 255 then some (UInt8.ofNat value.toInt.toNat)
    else none

/-- `(bytes %d [b..])` -/
def emitBytesLiteral (items : List Form) : Handler Unit := do
  let shape := "(bytes %d [0..255 ..])"
  expectLength items 3 shape
  let destination ← nameAt items 1 shape
  let elements ← vectorAt items 2 shape
  let contents ← orFail (.malformed shape) (elements.mapM byte?)
  defineLiteral destination (.ofBytes contents)

end FormCompiler
