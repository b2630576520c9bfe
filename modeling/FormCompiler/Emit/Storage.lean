import FormCompiler.Emit.Resolution

/-!
# Variables, memory and pointers
-/

namespace FormCompiler

open Ir

/-- Fails because of the type that a form is used with. -/
def rejectType {Result : Type} (use : String) (type : TypeId) :
    Handler Result := do
  let spelled ← spelling type
  throw (.typeMismatch s!"{use} {spelled}")

/-! ## Variables -/

/-- The value that a variable starts with, and the name it comes from. -/
def initialValue (form : Form) (type : TypeId) :
    Handler (Value × Option String) := do
  match form with
  | .atom _ (.int _) | .atom _ (.float _) | .atom _ (.bool _) =>
      pure (← operand form type, none)
  | _ =>
      match localName? form with
      | some name => pure (← valueOf form, some name)
      | none => pure (← Builder.constantUndef type, none)

/-- `(as %d T init)`: a variable of the current scope.  The name it is
initialized with stands for the variable from then on. -/
def emitVariable (items : List Form) : Handler Unit := do
  let shape := "(as %d T init)"
  expectLength items 4 shape
  let destination ← nameAt items 1 shape
  let type ← typeOf (← itemAt items 2 shape)
  let (initial, source) ← initialValue (← itemAt items 3 shape) type
  expectType s!"initializer of `{destination}`" type initial.type
  let slot ← declareSlot destination type
  Builder.store initial slot
  let value ← orFail (.unresolved destination)
    (← Builder.load slot destination)
  modifyContext (·.bind destination value type)
  match source with
  | some name =>
      if name ≠ destination then
        modifyContext fun context =>
          (context.setAlias name destination).bind name value type
  | none => pure ()

/-- `(assign %d %src)` -/
def emitAssign (items : List Form) : Handler Unit := do
  let shape := "(assign %d %src)"
  expectLength items 3 shape
  let destination ← nameAt items 1 shape
  let value ← valueOf (← itemAt items 2 shape)
  let slot ← ensureSlot destination value.type false
  let expected := (← pointeeOf? slot).getD slot.type
  expectType s!"assign to `{destination}`" expected value.type
  Builder.store value slot
  let current ← orFail (.unresolved destination)
    (← Builder.load slot destination)
  modifyContext (·.bind destination current value.type)

/-! ## Memory -/

/-- `(alloca %d T)` -/
def emitAlloca (items : List Form) : Handler Unit := do
  let shape := "(alloca %d T)"
  expectLength items 3 shape
  let destination ← nameAt items 1 shape
  let type ← typeOf (← itemAt items 2 shape)
  let pointer ← Builder.alloca type destination
  define destination pointer pointer.type

/-- Loads a value of a type through a pointer to that type. -/
def loadThrough (destination : String) (type : TypeId) (form : Form) :
    Handler Unit := do
  let pointer ← valueOf form
  if (← pointeeOf? pointer) ≠ some type then
    mismatch "load" (← TypeTable.pointer type) pointer.type
  let value ← orFail (.unresolved destination)
    (← Builder.load pointer destination)
  define destination value type

/-- `(load %d T %p)` -/
def emitLoad (items : List Form) : Handler Unit := do
  let shape := "(load %d T %p)"
  expectLength items 4 shape
  let destination ← nameAt items 1 shape
  let type ← typeOf (← itemAt items 2 shape)
  loadThrough destination type (← itemAt items 3 shape)

/-- `(deref %d T %p)` -/
def emitDereference (items : List Form) : Handler Unit := do
  let shape := "(deref %d T %p)"
  expectLength items 4 shape
  let destination ← nameAt items 1 shape
  let type ← typeOf (← itemAt items 2 shape)
  loadThrough destination type (← itemAt items 3 shape)

/-- Stores through a pointer; a declared type must be that of its target. -/
def storeThrough (declared : Option TypeId) (pointerForm valueForm : Form) :
    Handler Unit := do
  let pointer ← valueOf pointerForm
  match ← pointeeOf? pointer with
  | none => rejectType "store through" pointer.type
  | some pointee =>
      match declared with
      | some declared => expectType "store" declared pointee
      | none => pure ()
      let value ← operand valueForm pointee
      expectType "store" pointee value.type
      Builder.store value pointer

/-- `(store T %p %v)`, or `(store %p %v)` without the type. -/
def emitStore (items : List Form) : Handler Unit := do
  match items with
  | [_, typeForm, pointer, value] =>
      let type ← typeOf typeForm
      storeThrough (some type) pointer value
  | [_, pointer, value] => storeThrough none pointer value
  | _ => throw (.malformed "(store T %p %v)")

/-- The address of a global that holds a type. -/
def globalOf (form : Form) (type : TypeId) (shape : String) :
    Handler Value := do
  let name ← orFail (.malformed shape) form.name?
  let id ← orFail (.unresolved name) ((← module).global? name)
  expectType s!"global `{name}`" type ((← module).global id).type
  Builder.globalAddress id

/-- `(gload %d T G)` -/
def emitLoadGlobal (items : List Form) : Handler Unit := do
  let shape := "(gload %d T G)"
  expectLength items 4 shape
  let destination ← nameAt items 1 shape
  let type ← typeOf (← itemAt items 2 shape)
  let address ← globalOf (← itemAt items 3 shape) type shape
  let value ← orFail (.unresolved destination)
    (← Builder.load address destination)
  define destination value type

/-- `(gstore T G %v)` -/
def emitStoreGlobal (items : List Form) : Handler Unit := do
  let shape := "(gstore T G %v)"
  expectLength items 4 shape
  let type ← typeOf (← itemAt items 1 shape)
  let address ← globalOf (← itemAt items 2 shape) type shape
  let value ← operand (← itemAt items 3 shape) type
  expectType "gstore" type value.type
  Builder.store value address

/-! ## Pointers -/

/-- `(addr %d (ptr T) %src)`: the address of the slot of a name. -/
def emitAddress (items : List Form) : Handler Unit := do
  let shape := "(addr %d (ptr T) %src)"
  expectLength items 4 shape
  let destination ← nameAt items 1 shape
  let type ← typeOf (← itemAt items 2 shape)
  let source ← nameAt items 3 shape
  match (← types).pointee? type with
  | none => rejectType "addr into" type
  | some pointee =>
      let slotType := ((← context).type? source).getD pointee
      let slot ← ensureSlot source slotType true
      expectType s!"address of `{source}`" type slot.type
      define destination slot type

/-- `(ptr-add %d (ptr T) %base %off)`, and the same with the offset
negated.  Offsets count elements. -/
def emitPointerOffset (negated : Bool) (items : List Form) :
    Handler Unit := do
  let shape := "(ptr-add %d (ptr T) %base %off)"
  expectLength items 5 shape
  let destination ← nameAt items 1 shape
  let type ← typeOf (← itemAt items 2 shape)
  if !(← types).isPointer type then
    rejectType "pointer arithmetic on" type
  let base ← valueOf (← itemAt items 3 shape)
  expectType "pointer base" type base.type
  let word ← TypeTable.int 64
  let offsetForm ← itemAt items 4 shape
  let offset ← operand offsetForm word
  if !(← types).isInt offset.type then
    mismatch "pointer offset" word offset.type
  let offset ←
    if negated then
      let zero ← Builder.constantInt offset.type 0
      let name := (localName? offsetForm).getD s!"{destination}.off"
      Builder.binary .sub zero offset s!"{name}.neg"
    else pure offset
  let value ← orFail (.unresolved destination)
    (← Builder.elementPointer base [offset] destination)
  define destination value type

/-- The distance between two pointers in elements of a size. -/
def buildDistance (left right : Value) (leftName rightName : String)
    (elementSize : Nat) (type : TypeId) (bits : Nat) (name : String) :
    Emission Value := do
  let word ← TypeTable.int 64
  let leftWord ← Builder.cast .ptrtoint left word s!"{leftName}.pi"
  let rightWord ← Builder.cast .ptrtoint right word s!"{rightName}.pi"
  let bytes ← Builder.binary .sub leftWord rightWord s!"{name}.raw"
  let size := max elementSize 1
  let scale ← Builder.constantInt word
    (if size < 0x8000000000000000 then size else 1)
  if bits = 64 then Builder.binary .sdiv bytes scale name
  else
    let count ← Builder.binary .sdiv bytes scale s!"{name}.elts"
    Builder.cast (if 64 < bits then .sext else .trunc) count type name

/-- `(ptr-diff %d IntT %a %b)` -/
def emitPointerDiff (items : List Form) : Handler Unit := do
  let shape := "(ptr-diff %d IntT %a %b)"
  expectLength items 5 shape
  let destination ← nameAt items 1 shape
  let type ← typeOf (← itemAt items 2 shape)
  let leftName ← nameAt items 3 shape
  let rightName ← nameAt items 4 shape
  let left ← valueOf (← itemAt items 3 shape)
  let right ← valueOf (← itemAt items 4 shape)
  match ← pointeeOf? left with
  | none => rejectType "ptr-diff on" left.type
  | some element =>
      expectType "ptr-diff" left.type right.type
      match (← types).intWidth? type with
      | none => rejectType "ptr-diff into" type
      | some bits =>
          let value ← buildDistance left right leftName rightName
            ((← types).size element) type bits destination
          define destination value type

end FormCompiler
