import FormCompiler.Proofs.Echoes

/-!
# Instructions at other places

Every instruction without a body reads from a moved form what it reads from
the form, so it does the same elsewhere.
-/

namespace FormCompiler

open Ir

variable {move : Move} {Result : Type} {last : Result → Result}

/-- On moved items an instruction repeats what it does. -/
def Oblivious (move : Move) (handler : List Form → Handler Unit) : Prop :=
  ∀ items, Repeats move id (handler items)
    (handler (items.map (Form.moved move)))

/-! ## Constants, arithmetic, comparisons and conversions -/

theorem buildConstant_moved (table : TypeTable) (type : TypeId)
    (literal : Form) :
    buildConstant table type (literal.moved move) =
      buildConstant table type literal := by
  cases literal with
  | group note bracket items => rw [Form.moved_group]; rfl
  | tagged note tag value => rw [Form.moved_tagged]; rfl
  | atom note value =>
      rw [Form.moved_atom]
      cases value with
      | symbol name =>
          by_cases isNull : name = "null"
          · subst isNull; rfl
          · by_cases isZero : name = "zeroinitializer"
            · subst isZero; rfl
            · simp [buildConstant, isNull, isZero]
      | _ => rfl

theorem oblivious_emitConstant : Oblivious move emitConstant := by
  intro items
  refine .length (.name fun destination => .item fun typeForm => ?_)
  refine .type fun type => .item fun literal => ?_
  refine .step (fun _ _ => rfl) fun table => ?_
  rw [buildConstant_moved]
  exact .step (fun _ _ => rfl) fun value =>
    repeats_define destination value type

theorem echoes_recordDefinition (name : String) (items : List Form) :
    Echoes move id (modifyContext (·.recordDefinition name (Form.list items)))
      (modifyContext (·.recordDefinition name
        (Form.list (items.map (Form.moved move))))) := by
  refine .modifyContext fun context => ?_
  rw [← FunctionContext.recordDefinition_moved]
  unfold Form.list
  rw [Form.moved_group, move.note_empty]

theorem oblivious_emitBinary (operator : BinaryOperator) :
    Oblivious move (emitBinary operator) := by
  intro items
  refine .length (.name fun destination => .item fun typeForm => ?_)
  refine .type fun type => .step (fun _ _ => rfl) fun table => ?_
  refine .ite ?_ ?_
  · exact .step (fun _ _ => rfl) fun _ => .throw _
  · refine .item fun leftForm => ?_
    refine .step (repeats_operand leftForm type) fun left => ?_
    refine .item fun rightForm => ?_
    refine .step (repeats_operand rightForm type) fun right => ?_
    refine .step (repeats_expectType _ type left.type) fun _ => ?_
    refine .step (repeats_expectType _ type right.type) fun _ => ?_
    have built (_ : Unit) : Repeats move id (do
        let value ← Builder.binary operator left right destination
        define destination value type) (do
        let value ← Builder.binary operator left right destination
        define destination value type) :=
      .step (fun _ _ => rfl) fun value =>
        repeats_define destination value type
    exact .ite (.step (.lift (echoes_recordDefinition destination items))
      built) (built ())

theorem repeats_comparedOperands (leftForm rightForm : Form)
    (type : TypeId) :
    Repeats move id (comparedOperands leftForm rightForm type)
      (comparedOperands (leftForm.moved move) (rightForm.moved move) type) := by
  refine .step (repeats_operand leftForm type) fun left => ?_
  refine .step (repeats_operand rightForm type) fun right => ?_
  refine .step (repeats_expectType _ type left.type) fun _ => ?_
  exact .step (repeats_expectType _ type right.type) fun _ => .pure _

theorem repeats_defineTruth (destination : String) (value : Value) :
    Repeats move id (defineTruth destination value)
      (defineTruth destination value) :=
  .step (fun _ _ => rfl) fun type => repeats_define destination value type

theorem oblivious_emitComparison (comparison : Comparison) :
    Oblivious move (emitComparison comparison) := by
  intro items
  refine .length (.name fun destination => .item fun typeForm => ?_)
  refine .type fun type => .item fun leftForm => .item fun rightForm => ?_
  refine .step (repeats_comparedOperands leftForm rightForm type)
    fun (left, right) => ?_
  refine .step (.lift (echoes_recordDefinition destination items))
    fun _ => ?_
  exact .step (.lift (echoes_buildComparison _ typeForm left right _))
    fun value => repeats_defineTruth destination value

theorem predicateParts_moved (items : List Form) (shape : String) :
    predicateParts (items.map (Form.moved move)) shape =
      predicateParts items shape := by
  unfold predicateParts
  rw [expectLength_moved, itemAt_moved, nameAt_moved, itemSymbolAt_moved]
  cases itemAt items 3 shape with
  | error cause => rfl
  | ok form => simp [Except.map, bind, Except.bind]

theorem repeats_predicateParts {items : List Form} {shape : String}
    {next other : String × String → Handler Result}
    (rest : ∀ parts, Repeats move last (next parts) (other parts)) :
    Repeats move last
      ((liftM (predicateParts items shape) : Handler _) >>= next)
      ((liftM (predicateParts (items.map (Form.moved move)) shape) :
        Handler _) >>= other) := by
  rw [predicateParts_moved]
  cases predicateParts items shape with
  | error cause => exact .throw cause
  | ok parts => exact rest parts

theorem oblivious_emitCompareInt : Oblivious move emitCompareInt := by
  intro items
  refine repeats_predicateParts fun (destination, mnemonic) => ?_
  refine .found _ fun predicate => .item fun typeForm => .type fun type => ?_
  refine .step (fun _ _ => rfl) fun table => .ite ?_ ?_
  · exact .step (fun _ _ => rfl) fun _ => .throw _
  · refine .item fun leftForm => .item fun rightForm => ?_
    refine .step (repeats_comparedOperands leftForm rightForm type)
      fun (left, right) => ?_
    exact .step (fun _ _ => rfl) fun value =>
      repeats_defineTruth destination value

theorem oblivious_emitCompareFloat : Oblivious move emitCompareFloat := by
  intro items
  refine repeats_predicateParts fun (destination, mnemonic) => ?_
  refine .found _ fun predicate => .item fun typeForm => .type fun type => ?_
  refine .step (fun _ _ => rfl) fun table => .ite ?_ ?_
  · exact .step (fun _ _ => rfl) fun _ => .throw _
  · refine .item fun leftForm => .item fun rightForm => ?_
    refine .step (repeats_comparedOperands leftForm rightForm type)
      fun (left, right) => ?_
    exact .step (fun _ _ => rfl) fun value =>
      repeats_defineTruth destination value

theorem repeats_throughSlot (name : String) (value : Value) :
    Repeats move id (throughSlot name value) (throughSlot name value) := by
  refine .ite ?_ (.pure value)
  refine .step (fun _ _ => rfl) fun slot => .step (fun _ _ => rfl) fun _ => ?_
  exact .step (fun _ _ => rfl) fun _ => .given _ _

theorem oblivious_emitCast (operator : CastOperator) :
    Oblivious move (emitCast operator) := by
  intro items
  refine .length (.name fun destination => .item fun typeForm => ?_)
  refine .type fun target => .name fun sourceName => .item fun form => ?_
  refine .step (repeats_valueOf form) fun value => ?_
  refine .step (fun _ _ => rfl) fun table => .ite ?_ ?_
  · refine .step (fun _ _ => rfl) fun _ => ?_
    exact .step (fun _ _ => rfl) fun _ => .throw _
  · refine .step (repeats_throughSlot sourceName value) fun value => ?_
    exact .step (fun _ _ => rfl) fun result =>
      repeats_define destination result target

/-! ## Variables, memory and pointers -/

theorem repeats_rejectType (use : String) (type : TypeId) :
    Repeats move last (rejectType use type) (rejectType use type) :=
  .step (fun _ _ => rfl) fun _ => .throw _

theorem repeats_initialValue (form : Form) (type : TypeId) :
    Repeats move id (initialValue form type)
      (initialValue (form.moved move) type) := by
  have literal : Repeats move id
      (do pure ((← operand form type), (none : Option String)))
      (do pure ((← operand (form.moved move) type), none)) :=
    .step (repeats_operand form type) fun _ => .pure _
  have named (name : String) : Repeats move id
      (do pure ((← valueOf form), some name))
      (do pure ((← valueOf (form.moved move)), some name)) :=
    .step (repeats_valueOf form) fun _ => .pure _
  have unnamed : Repeats move (id : Value × Option String → _)
      (do pure ((← Builder.constantUndef type), none) : Handler _)
      (do pure ((← Builder.constantUndef type), none) : Handler _) :=
    .step (fun _ _ => rfl) fun _ => .pure _
  have sameName : localName? (form.moved move) = localName? form :=
    localName?_moved form
  unfold initialValue
  cases form with
  | group note bracket items =>
      rw [Form.moved_group] at named sameName ⊢
      dsimp only
      rw [sameName]
      split
      · exact named _
      · exact unnamed
  | tagged note tag value =>
      rw [Form.moved_tagged] at named sameName ⊢
      dsimp only
      rw [sameName]
      split
      · exact named _
      · exact unnamed
  | atom note value =>
      rw [Form.moved_atom] at literal named sameName ⊢
      cases value with
      | int | float | bool => exact literal
      | nil | string | keyword | symbol =>
          dsimp only
          rw [sameName]
          split
          · exact named _
          · exact unnamed

theorem oblivious_emitVariable : Oblivious move emitVariable := by
  intro items
  refine .length (.name fun destination => .item fun typeForm => ?_)
  refine .type fun type => .item fun form => ?_
  refine .step (repeats_initialValue form type) fun (initial, source) => ?_
  refine .step (repeats_expectType _ type initial.type) fun _ => ?_
  refine .step (.lift (echoes_declareSlot destination type)) fun slot => ?_
  refine .step (fun _ _ => rfl) fun _ => .step (fun _ _ => rfl) fun _ => ?_
  refine .found _ fun value => ?_
  refine .step (.lift (.modifyContext fun _ => rfl)) fun _ => ?_
  cases source with
  | none => exact .pure ()
  | some name => exact .ite (.lift (.modifyContext fun _ => rfl)) (.pure ())

theorem oblivious_emitAssign : Oblivious move emitAssign := by
  intro items
  refine .length (.name fun destination => .item fun form => ?_)
  refine .step (repeats_valueOf form) fun value => ?_
  refine .step (.lift (echoes_ensureSlot _ _ _)) fun slot => ?_
  refine .step (fun _ _ => rfl) fun pointee => ?_
  refine .step (repeats_expectType _ _ value.type) fun _ => ?_
  refine .step (fun _ _ => rfl) fun _ => .step (fun _ _ => rfl) fun _ => ?_
  exact .found _ fun current => .lift (.modifyContext fun _ => rfl)

theorem oblivious_emitAlloca : Oblivious move emitAlloca := by
  intro items
  refine .length (.name fun destination => .item fun typeForm => ?_)
  refine .type fun type => .step (fun _ _ => rfl) fun pointer => ?_
  exact repeats_define destination pointer pointer.type

theorem repeats_loadThrough (destination : String) (type : TypeId)
    (form : Form) :
    Repeats move id (loadThrough destination type form)
      (loadThrough destination type (form.moved move)) := by
  refine .step (repeats_valueOf form) fun pointer => ?_
  refine .step (fun _ _ => rfl) fun pointee => ?_
  refine .ite ?_ ?_
  · exact .step (fun _ _ => rfl) fun _ => repeats_mismatch _ _ _
  · refine .step (fun _ _ => rfl) fun _ => .found _ fun value => ?_
    exact repeats_define destination value type

theorem oblivious_emitLoad : Oblivious move emitLoad := by
  intro items
  refine .length (.name fun destination => .item fun typeForm => ?_)
  exact .type fun type => .item fun form =>
    repeats_loadThrough destination type form

theorem oblivious_emitDereference : Oblivious move emitDereference := by
  intro items
  refine .length (.name fun destination => .item fun typeForm => ?_)
  exact .type fun type => .item fun form =>
    repeats_loadThrough destination type form

theorem repeats_storeThrough (declared : Option TypeId)
    (pointerForm valueForm : Form) :
    Repeats move id (storeThrough declared pointerForm valueForm)
      (storeThrough declared (pointerForm.moved move)
        (valueForm.moved move)) := by
  refine .step (repeats_valueOf pointerForm) fun pointer => ?_
  refine .step (fun _ _ => rfl) fun pointee => ?_
  cases pointee with
  | none => exact repeats_rejectType _ _
  | some pointee =>
      have stored (_ : Unit) : Repeats move id (do
          let value ← operand valueForm pointee
          expectType "store" pointee value.type
          (Builder.store value pointer : Handler Unit)) (do
          let value ← operand (valueForm.moved move) pointee
          expectType "store" pointee value.type
          (Builder.store value pointer : Handler Unit)) := by
        refine .step (repeats_operand valueForm pointee) fun value => ?_
        exact .step (repeats_expectType _ pointee value.type) fun _ =>
          fun _ _ => rfl
      cases declared with
      | none => exact stored ()
      | some declared => exact .step (repeats_expectType _ _ _) stored

theorem oblivious_emitStore : Oblivious move emitStore := by
  intro items
  match items with
  | [] | [_] | [_, _] | _ :: _ :: _ :: _ :: _ :: _ => exact .throw _
  | [_, pointer, value] => exact repeats_storeThrough none pointer value
  | [_, typeForm, pointer, value] =>
      exact .type fun type => repeats_storeThrough (some type) pointer value

theorem repeats_globalOf (form : Form) (type : TypeId) (shape : String) :
    Repeats move id (globalOf form type shape)
      (globalOf (form.moved move) type shape) := by
  unfold globalOf
  rw [Form.name?_moved]
  refine .found _ fun name => .step (fun _ _ => rfl) fun module => ?_
  refine .found _ fun id => .step (fun _ _ => rfl) fun module => ?_
  exact .step (repeats_expectType _ _ _) fun _ => fun _ _ => rfl

theorem oblivious_emitLoadGlobal : Oblivious move emitLoadGlobal := by
  intro items
  refine .length (.name fun destination => .item fun typeForm => ?_)
  refine .type fun type => .item fun form => ?_
  refine .step (repeats_globalOf form type _) fun address => ?_
  refine .step (fun _ _ => rfl) fun _ => .found _ fun value => ?_
  exact repeats_define destination value type

theorem oblivious_emitStoreGlobal : Oblivious move emitStoreGlobal := by
  intro items
  refine .length (.item fun typeForm => .type fun type => ?_)
  refine .item fun form => ?_
  refine .step (repeats_globalOf form type _) fun address => ?_
  refine .item fun valueForm => ?_
  refine .step (repeats_operand valueForm type) fun value => ?_
  exact .step (repeats_expectType _ type value.type) fun _ => fun _ _ => rfl

theorem oblivious_emitAddress : Oblivious move emitAddress := by
  intro items
  refine .length (.name fun destination => .item fun typeForm => ?_)
  refine .type fun type => .name fun source => ?_
  refine .step (fun _ _ => rfl) fun table => ?_
  cases table.pointee? type with
  | none => exact repeats_rejectType _ _
  | some pointee =>
      refine .context fun context => ?_
      rw [FunctionContext.type?_moved]
      refine .step (.lift (echoes_ensureSlot _ _ _)) fun slot => ?_
      exact .step (repeats_expectType _ _ _) fun _ =>
        repeats_define destination slot type

theorem oblivious_emitPointerOffset (negated : Bool) :
    Oblivious move (emitPointerOffset negated) := by
  intro items
  refine .length (.name fun destination => .item fun typeForm => ?_)
  refine .type fun type => .step (fun _ _ => rfl) fun table => ?_
  refine .refusal (repeats_rejectType _ _) ?_
  refine .item fun baseForm => ?_
  refine .step (repeats_valueOf baseForm) fun base => ?_
  refine .step (repeats_expectType _ type base.type) fun _ => ?_
  refine .step (fun _ _ => rfl) fun word => .item fun offsetForm => ?_
  refine .step (repeats_operand offsetForm word) fun offset => ?_
  refine .step (fun _ _ => rfl) fun table => ?_
  refine .refusal (repeats_mismatch _ _ _) ?_
  rw [localName?_moved]
  have addressed (offset : Value) : Repeats move id (do
      let value ← orFail (.unresolved destination)
        (← Builder.elementPointer base [offset] destination)
      define destination value type) (do
      let value ← orFail (.unresolved destination)
        (← Builder.elementPointer base [offset] destination)
      define destination value type) :=
    .step (fun _ _ => rfl) fun _ => .found _ fun value =>
      repeats_define destination value type
  cases negated with
  | false => exact .step (.pure offset) addressed
  | true =>
      refine .step (fun _ _ => rfl) fun zero => ?_
      exact .step (fun _ _ => rfl) addressed

theorem echoes_buildDistance (left right : Value)
    (leftName rightName : String) (elementSize : Nat) (type : TypeId)
    (bits : Nat) (name : String) :
    Echoes move id
      (buildDistance left right leftName rightName elementSize type bits name)
      (buildDistance left right leftName rightName elementSize type bits
        name) := by
  refine .step (fun _ _ => rfl) fun word => .step (fun _ _ => rfl) fun _ => ?_
  refine .step (fun _ _ => rfl) fun _ => .step (fun _ _ => rfl) fun bytes => ?_
  refine .step (fun _ _ => rfl) fun scale => .ite (fun _ _ => rfl) ?_
  exact .step (fun _ _ => rfl) fun count => fun _ _ => rfl

theorem oblivious_emitPointerDiff : Oblivious move emitPointerDiff := by
  intro items
  refine .length (.name fun destination => .item fun typeForm => ?_)
  refine .type fun type => .name fun leftName => .name fun rightName => ?_
  refine .item fun leftForm => ?_
  refine .step (repeats_valueOf leftForm) fun left => ?_
  refine .item fun rightForm => ?_
  refine .step (repeats_valueOf rightForm) fun right => ?_
  refine .step (fun _ _ => rfl) fun pointee => ?_
  cases pointee with
  | none => exact repeats_rejectType _ _
  | some element =>
      refine .step (repeats_expectType _ _ _) fun _ => ?_
      refine .step (fun _ _ => rfl) fun table => ?_
      cases table.intWidth? type with
      | none => exact repeats_rejectType _ _
      | some bits =>
          refine .step (fun _ _ => rfl) fun table => ?_
          exact .step (.lift (echoes_buildDistance left right _ _ _ type bits
            destination)) fun value => repeats_define destination value type

/-! ## Arrays, structs, unions, sums and literals -/

theorem oblivious_emitIndex : Oblivious move emitIndex := by
  intro items
  refine .length (.name fun destination => .item fun typeForm => ?_)
  refine .type fun element => .item fun baseForm => ?_
  refine .step (repeats_valueOf baseForm) fun base => ?_
  refine .step (fun _ _ => rfl) fun table => .ite ?_ ?_
  · refine .step (fun _ _ => rfl) fun _ => ?_
    exact .step (fun _ _ => rfl) fun _ => .throw _
  · refine .step (fun _ _ => rfl) fun word => .item fun indexForm => ?_
    refine .step (repeats_operand indexForm word) fun index => ?_
    refine .step (fun _ _ => rfl) fun table => .refusal (.throw _) ?_
    refine .step (fun _ _ => rfl) fun zero => .step (fun _ _ => rfl) fun _ => ?_
    exact .found _ fun address =>
      repeats_define destination address address.type

theorem echoes_storeElements (array zero : Value) (name : String)
    (index : Nat) (values : List Value) :
    Echoes move id (storeElements array zero name index values)
      (storeElements array zero name index values) := by
  induction values generalizing index with
  | nil => exact .pure ()
  | cons value values ih =>
      refine .step (fun _ _ => rfl) fun position => ?_
      refine .step (fun _ _ => rfl) fun address => ?_
      cases address with
      | none => exact ih (index + 1)
      | some address => exact .step (fun _ _ => rfl) fun _ => ih (index + 1)

theorem oblivious_emitArrayLiteral : Oblivious move emitArrayLiteral := by
  intro items
  refine .length (.name fun destination => .item fun typeForm => ?_)
  refine .type fun element => .item fun lengthForm => ?_
  rw [arrayLength?_moved]
  refine .found _ fun length => .vector fun elements => ?_
  rw [List.length_map]
  refine .refusal (.throw _) ?_
  refine .step (.mapM fun form => repeats_typedOperand form _ _)
    fun values => ?_
  refine .step (fun _ _ => rfl) fun type => ?_
  refine .step (fun _ _ => rfl) fun pointer => ?_
  refine .step (fun _ _ => rfl) fun zero => ?_
  exact .step (.lift (echoes_storeElements pointer zero destination 0 values))
    fun _ => repeats_define destination pointer pointer.type

theorem repeats_aggregateBase (form : Form) (aggregate : TypeId) :
    Repeats move id (aggregateBase form aggregate)
      (aggregateBase (form.moved move) aggregate) := by
  refine .step (repeats_valueOf form) fun base => ?_
  refine .step (fun _ _ => rfl) fun pointee => .ite ?_ (.pure base)
  refine .step (fun _ _ => rfl) fun _ => ?_
  exact .step (repeats_mismatch _ _ _) fun _ => .pure base

theorem repeats_structLayout (name : String) :
    Repeats move id (structLayout name) (structLayout name) :=
  .environment fun _ => .given _ _

theorem repeats_structField (layout : StructLayout) (name field : String) :
    Repeats move id (structField layout name field)
      (structField layout name field) :=
  .given _ _

theorem repeats_literalFields (layout : StructLayout)
    (name shape : String) : ∀ forms : List Form,
    Repeats move id (literalFields layout name shape forms)
      (literalFields layout name shape (forms.map (Form.moved move)))
  | [] | [_] => .pure []
  | fieldForm :: valueForm :: rest => by
      rw [List.map_cons, List.map_cons]
      unfold literalFields
      rw [Form.name?_moved]
      refine .found _ fun field => ?_
      refine .step (repeats_structField layout name field)
        fun (index, type) => ?_
      refine .step (repeats_typedOperand valueForm type _) fun value => ?_
      exact .step (repeats_literalFields layout name shape rest)
        fun _ => .pure _

theorem echoes_storeFields (struct : Value) (name : String)
    (fields : List (String × Nat × Value)) :
    Echoes move id (storeFields struct name fields)
      (storeFields struct name fields) := by
  induction fields with
  | nil => exact .pure ()
  | cons field fields ih =>
      refine .step (fun _ _ => rfl) fun address => ?_
      cases address with
      | none => exact ih
      | some address => exact .step (fun _ _ => rfl) fun _ => ih

theorem oblivious_emitStructLiteral : Oblivious move emitStructLiteral := by
  intro items
  refine .length (.name fun destination => .itemSymbol fun name => ?_)
  refine .vector fun pairs => ?_
  rw [List.length_map]
  refine .refusal (.throw _) ?_
  refine .step (repeats_structLayout name) fun layout => ?_
  refine .step (repeats_literalFields layout name _ pairs) fun fields => ?_
  refine .step (fun _ _ => rfl) fun pointer => ?_
  exact .step (.lift (echoes_storeFields pointer destination fields))
    fun _ => repeats_define destination pointer pointer.type

theorem repeats_memberAddress (items : List Form)
    (shape addressName : String) :
    Repeats move id (memberAddress items shape addressName)
      (memberAddress (items.map (Form.moved move)) shape addressName) := by
  refine .itemSymbol fun name => .itemSymbol fun field => ?_
  refine .step (repeats_structLayout name) fun layout => ?_
  refine .step (repeats_structField layout name field)
    fun (index, type) => ?_
  refine .item fun form => ?_
  refine .step (repeats_aggregateBase form layout.type) fun base => ?_
  exact .step (fun _ _ => rfl) fun _ => .found _ fun address => .pure _

theorem oblivious_emitMember : Oblivious move emitMember := by
  intro items
  refine .length (.name fun destination => ?_)
  refine .step (repeats_memberAddress items _ _) fun (address, type) => ?_
  refine .step (fun _ _ => rfl) fun _ => .found _ fun value => ?_
  exact repeats_define destination value type

theorem oblivious_emitMemberAddress : Oblivious move emitMemberAddress := by
  intro items
  refine .length (.name fun destination => ?_)
  refine .step (repeats_memberAddress items _ _) fun (address, _) => ?_
  exact repeats_define destination address address.type

theorem oblivious_emitUnionMember : Oblivious move emitUnionMember := by
  intro items
  refine .length (.name fun destination => .itemSymbol fun name => ?_)
  refine .itemSymbol fun field => .environment fun environment => ?_
  refine .found _ fun layout => .found _ fun type => .item fun form => ?_
  refine .step (repeats_aggregateBase form layout.type) fun base => ?_
  refine .build fun _ => .found _ fun storage => ?_
  refine .step (fun _ _ => rfl) fun _ => .step (fun _ _ => rfl) fun _ => ?_
  refine .step (fun _ _ => rfl) fun _ => .found _ fun value => ?_
  exact repeats_define destination value type

theorem repeats_sumVariant (items : List Form) (sumAt variantAt : Nat)
    (shape : String) :
    Repeats move id (sumVariant items sumAt variantAt shape)
      (sumVariant (items.map (Form.moved move)) sumAt variantAt shape) := by
  refine .name fun sum => .name fun name => ?_
  refine .environment fun environment => ?_
  exact .found _ fun layout => .found _ fun variant => .pure _

theorem repeats_payloadField (variant : Variant) (index : Nat) :
    Repeats move id (payloadField variant index) (payloadField variant index) :=
  .step (fun _ _ => rfl) fun _ => .given _ _

theorem echoes_payloadPointer (payload : Value) (offset : Nat)
    (type : TypeId) (name : String) :
    Echoes move id (payloadPointer payload offset type name)
      (payloadPointer payload offset type name) := by
  refine .step (fun _ _ => rfl) fun raw => ?_
  cases raw with
  | none => exact .pure none
  | some raw => exact .step (fun _ _ => rfl) fun _ => fun _ _ => rfl

theorem repeats_sumOperand (form : Form) (layout : SumLayout)
    (what : String) :
    Repeats move id (sumOperand form layout what)
      (sumOperand (form.moved move) layout what) := by
  refine .step (repeats_valueOf form) fun value => ?_
  refine .step (fun _ _ => rfl) fun type => ?_
  exact .step (repeats_expectType _ _ _) fun _ => .pure value

theorem repeats_storePayload (payload : Value) (variant : Variant)
    (name : String) (index : Nat) (forms : List Form) :
    Repeats move id (storePayload payload variant name index forms)
      (storePayload payload variant name index
        (forms.map (Form.moved move))) := by
  induction forms generalizing index with
  | nil => exact .pure ()
  | cons form forms ih =>
      refine .step (repeats_payloadField variant index)
        fun (offset, type) => ?_
      refine .step (repeats_typedOperand form type _) fun value => ?_
      refine .step (.lift (echoes_payloadPointer payload offset type _))
        fun _ => .found _ fun pointer => ?_
      exact .step (fun _ _ => rfl) fun _ => ih (index + 1)

theorem oblivious_emitSumNew : Oblivious move emitSumNew := by
  intro items
  refine .length (.name fun destination => ?_)
  refine .step (repeats_sumVariant items 2 3 _) fun (layout, variant) => ?_
  refine .vector fun fields => ?_
  rw [List.length_map, List.isEmpty_map]
  refine .refusal (.throw _) ?_
  refine .build fun sum => .build fun _ => ?_
  refine .found _ fun tagAddress => .step (fun _ _ => rfl) fun tag => ?_
  refine .step (fun _ _ => rfl) fun _ => ?_
  have defined (_ : Unit) : Repeats move id
      (do define destination sum (← TypeTable.pointer layout.type))
      (do define destination sum (← TypeTable.pointer layout.type)) :=
    .step (fun _ _ => rfl) fun type => repeats_define destination sum type
  refine .ite ?_ (defined ())
  refine .build fun _ => .found _ fun payload => ?_
  exact .step (repeats_storePayload payload variant destination 0 fields)
    defined

theorem oblivious_emitSumIs : Oblivious move emitSumIs := by
  intro items
  refine .length (.name fun destination => ?_)
  refine .step (repeats_sumVariant items 2 4 _) fun (layout, variant) => ?_
  refine .item fun form => ?_
  refine .step (repeats_sumOperand form layout _) fun sum => ?_
  refine .build fun _ => .found _ fun tagAddress => ?_
  refine .step (fun _ _ => rfl) fun _ => .found _ fun tag => ?_
  refine .step (fun _ _ => rfl) fun _ => .step (fun _ _ => rfl) fun hit => ?_
  exact .step (fun _ _ => rfl) fun type => repeats_define destination hit type

theorem oblivious_emitSumGet : Oblivious move emitSumGet := by
  intro items
  refine .length (.name fun destination => .item fun indexForm => ?_)
  rw [arrayLength?_moved]
  refine .found _ fun index => ?_
  refine .step (repeats_sumVariant items 2 4 _) fun (layout, variant) => ?_
  refine .step (repeats_payloadField variant index) fun (offset, type) => ?_
  refine .item fun form => ?_
  refine .step (repeats_sumOperand form layout _) fun sum => ?_
  refine .build fun _ => .found _ fun payload => ?_
  refine .step (.lift (echoes_payloadPointer payload offset type _))
    fun _ => .found _ fun pointer => ?_
  refine .step (fun _ _ => rfl) fun _ => .found _ fun value => ?_
  exact repeats_define destination value type

theorem repeats_defineLiteral (destination : String) (literal : Literal) :
    Repeats move id (defineLiteral destination literal)
      (defineLiteral destination literal) := by
  refine .state fun state => ?_
  refine .step (fun _ _ => rfl) fun (id, literals) => ?_
  refine .step (fun _ _ => rfl) fun _ => .step (fun _ _ => rfl) fun array => ?_
  refine .step (fun _ _ => rfl) fun zero => .step (fun _ _ => rfl) fun _ => ?_
  exact .found _ fun pointer =>
    repeats_define destination pointer pointer.type

theorem oblivious_emitTextLiteral : Oblivious move emitTextLiteral := by
  intro items
  refine .length (.name fun destination => .item fun form => ?_)
  rw [Form.string?_moved]
  exact .found _ fun text => repeats_defineLiteral destination _

theorem oblivious_emitBytesLiteral : Oblivious move emitBytesLiteral := by
  intro items
  refine .length (.name fun destination => .vector fun elements => ?_)
  have same :
      (elements.map (Form.moved move)).mapM byte? = elements.mapM byte? := by
    rw [List.mapM_map]
    exact congrArg (List.mapM · elements) (funext byte?_moved)
  rw [same]
  exact .found _ fun contents => repeats_defineLiteral destination _

/-! ## Unwinding -/

theorem echoes_elsewhere {first second : Emission Result}
    (echoes : Echoes move id first second) :
    Echoes move id (elsewhere first) (elsewhere second) := by
  refine .build fun point => .step echoes fun result => ?_
  exact .build fun _ => .pure result

theorem echoes_resumingPad : Echoes move id resumingPad resumingPad := by
  refine .step echoes_freshId fun id => .build fun block => ?_
  refine .step (echoes_elsewhere ?_) fun _ => .pure block
  exact .build fun _ => .build fun pad => echoes_onBuilder _

theorem echoes_returningPad : Echoes move id returningPad returningPad := by
  refine .build fun block => ?_
  refine .step (echoes_elsewhere ?_) fun _ => .pure block
  refine .build fun _ => .build fun outside => ?_
  exact .build fun pad => echoes_onBuilder _

theorem echoes_cleanupFunclet :
    Echoes move id cleanupFunclet cleanupFunclet := by
  refine .state fun state => ?_
  dsimp only [EmitState.moved]
  cases state.unwindTargets.cleanup with
  | some block => exact .pure block
  | none =>
      refine .step echoes_returningPad fun block => ?_
      exact .step (fun _ _ => rfl) fun _ => .pure block

theorem echoes_unwindTarget (personality : Personality) :
    Echoes move id (unwindTarget personality) (unwindTarget personality) := by
  refine .state fun state => ?_
  have same : (state.moved move).unwindTargets = state.unwindTargets := rfl
  rw [same]
  cases personality with
  | itanium =>
      dsimp only
      split
      · exact .pure _
      · exact echoes_resumingPad
  | seh =>
      dsimp only
      split
      · exact .pure _
      · exact echoes_cleanupFunclet

theorem echoes_declareNoReturn (name : String) (parameters : List TypeId) :
    Echoes move id (declareNoReturn name parameters)
      (declareNoReturn name parameters) := by
  refine .step (fun _ _ => rfl) fun void => ?_
  refine .step (echoes_declareFunction name void parameters false)
    fun id => ?_
  exact .step (fun _ _ => rfl) fun _ => .pure id

theorem echoes_throwingCall (personality : Personality) :
    Echoes move id (throwingCall personality) (throwingCall personality) := by
  refine .step (fun _ _ => rfl) fun pointer => ?_
  cases personality with
  | itanium =>
      refine .step (echoes_declareNoReturn _ _) fun routine => ?_
      exact .build fun null => .pure _
  | seh =>
      refine .step (fun _ _ => rfl) fun word => ?_
      refine .step (echoes_declareNoReturn _ _) fun routine => ?_
      refine .build fun code => .build fun flags => ?_
      exact .build fun count => .build fun null => .pure _

theorem echoes_emitTrap : Echoes move id emitTrap emitTrap := by
  refine .step (echoes_declareNoReturn _ _) fun trap => ?_
  exact .build fun callee => .build fun _ => echoes_onBuilder _

theorem echoes_emitThrow (personality : Personality) :
    Echoes move id (emitThrow personality) (emitThrow personality) := by
  refine .step (echoes_throwingCall personality)
    fun (routine, arguments) => ?_
  refine .step (echoes_unwindTarget personality) fun unwind => ?_
  refine .step echoes_freshId fun id => .build fun next => ?_
  refine .build fun callee => .build fun _ => ?_
  exact .build fun _ => echoes_onBuilder _

theorem repeats_emitPanic : Repeats move id emitPanic emitPanic := by
  refine .step (fun _ _ => rfl) fun personality => ?_
  cases personality with
  | none => exact .lift echoes_emitTrap
  | some personality =>
      refine .environment fun environment => ?_
      exact .ite (.lift (echoes_emitThrow personality)) (.lift echoes_emitTrap)

/-! ## Calls, function pointers, returns and variadic arguments -/

theorem repeats_looseOperand (form : Form) :
    Repeats move id (looseOperand form) (looseOperand (form.moved move)) := by
  have named : Repeats move id _ _ := repeats_valueOf form
  have given (type : StateM TypeTable TypeId) : Repeats move id
      (do operand form (← type)) (do operand (form.moved move) (← type)) :=
    .step (fun _ _ => rfl) fun type => repeats_operand form type
  unfold looseOperand
  cases form with
  | group note bracket items =>
      rw [Form.moved_group] at named ⊢
      exact named
  | tagged note tag value =>
      rw [Form.moved_tagged] at named ⊢
      exact named
  | atom note value =>
      rw [Form.moved_atom] at named ⊢
      simp only [Form.moved_atom] at given
      cases value with
      | int | bool | float => exact given _
      | nil | string | keyword | symbol => exact named

theorem repeats_argumentValues (types : List TypeId) (forms : List Form) :
    Repeats move id (argumentValues types forms)
      (argumentValues types (forms.map (Form.moved move))) := by
  induction forms generalizing types with
  | nil => cases types <;> exact .pure []
  | cons form forms ih =>
      cases types with
      | nil =>
          refine .step (repeats_looseOperand form) fun value => ?_
          exact .step (ih []) fun _ => .pure _
      | cons type types =>
          refine .step (repeats_typedOperand form type _) fun value => ?_
          exact .step (ih types) fun _ => .pure _

theorem repeats_callArguments (callee : String) (type : TypeId)
    (forms : List Form) :
    Repeats move id (callArguments callee type forms)
      (callArguments callee type (forms.map (Form.moved move))) := by
  refine .step (fun _ _ => rfl) fun table => .found _ fun signature => ?_
  rw [List.length_map]
  refine .ite ?_ (repeats_argumentValues _ forms)
  exact .step (.throw _) fun _ => repeats_argumentValues _ forms

theorem echoes_buildInvocation (callee : Value) (arguments : List Value)
    (name : String) :
    Echoes move id (buildInvocation callee arguments name)
      (buildInvocation callee arguments name) := by
  refine .step (fun _ _ => rfl) fun table => .ite (.pure none) ?_
  refine .step (fun _ _ => rfl) fun personality => ?_
  cases personality with
  | none => exact echoes_onBuilder _
  | some personality =>
      refine .step (echoes_unwindTarget personality) fun unwind => ?_
      refine .step echoes_freshId fun id => .build fun next => ?_
      exact .build fun value => .build fun _ => .pure value

theorem repeats_defineResult (destination : String) (value : Value)
    (type : TypeId) :
    Repeats move id (defineResult destination value type)
      (defineResult destination value type) :=
  .step (fun _ _ => rfl) fun _ =>
    .ite (.pure ()) (repeats_define destination value type)

theorem repeats_calledFunction (name : String) (result : TypeId)
    (forms : List Form) :
    Repeats move id (calledFunction name result forms)
      (calledFunction name result (forms.map (Form.moved move))) := by
  refine .step (fun _ _ => rfl) fun module => ?_
  cases module.function? name with
  | some id =>
      refine .step (fun _ _ => rfl) fun module => ?_
      exact .step (repeats_callArguments name _ forms) fun _ => .pure _
  | none =>
      refine .step (.mapM repeats_looseOperand) fun arguments => ?_
      exact .step (.lift (echoes_declareFunction name result _ false))
        fun _ => .pure _

theorem oblivious_emitCall : Oblivious move emitCall := by
  intro items
  unfold emitCall
  rw [List.length_map]
  refine .refusal (.throw _) ?_
  refine .name fun destination => .item fun typeForm => ?_
  refine .type fun result => .itemSymbol fun name => .following fun forms => ?_
  refine .step (repeats_calledFunction name result forms)
    fun (id, arguments) => ?_
  refine .step (fun _ _ => rfl) fun table => ?_
  refine .step (fun _ _ => rfl) fun module => ?_
  refine .step (repeats_expectType _ _ _) fun _ => .build fun callee => ?_
  refine .step (.lift (echoes_buildInvocation callee arguments destination))
    fun _ => .found _ fun value => ?_
  exact repeats_defineResult destination value result

theorem oblivious_emitCallIndirect : Oblivious move emitCallIndirect := by
  intro items
  unfold emitCallIndirect
  rw [List.length_map]
  refine .refusal (.throw _) ?_
  refine .name fun destination => .item fun typeForm => ?_
  refine .type fun result => .name fun name => .item fun form => ?_
  refine .step (repeats_valueOf form) fun callee => ?_
  refine .step (fun _ _ => rfl) fun table => ?_
  refine .found _ fun (type, signature) => .following fun forms => ?_
  refine .step (repeats_callArguments name type forms) fun arguments => ?_
  refine .step (repeats_expectType _ _ _) fun _ => ?_
  refine .build fun _ => .found _ fun value => ?_
  exact repeats_defineResult destination value result

theorem repeats_pointedFunction (name : String) (type : TypeId) :
    Repeats move id (pointedFunction name type)
      (pointedFunction name type) := by
  refine .step (fun _ _ => rfl) fun module => ?_
  cases module.function? name with
  | some id => exact .pure id
  | none =>
      refine .step (fun _ _ => rfl) fun table => ?_
      cases (table.pointee? type).bind table.signature? with
      | none => exact repeats_rejectType _ _
      | some signature => exact .lift (echoes_declareFunction _ _ _ _)

theorem oblivious_emitFunctionPointer : Oblivious move emitFunctionPointer := by
  intro items
  refine .length (.name fun destination => .item fun typeForm => ?_)
  refine .type fun type => .itemSymbol fun name => ?_
  refine .step (repeats_pointedFunction name type) fun id => ?_
  refine .build fun value => .step (repeats_expectType _ _ _) fun _ => ?_
  exact repeats_define destination value type

theorem echoes_buildDefaultReturn (type : TypeId) :
    Echoes move id (buildDefaultReturn type) (buildDefaultReturn type) := by
  refine .step (fun _ _ => rfl) fun table => .ite (echoes_onBuilder _) ?_
  exact .build fun zero => echoes_onBuilder _

theorem oblivious_emitReturn : Oblivious move emitReturn := by
  intro items
  refine .step (fun _ _ => rfl) fun expected => ?_
  match items with
  | [] | _ :: _ :: _ :: _ :: _ => exact .throw _
  | [_] | [_, _] => exact .lift (echoes_buildDefaultReturn expected)
  | [_, typeForm, valueForm] =>
      refine .type fun type => ?_
      refine .step (repeats_expectType _ expected type) fun _ => ?_
      refine .step (repeats_typedOperand valueForm type _) fun value => ?_
      exact .lift (echoes_onBuilder _)

theorem echoes_callOnList (routine name : String) (list : Value) :
    Echoes move id (callOnList routine name list)
      (callOnList routine name list) := by
  refine .step (fun _ _ => rfl) fun void => ?_
  refine .step (fun _ _ => rfl) fun pointer => ?_
  refine .step (echoes_declareFunction _ _ _ _) fun id => ?_
  refine .build fun raw => .build fun callee => ?_
  exact .build fun _ => .pure ()

theorem repeats_argumentList (form : Form) (shape : String) :
    Repeats move id (argumentList form shape)
      (argumentList (form.moved move) shape) := by
  refine .step (repeats_valueOf form) fun list => ?_
  refine .step (fun _ _ => rfl) fun pointer => ?_
  exact .step (fun _ _ => rfl) fun pointee => .ite (.pure list) (.throw _)

theorem oblivious_emitVaStart : Oblivious move emitVaStart := by
  intro items
  refine .length (.name fun name => .step (fun _ _ => rfl) fun table => ?_)
  refine .step (fun _ _ => rfl) fun type => .refusal (.throw _) ?_
  refine .step (fun _ _ => rfl) fun pointer => .build fun list => ?_
  refine .step (.lift (echoes_callOnList _ name list)) fun _ => ?_
  exact .lift (.modifyContext fun _ => rfl)

theorem oblivious_emitVaArg : Oblivious move emitVaArg := by
  intro items
  refine .length (.name fun destination => .item fun typeForm => ?_)
  refine .type fun type => .item fun form => ?_
  refine .step (repeats_argumentList form _) fun list => ?_
  exact .build fun value => repeats_define destination value type

theorem oblivious_emitVaEnd : Oblivious move emitVaEnd := by
  intro items
  refine .length (.name fun name => .item fun form => ?_)
  refine .step (repeats_argumentList form _) fun list => ?_
  exact .lift (echoes_callOnList _ name list)

/-! ## Closures -/

theorem repeats_capturedValue (items : List Form) (index : Nat)
    (shape : String) :
    Repeats move id (capturedValue items index shape)
      (capturedValue (items.map (Form.moved move)) index shape) := by
  refine .vector fun elements => ?_
  match elements with
  | [] | _ :: _ :: _ => exact .throw _
  | [form] => exact repeats_valueOf form

theorem repeats_closureTarget (name : String) :
    Repeats move id (closureTarget name) (closureTarget name) :=
  .step (fun _ _ => rfl) fun _ => .given _ _

theorem echoes_addEnvironment (number : Nat) (type : TypeId) :
    Echoes move id (addEnvironment number type) (addEnvironment number type) :=
  .step (fun _ _ => rfl) fun _ => fun _ _ => rfl

theorem echoes_nameParameters (function : FunctionId) (count : Nat) :
    Echoes move id (nameParameters function count)
      (nameParameters function count) := by
  unfold nameParameters
  exact .forM fun index => fun _ _ => rfl

theorem echoes_callTarget (thunk : FunctionId) (environment : GlobalId)
    (target : FunctionId) (signature : TypeTable.Signature) :
    Echoes move id (callTarget thunk environment target signature)
      (callTarget thunk environment target signature) := by
  refine .build fun slot => .build fun captured => ?_
  refine .step (fun _ _ => rfl) fun module => ?_
  exact .build fun callee => echoes_onBuilder _

theorem echoes_returnResult (type : TypeId) (result : Option Value) :
    Echoes move id (returnResult type result) (returnResult type result) := by
  unfold returnResult
  cases result with
  | none => exact echoes_onBuilder _
  | some value =>
      refine .step (fun _ _ => rfl) fun table => ?_
      exact .ite (echoes_onBuilder _) (echoes_onBuilder _)

theorem echoes_emitThunk (thunk : FunctionId) (environment : GlobalId)
    (target : FunctionId) (signature : TypeTable.Signature) :
    Echoes move id (emitThunk thunk environment target signature)
      (emitThunk thunk environment target signature) := by
  refine .build fun _ => .build fun entry => .build fun _ => ?_
  exact .step (echoes_callTarget thunk environment target signature)
    fun result => echoes_returnResult _ result

theorem echoes_addThunk (name : String) (type : TypeId)
    (environment : GlobalId) (target : FunctionId)
    (signature : TypeTable.Signature) :
    Echoes move id (addThunk name type environment target signature)
      (addThunk name type environment target signature) := by
  refine .step (fun _ _ => rfl) fun thunk => ?_
  refine .step (echoes_nameParameters thunk _) fun _ => ?_
  exact .step (echoes_elsewhere (echoes_emitThunk thunk environment target
    signature)) fun _ => .pure thunk

theorem oblivious_emitClosure : Oblivious move emitClosure := by
  intro items
  refine .length (.name fun destination => .item fun typeForm => ?_)
  refine .type fun pointerType => .itemSymbol fun name => ?_
  refine .step (repeats_capturedValue items 4 _) fun captured => ?_
  refine .step (fun _ _ => rfl) fun table => ?_
  dsimp only
  split
  · exact repeats_rejectType _ _
  · refine .step (repeats_closureTarget name) fun target => ?_
    refine .step (fun _ _ => rfl) fun module => ?_
    refine .read fun backs => .ite ?_ ?_
    · refine .step (fun _ _ => rfl) fun _ => ?_
      exact .step (fun _ _ => rfl) fun _ => .throw _
    · refine .state fun state => .step (fun _ _ => rfl) fun _ => ?_
      refine .step (.lift (echoes_addEnvironment _ _)) fun environment => ?_
      refine .build fun address => .build fun _ => ?_
      refine .step (.lift (echoes_addThunk _ _ environment target _))
        fun thunk => ?_
      exact .build fun value => repeats_define destination value pointerType

theorem repeats_closureRecord (name : String) (captured : TypeId) :
    Repeats move id (closureRecord name captured)
      (closureRecord name captured) := by
  refine .step (fun _ _ => rfl) fun pointer => ?_
  refine .step (fun _ _ => rfl) fun record => ?_
  refine .step (fun _ _ => rfl) fun table => ?_
  split
  · exact .step (fun _ _ => rfl) fun _ => .pure record
  · exact .ite (.pure record) (.throw _)
  · exact .throw _

theorem echoes_storeField (record : Value) (index : Nat) (name : String)
    (value : Value) :
    Echoes move id (storeField record index name value)
      (storeField record index name value) := by
  refine .build fun address => ?_
  cases address with
  | none => exact .pure ()
  | some address => exact echoes_onBuilder _

theorem oblivious_emitMakeClosure : Oblivious move emitMakeClosure := by
  intro items
  refine .length (.name fun destination => .itemSymbol fun name => ?_)
  refine .step (repeats_capturedValue items 3 _) fun captured => ?_
  refine .step (repeats_closureTarget name) fun target => ?_
  refine .step (repeats_closureRecord name captured.type) fun record => ?_
  refine .build fun pointer => ?_
  refine .step (.lift (echoes_storeField _ _ _ _)) fun _ => ?_
  refine .step (fun _ _ => rfl) fun bytes => ?_
  refine .build fun callee => .build fun erased => ?_
  refine .step (.lift (echoes_storeField _ _ _ _)) fun _ => ?_
  exact repeats_define destination pointer pointer.type

theorem echoes_loadField (record : Value) (index : Nat) (name : String) :
    Echoes move id (loadField record index name)
      (loadField record index name) := by
  refine .build fun address => ?_
  cases address with
  | none => exact .pure none
  | some address => exact echoes_onBuilder _

theorem oblivious_emitCallClosure : Oblivious move emitCallClosure := by
  intro items
  unfold emitCallClosure
  rw [List.length_map]
  refine .refusal (.throw _) ?_
  refine .name fun destination => .item fun typeForm => ?_
  refine .type fun result => .item fun form => ?_
  refine .step (repeats_valueOf form) fun record => ?_
  refine .step (fun _ _ => rfl) fun table => ?_
  cases recordTarget? table record.type with
  | none => exact repeats_rejectType _ _
  | some name =>
      refine .step (repeats_closureTarget name) fun target => ?_
      refine .step (fun _ _ => rfl) fun module => ?_
      refine .step (fun _ _ => rfl) fun table => .found _ fun signature => ?_
      refine .step (repeats_expectType _ _ _) fun _ => ?_
      refine .following fun forms => ?_
      dsimp only
      rw [List.length_map]
      refine .refusal (.throw _) (.read fun parameters => ?_)
      refine .step (repeats_argumentValues _ _) fun arguments => ?_
      refine .step (.lift (echoes_loadField _ _ _)) fun _ => ?_
      refine .found _ fun erased => ?_
      refine .step (.lift (echoes_loadField _ _ _)) fun _ => ?_
      refine .found _ fun captured => .step (fun _ _ => rfl) fun type => ?_
      refine .build fun callee => .build fun _ => .found _ fun value => ?_
      exact repeats_defineResult destination value result

/-! ## Coroutines -/

theorem repeats_coroutineOperand (form : Form) (type : TypeId) :
    Repeats move id (coroutineOperand form type)
      (coroutineOperand (form.moved move) type) := by
  refine .step (repeats_valueOf form) fun value => ?_
  exact .step (repeats_expectType _ _ _) fun _ => .pure value

theorem repeats_callRoutine (name : String) (result : TypeId)
    (arguments : List Value) (resultName : String) :
    Repeats move id (callRoutine name result arguments resultName)
      (callRoutine name result arguments resultName) := by
  refine .step (.lift (echoes_declareFunction _ _ _ _)) fun id => ?_
  exact .build fun callee => .build fun _ => .given _ _

theorem repeats_beginCoroutine (handle : String) :
    Repeats move id (beginCoroutine handle) (beginCoroutine handle) := by
  refine .step (fun _ _ => rfl) fun pointer => ?_
  refine .step (fun _ _ => rfl) fun token => ?_
  refine .build fun null => .step (fun _ _ => rfl) fun align => ?_
  refine .step (repeats_callRoutine _ _ _ _) fun id => ?_
  refine .step (fun _ _ => rfl) fun _ => ?_
  refine .step (repeats_callRoutine _ _ _ _) fun begun => ?_
  exact .state fun state => .step (fun _ _ => rfl) fun _ => .pure begun

theorem repeats_suspensionToken (form : Form) :
    Repeats move id (suspensionToken form)
      (suspensionToken (form.moved move)) := by
  refine .step (repeats_valueOf form) fun value => ?_
  exact .step (fun _ _ => rfl) fun token =>
    .ite (.pure value) (.lift (echoes_onBuilder _))

theorem repeats_buildStep (step : CoroutineStep) (items : List Form)
    (destination : String) (result : TypeId) :
    Repeats move id (buildStep step items destination result)
      (buildStep step (items.map (Form.moved move)) destination result) := by
  refine .step (fun _ _ => rfl) fun pointer => ?_
  refine .step (fun _ _ => rfl) fun token => ?_
  have calls (routine : String) (result : TypeId) (arguments : List Value)
      (name : String) : Repeats move id _ _ :=
    repeats_callRoutine routine result arguments name
  cases step with
  | begin => exact repeats_beginCoroutine destination
  | id => exact .state fun state => .given _ _
  | size => exact calls _ _ _ _
  | alloc | save | done | resume | destroy =>
      refine .item fun form => ?_
      exact .step (repeats_coroutineOperand form _) fun _ => calls _ _ _ _
  | free =>
      refine .item fun form => ?_
      refine .step (repeats_coroutineOperand form token) fun id => ?_
      refine .item fun form => ?_
      exact .step (repeats_coroutineOperand form _) fun _ => calls _ _ _ _
  | suspend | finalSuspend =>
      refine .item fun form => ?_
      refine .step (repeats_suspensionToken form) fun saved => ?_
      exact .step (fun _ _ => rfl) fun _ => calls _ _ _ _
  | promise =>
      refine .item fun form => ?_
      refine .step (repeats_coroutineOperand form _) fun handle => ?_
      refine .step (fun _ _ => rfl) fun align => ?_
      exact .step (fun _ _ => rfl) fun _ => calls _ _ _ _
  | finish =>
      refine .item fun form => ?_
      refine .step (repeats_coroutineOperand form _) fun handle => ?_
      refine .step (fun _ _ => rfl) fun _ => .build fun outside => ?_
      exact .step (fun _ _ => rfl) fun _ => calls _ _ _ _

theorem oblivious_emitCoroutineStep (step : CoroutineStep) :
    Oblivious move (emitCoroutineStep step) := by
  intro items
  refine .length (.environment fun environment => .ite ?_ ?_)
  · refine .step (fun _ _ => rfl) fun result => .ite ?_ ?_
    · refine .name fun destination => ?_
      exact .step (repeats_buildStep step items destination result)
        fun value => repeats_define destination value result
    · exact .step (repeats_buildStep step items "" result) fun _ => .pure ()
  · refine .ite (.name fun destination => ?_) (.pure ())
    refine .step (fun _ _ => rfl) fun result => .build fun value => ?_
    exact repeats_define destination value result

/-! ## Phis -/

theorem echoes_placePhi (block : BlockId) (destination : String)
    (type : TypeId) (incoming : List (EdgeSource × String)) :
    Echoes move id (placePhi block destination type incoming)
      (placePhi block destination type incoming) :=
  .build fun phi => .step (fun _ _ => rfl) fun _ => .pure phi

theorem repeats_readEdge (type : TypeId) (shape : String) (form : Form) :
    Repeats move id (readEdge type shape form)
      (readEdge type shape (form.moved move)) := by
  unfold readEdge
  rw [Form.list?_moved]
  cases form.list? with
  | none => exact .throw _
  | some items =>
      match items with
      | [] | [_] | _ :: _ :: _ :: _ => exact .throw _
      | [valueForm, labelForm] =>
          simp only [Option.map_some, List.map_cons, List.map_nil,
            Form.name?_moved, localName?_moved, isLocalReference_moved]
          refine .found _ fun label => ?_
          split
          · exact .pure _
          · exact .step (repeats_operand valueForm type) fun _ => .pure _

theorem oblivious_emitPhi : Oblivious move emitPhi := by
  intro items
  refine .length (.name fun destination => .item fun typeForm => ?_)
  refine .type fun type => .vector fun edges => ?_
  refine .step (.mapM fun form => repeats_readEdge type _ form)
    fun incoming => ?_
  refine .step (fun _ _ => rfl) fun _ => .found _ fun block => ?_
  refine .step (.lift (echoes_placePhi block destination type incoming))
    fun phi => ?_
  exact repeats_define destination phi type

end FormCompiler
