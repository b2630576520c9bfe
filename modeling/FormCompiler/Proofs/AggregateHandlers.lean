import FormCompiler.Emit.Aggregate
import FormCompiler.Proofs.ScalarHandlers

/-!
# Plain instructions are quiet: aggregates and literals

The layouts of a module only mention types of its table, so every address
into an aggregate is well typed.
-/

namespace FormCompiler

open Ir

variable {scene : Scene} {known : TypeTable → Prop}

/-! ## Arrays -/

theorem isQuiet_emitIndex (items : List Form) :
    IsQuiet (emitIndex items) := by
  intro scene
  unfold emitIndex
  refine .parse fun _ _ => ?_
  refine .parse fun destination _ => ?_
  refine .parse fun typeForm _ => ?_
  refine .step (handles_typeOf typeForm) (by tauto) fun element => ?_
  refine .parse fun baseForm _ => ?_
  refine .step (handles_valueOf baseForm) (by tauto) fun base => ?_
  refine .look (fun _ => rfl) fun _ _ _ => ?_
  refine .ite (fun _ => ?_) fun _ => ?_
  · refine .look (fun _ => rfl) fun _ _ _ => ?_
    refine .look (fun _ => rfl) fun _ _ _ => ?_
    exact .throw_bind _
  · refine .step (.lift (emits_int 32)) (fun _ holds => holds)
      fun word => ?_
    refine .parse fun indexForm _ => ?_
    refine .step (handles_operand indexForm word) (by tauto) fun index => ?_
    refine .look (fun _ => rfl) fun _ _ _ => ?_
    refine .ite (fun _ => .throw_bind _) fun _ => ?_
    refine .step (.lift (emits_constantI32 0)) (fun _ holds => holds)
      fun zero => ?_
    refine handles_found _ (emits_elementPointer base [zero, index] _)
      (fun _ holds => holds) fun address => ?_
    exact (handles_define destination address address.type).given
      fun _ holds => ⟨holds.2, holds.2.has⟩

/-- Stores through an address, if there is one. -/
theorem emits_storeAt [Stable known] {search : Emission (Option Value)}
    (searches : Searches scene known search) (value : Value)
    {rest : Emission Unit}
    (restEmits : Emits scene known rest fun _ _ => True) :
    Emits scene known (do
      match ← search with
      | some address => Builder.store value address
      | none => pure ()
      rest) fun _ _ => True := by
  refine .step searches (fun _ holds => holds) fun found => ?_
  cases found with
  | none => exact restEmits.given (by tauto)
  | some address =>
      refine .step (emits_store value address) (fun _ holds => holds)
        fun _ => ?_
      exact restEmits.given (by tauto)

theorem emits_storeElements (array zero : Value) (name : String)
    (index : Nat) (values : List Value) :
    Emits scene known (storeElements array zero name index values)
      fun _ _ => True := by
  refine Emits.given ?_ fun _ _ => trivial
  induction values generalizing index with
  | nil => exact .pure (by tauto)
  | cons value values ih =>
      unfold storeElements
      refine .step (emits_constantI32 _) (fun _ holds => holds)
        fun position => ?_
      refine Emits.given ?_ fun _ _ => trivial
      exact emits_storeAt (emits_elementPointer array _ _) value
        (ih (index + 1))

theorem isQuiet_emitArrayLiteral (items : List Form) :
    IsQuiet (emitArrayLiteral items) := by
  intro scene
  unfold emitArrayLiteral
  refine .parse fun _ _ => ?_
  refine .parse fun destination _ => ?_
  refine .parse fun typeForm _ => ?_
  refine .step (handles_typeOf typeForm) (by tauto) fun element => ?_
  refine .parse fun lengthForm _ => ?_
  refine .orFail_step _ fun length _ => ?_
  refine .parse fun elements _ => ?_
  refine .ite (fun _ => .throw_bind _) fun _ => ?_
  refine .step (.mapM fun form _ =>
    handles_typedOperand form element "array element") (by tauto)
    fun values => ?_
  refine .step (.lift (emits_array element length)) (by tauto)
    fun type => ?_
  refine .step (.lift (emits_alloca type destination)) (by tauto)
    fun pointer => ?_
  refine .step (.lift (emits_constantI32 0)) (fun _ holds => holds)
    fun zero => ?_
  refine .step (.lift (emits_storeElements pointer zero destination 0 values))
    (fun _ holds => holds) fun _ => ?_
  exact (handles_define destination pointer pointer.type).given
    fun _ holds => ⟨holds.1.1.2, holds.1.1.2.has⟩

/-! ## Structs and unions -/

theorem handles_aggregateBase (form : Form) (aggregate : TypeId) :
    HandlesValue scene (fun table => table.Has aggregate)
      (aggregateBase form aggregate) := by
  unfold aggregateBase
  refine .step (handles_valueOf form) (by tauto) fun base => ?_
  refine .look (fun _ => rfl) fun _ _ _ => ?_
  refine .ite (fun _ => ?_) fun _ => ?_
  · refine .step (.lift (emits_pointer aggregate)) (by tauto)
      fun expected => ?_
    exact .fail_bind (handles_mismatch _ _ _)
  · exact .pure (by tauto)

/-- The types of a layout are of the table. -/
structure StructLayout.Known (table : TypeTable) (layout : StructLayout) :
    Prop where
  type : table.Has layout.type
  fields : ∀ field ∈ layout.fields, table.Has field.type

instance (layout : StructLayout) : Stable fun table => layout.Known table :=
  ⟨fun _ grows known => ⟨known.type.mono grows,
    fun field member => (known.fields field member).mono grows⟩⟩

theorem handles_structLayout (name : String) :
    Handles scene known (structLayout name) fun table layout =>
      layout.Known table := by
  unfold structLayout
  refine .look (fun _ => rfl) fun state ready _ => ?_
  refine .orFail _ fun layout found table holds => ?_
  obtain ⟨type, fields⟩ := ready.layouts.structs name layout found
  exact ⟨type.mono holds.2,
    fun field member => (fields field member).mono holds.2⟩

theorem handles_structField (layout : StructLayout) (name field : String) :
    Handles scene (fun table => layout.Known table)
      (structField layout name field) fun table found =>
        table.Has found.2 := by
  refine .orFail _ fun found same table layoutKnown => ?_
  obtain ⟨index, -, rest⟩ := Option.bind_eq_some_iff.mp same
  obtain ⟨entry, entryFound, rfl⟩ := Option.map_eq_some_iff.mp rest
  exact layoutKnown.fields entry (List.mem_of_getElem? entryFound)

theorem handles_literalFields (layout : StructLayout) (name shape : String)
    (forms : List Form) :
    Handles scene (fun table => layout.Known table)
      (literalFields layout name shape forms) fun _ _ => True := by
  induction forms using literalFields.induct with
  | case1 fieldForm valueForm rest ih =>
      unfold literalFields
      refine .orFail_step _ fun field _ => ?_
      refine .step (handles_structField layout name field) (by tauto)
        fun ⟨index, type⟩ => ?_
      refine .step (handles_typedOperand valueForm type _) (by tauto)
        fun value => ?_
      refine .step ih (by tauto) fun fields => ?_
      exact .pure (by tauto)
  | case2 forms short =>
      unfold literalFields
      split
      · next fieldForm valueForm rest => exact absurd rfl (short _ _ _)
      · exact .pure (by tauto)

theorem emits_storeFields (struct : Value) (name : String)
    (fields : List (String × Nat × Value)) :
    Emits scene known (storeFields struct name fields) fun _ _ => True := by
  refine Emits.given ?_ fun _ _ => trivial
  induction fields with
  | nil => exact .pure (by tauto)
  | cons field fields ih =>
      exact emits_storeAt (emits_fieldPointer struct _ _) field.2.2 ih

theorem isQuiet_emitStructLiteral (items : List Form) :
    IsQuiet (emitStructLiteral items) := by
  intro scene
  unfold emitStructLiteral
  refine .parse fun _ _ => ?_
  refine .parse fun destination _ => ?_
  refine .parse fun name _ => ?_
  refine .parse fun pairs _ => ?_
  refine .ite (fun _ => .throw_bind _) fun _ => ?_
  refine .step (handles_structLayout name) (fun _ holds => holds)
    fun layout => ?_
  refine .step (handles_literalFields layout name _ pairs) (by tauto)
    fun fields => ?_
  refine .step (.lift (emits_alloca layout.type destination))
    (fun _ holds => holds.1.2.type) fun pointer => ?_
  refine .step (.lift (emits_storeFields pointer destination fields))
    (fun _ holds => holds) fun _ => ?_
  exact (handles_define destination pointer pointer.type).given
    fun _ holds => ⟨holds.1.2, holds.1.2.has⟩

theorem handles_memberAddress (items : List Form)
    (shape addressName : String) :
    Handles scene known (memberAddress items shape addressName)
      fun table found => found.1.Typed table ∧ table.Has found.2 := by
  unfold memberAddress
  refine Handles.given ?_ fun _ _ => trivial
  refine .parse fun name _ => ?_
  refine .parse fun field _ => ?_
  refine .step (handles_structLayout name) (fun _ holds => holds)
    fun layout => ?_
  refine .step (handles_structField layout name field) (by tauto)
    fun ⟨index, type⟩ => ?_
  refine .parse fun baseForm _ => ?_
  refine .step (handles_aggregateBase baseForm layout.type)
    (fun _ holds => holds.1.2.type) fun base => ?_
  refine handles_found _ (emits_fieldPointer base index addressName)
    (fun _ holds => holds) fun address => ?_
  exact .pure (by tauto)

theorem isQuiet_emitMember (items : List Form) :
    IsQuiet (emitMember items) := by
  intro scene
  unfold emitMember
  refine .parse fun _ _ => ?_
  refine .parse fun destination _ => ?_
  refine .step (handles_memberAddress items _ _) (fun _ holds => holds)
    fun ⟨address, type⟩ => ?_
  refine handles_found _ (emits_load address destination)
    (fun _ holds => holds) fun value => ?_
  exact (handles_define destination value type).given (by tauto)

theorem isQuiet_emitMemberAddress (items : List Form) :
    IsQuiet (emitMemberAddress items) := by
  intro scene
  unfold emitMemberAddress
  refine .parse fun _ _ => ?_
  refine .parse fun destination _ => ?_
  refine .step (handles_memberAddress items _ destination)
    (fun _ holds => holds) fun ⟨address, type⟩ => ?_
  exact (handles_define destination address address.type).given
    fun _ holds => ⟨holds.2.1, holds.2.1.has⟩

theorem isQuiet_emitUnionMember (items : List Form) :
    IsQuiet (emitUnionMember items) := by
  intro scene
  unfold emitUnionMember
  refine .parse fun _ _ => ?_
  refine .parse fun destination _ => ?_
  refine .parse fun name _ => ?_
  refine .parse fun field _ => ?_
  refine .look (fun _ => rfl) fun state ready _ => ?_
  refine .orFail_step _ fun layout found => ?_
  refine .orFail_step _ fun type typeFound => ?_
  obtain ⟨hasUnion, hasFields⟩ := ready.layouts.unions name layout found
  have has : state.table.Has type := by
    obtain ⟨entry, entryFound, rfl⟩ := Option.map_eq_some_iff.mp typeFound
    exact hasFields entry (List.mem_of_find?_eq_some entryFound)
  refine .parse fun baseForm _ => ?_
  refine .step (handles_aggregateBase baseForm layout.type)
    (fun _ holds => hasUnion.mono holds.2) fun base => ?_
  refine handles_found _ (emits_fieldPointer base 0 _) (fun _ holds => holds)
    fun storage => ?_
  refine .step (.lift (emits_pointer type))
    (fun _ holds => has.mono holds.1.1.2) fun pointerType => ?_
  refine .step (.lift (emits_bitcast storage pointerType _)) (by tauto)
    fun pointer => ?_
  refine handles_found _ (emits_load pointer destination)
    (fun _ holds => holds) fun value => ?_
  exact (handles_define destination value type).given
    fun _ holds => ⟨holds.2, has.mono holds.1.1.1.1.1.2⟩

/-! ## Sums -/

/-- The types of a sum are of the table. -/
structure SumLayout.Known (table : TypeTable) (layout : SumLayout) :
    Prop where
  type : table.Has layout.type
  fields : ∀ variant ∈ layout.variants, ∀ field ∈ variant.fields,
    table.Has field

theorem SumLayout.Known.mono {table later : TypeTable} {layout : SumLayout}
    (known : layout.Known table) (grows : table.Grows later) :
    layout.Known later :=
  ⟨known.type.mono grows, fun variant member field fieldMember =>
    (known.fields variant member field fieldMember).mono grows⟩

instance (layout : SumLayout) : Stable fun table => layout.Known table :=
  ⟨fun _ grows known => known.mono grows⟩

/-- The fields of a variant are of the table. -/
def Variant.Known (table : TypeTable) (variant : Variant) : Prop :=
  ∀ field ∈ variant.fields, table.Has field

instance (variant : Variant) : Stable fun table => variant.Known table :=
  ⟨fun _ grows known field member => (known field member).mono grows⟩

theorem SumLayout.Known.variant {table : TypeTable} {layout : SumLayout}
    (known : layout.Known table) {name : String} {variant : Variant}
    (found : layout.variant? name = some variant) : variant.Known table :=
  known.fields variant (List.mem_of_find?_eq_some found)

theorem EmitState.Ready.sumLayout {state : EmitState}
    (ready : state.Ready scene) {name : String} {layout : SumLayout}
    (found : scene.environment.layouts.sums.find? name = some layout) :
    layout.Known state.table := by
  obtain ⟨type, fields⟩ := ready.layouts.sums name layout found
  exact ⟨type, fields⟩

theorem handles_sumVariant (items : List Form) (sumAt variantAt : Nat)
    (shape : String) :
    Handles scene known (sumVariant items sumAt variantAt shape)
      fun table found => found.1.Known table ∧ found.2.Known table := by
  unfold sumVariant
  refine .parse fun sum _ => ?_
  refine .parse fun name _ => ?_
  refine .look (fun _ => rfl) fun state ready _ => ?_
  refine .orFail_step _ fun layout found => ?_
  refine .orFail_step _ fun variant variantFound => ?_
  refine .pure fun table holds => ?_
  have layoutKnown := (ready.sumLayout found).mono holds.2
  exact ⟨layoutKnown, layoutKnown.variant variantFound⟩

theorem Variant.Known.field {table later : TypeTable} {variant : Variant}
    (known : variant.Known table) {index : Nat} {found : Nat × TypeId}
    (same : variant.field? later index = some found) :
    table.Has found.2 := by
  obtain ⟨type, typeFound, rfl⟩ := Option.map_eq_some_iff.mp same
  exact known type (List.mem_of_getElem? typeFound)

theorem handles_payloadField (variant : Variant) (index : Nat) :
    Handles scene (fun table => variant.Known table)
      (payloadField variant index) fun table found =>
        table.Has found.2 := by
  unfold payloadField
  refine .look (fun _ => rfl) fun state _ _ => ?_
  exact .orFail _ fun found same table holds => holds.1.field same

theorem searches_payloadPointer (payload : Value) (offset : Nat)
    (type : TypeId) (name : String) :
    Searches scene (fun table => payload.Typed table ∧ table.Has type)
      (payloadPointer payload offset type name) := by
  unfold payloadPointer
  refine .step (emits_offsetPointer payload offset _) (by tauto)
    fun found => ?_
  cases found with
  | none => exact searches_none
  | some raw =>
      refine .step (emits_pointer type) (by tauto) fun pointer => ?_
      suffices casts : Emits scene
          (fun table => raw.Typed table ∧ table.Has pointer) _ _ from
        casts.given fun _ holds => ⟨holds.1.2 raw rfl, holds.2⟩
      refine .map (emits_bitcast raw pointer _) ?_
      rintro table value _ ⟨typed, -⟩ _ ⟨⟩
      exact typed

theorem handles_sumOperand (form : Form) (layout : SumLayout)
    (what : String) :
    HandlesValue scene (fun table => layout.Known table)
      (sumOperand form layout what) := by
  unfold sumOperand
  refine .step (handles_valueOf form) (by tauto) fun value => ?_
  refine .step (.lift (emits_pointer layout.type))
    (fun _ holds => holds.1.type) fun pointer => ?_
  refine .step (handles_expectType what pointer value.type) (by tauto)
    fun _ => ?_
  exact .pure (by tauto)

theorem handles_storePayload (payload : Value) (variant : Variant)
    (name : String) (index : Nat) (forms : List Form) :
    Handles scene
      (fun table => payload.Typed table ∧ variant.Known table)
      (storePayload payload variant name index forms) fun _ _ => True := by
  induction forms generalizing index with
  | nil => exact .pure (by tauto)
  | cons form forms ih =>
      unfold storePayload
      refine .step (handles_payloadField variant index) (by tauto)
        fun ⟨offset, type⟩ => ?_
      refine .step (handles_typedOperand form type _) (by tauto)
        fun value => ?_
      refine handles_found _ (searches_payloadPointer payload offset type _)
        (by tauto) fun pointer => ?_
      refine .step (.lift (emits_store value pointer)) (fun _ holds => holds)
        fun _ => ?_
      exact (ih (index + 1)).given (by tauto)

theorem isQuiet_emitSumNew (items : List Form) :
    IsQuiet (emitSumNew items) := by
  intro scene
  unfold emitSumNew
  refine .parse fun _ _ => ?_
  refine .parse fun destination _ => ?_
  refine .step (handles_sumVariant items 2 3 _) (fun _ holds => holds)
    fun ⟨layout, variant⟩ => ?_
  refine .parse fun fields _ => ?_
  refine .ite (fun _ => .throw_bind _) fun _ => ?_
  refine .step (.lift (emits_alloca layout.type destination))
    (fun _ holds => holds.2.1.type) fun sum => ?_
  refine handles_found _ (emits_fieldPointer sum 0 _) (fun _ holds => holds)
    fun tagAddress => ?_
  refine .step (.lift (emits_constantI32 _)) (fun _ holds => holds)
    fun tag => ?_
  refine .step (.lift (emits_store tag tagAddress)) (fun _ holds => holds)
    fun _ => ?_
  have rest : Handles scene
      (fun table => sum.Typed table ∧ layout.Known table) (do
        define destination sum (← TypeTable.pointer layout.type))
      fun _ _ => True := by
    refine .step (.lift (emits_pointer layout.type))
      (fun _ holds => holds.2.type) fun type => ?_
    exact (handles_define destination sum type).given (by tauto)
  refine .ite (fun _ => ?_) fun _ => rest.given (by tauto)
  refine handles_found _ (emits_fieldPointer sum 1 _) (fun _ holds => holds)
    fun payload => ?_
  refine .step (handles_storePayload payload variant destination 0 fields)
    (by tauto) fun _ => ?_
  exact rest.given (by tauto)

theorem isQuiet_emitSumIs (items : List Form) :
    IsQuiet (emitSumIs items) := by
  intro scene
  unfold emitSumIs
  refine .parse fun _ _ => ?_
  refine .parse fun destination _ => ?_
  refine .step (handles_sumVariant items 2 4 _) (fun _ holds => holds)
    fun ⟨layout, variant⟩ => ?_
  refine .parse fun valueForm _ => ?_
  refine .step (handles_sumOperand valueForm layout _) (by tauto)
    fun sum => ?_
  refine handles_found _ (emits_fieldPointer sum 0 _) (fun _ holds => holds)
    fun tagAddress => ?_
  refine handles_found _ (emits_load tagAddress _) (fun _ holds => holds)
    fun tag => ?_
  refine .step (.lift (emits_constantI32 _)) (fun _ holds => holds)
    fun expected => ?_
  refine .step (.lift (emits_compareInt .eq tag expected destination))
    (fun _ holds => holds) fun hit => ?_
  refine .step (.lift (emits_int 1)) (fun _ holds => holds) fun truth => ?_
  exact (handles_define destination hit truth).given (by tauto)

theorem isQuiet_emitSumGet (items : List Form) :
    IsQuiet (emitSumGet items) := by
  intro scene
  unfold emitSumGet
  refine .parse fun _ _ => ?_
  refine .parse fun destination _ => ?_
  refine .parse fun indexForm _ => ?_
  refine .orFail_step _ fun index _ => ?_
  refine .step (handles_sumVariant items 2 4 _) (fun _ holds => holds)
    fun ⟨layout, variant⟩ => ?_
  refine .step (handles_payloadField variant index) (by tauto)
    fun ⟨offset, type⟩ => ?_
  refine .parse fun valueForm _ => ?_
  refine .step (handles_sumOperand valueForm layout _) (by tauto)
    fun sum => ?_
  refine handles_found _ (emits_fieldPointer sum 1 _) (fun _ holds => holds)
    fun payload => ?_
  refine handles_found _ (searches_payloadPointer payload offset type _)
    (by tauto) fun pointer => ?_
  refine handles_found _ (emits_load pointer destination)
    (fun _ holds => holds) fun value => ?_
  exact (handles_define destination value type).given (by tauto)

/-! ## Literals -/

theorem runs_intern {module : Module} (sound : module.Sound)
    (pool : LiteralPool) (literal : Literal) :
    module.Runs (pool.intern literal) fun _ _ => True := by
  unfold LiteralPool.intern
  split
  · exact Preserves.pure sound trivial
  · apply (Module.runs_withTypes sound (TypeTable.yields_atomic sound.types
      (show (TypeKind.int 8).parts = [] from rfl))).bind
    rintro middle byte middleSound _ ⟨hasByte, -⟩
    apply (Module.runs_withTypes middleSound (TypeTable.yields_array
      middleSound.types hasByte literal.contents.length)).bind
    rintro later type laterSound _ ⟨has, -⟩
    apply (Module.runs_addGlobal laterSound _ has _ true .unlisted).bind
    intro last id lastSound _ _
    exact Preserves.pure lastSound trivial

theorem handles_defineLiteral (destination : String) (literal : Literal) :
    Handles scene known (defineLiteral destination literal)
      fun _ _ => True := by
  unfold defineLiteral
  refine Handles.given ?_ fun _ _ => trivial
  refine .look (fun _ => rfl) fun state _ _ => ?_
  have interns : Emits scene
      (fun table => True ∧ state.table.Grows table)
      (liftM (state.literals.intern literal) : Emission _) fun _ _ => True :=
    emits_onBuilder fun _ ready _ => Builder.builds_onModule ready
      (runs_intern ready.sound state.literals literal)
  refine .step (.lift interns) (fun _ holds => holds) fun ⟨id, literals⟩ => ?_
  refine .step (.lift (emits_modify fun state => ⟨literals,
    state.closureCount, state.problems, state.span, rfl⟩))
    (fun _ holds => holds) fun _ => ?_
  refine .step (.lift (emits_globalAddress id)) (fun _ holds => holds)
    fun array => ?_
  refine .step (.lift (emits_constantI32 0)) (fun _ holds => holds)
    fun zero => ?_
  refine handles_found _ (emits_elementPointer array [zero, zero] destination)
    (fun _ holds => holds) fun pointer => ?_
  exact (handles_define destination pointer pointer.type).given
    fun _ holds => ⟨holds.2, holds.2.has⟩

theorem isQuiet_emitTextLiteral (items : List Form) :
    IsQuiet (emitTextLiteral items) := by
  intro scene
  unfold emitTextLiteral
  refine .parse fun _ _ => ?_
  refine .parse fun destination _ => ?_
  refine .parse fun textForm _ => ?_
  refine .orFail_step _ fun text _ => ?_
  exact handles_defineLiteral destination (.ofText text)

theorem isQuiet_emitBytesLiteral (items : List Form) :
    IsQuiet (emitBytesLiteral items) := by
  intro scene
  unfold emitBytesLiteral
  refine .parse fun _ _ => ?_
  refine .parse fun destination _ => ?_
  refine .parse fun elements _ => ?_
  refine .orFail_step _ fun contents _ => ?_
  exact handles_defineLiteral destination (.ofBytes contents)

end FormCompiler
