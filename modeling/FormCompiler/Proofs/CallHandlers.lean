import FormCompiler.Emit.Coroutine
import FormCompiler.Emit.Invocation
import FormCompiler.Emit.Phi
import FormCompiler.Proofs.AggregateHandlers

/-!
# Plain instructions are quiet: calls

Functions are declared where they are first called.  Calls through pointers,
variadic arguments and the steps of coroutines stay in the current block.
-/

namespace FormCompiler

open Ir

variable {scene : Scene} {known : TypeTable → Prop}

/-! ## Arguments -/

theorem handles_looseOperand (form : Form) :
    HandlesValue scene known (looseOperand form) := by
  refine Handles.given ?_ fun _ _ => trivial
  have word (form : Form) : HandlesValue scene (fun _ => True)
      (do operand form (← TypeTable.int 32)) := by
    refine .step (.lift (emits_int 32)) (fun _ holds => holds)
      fun type => ?_
    exact (handles_operand form type).given (by tauto)
  unfold looseOperand
  split
  · exact word _
  · exact word _
  · refine .step (.lift (emits_atomic rfl)) (fun _ holds => holds)
      fun type => ?_
    exact (handles_operand _ type).given (by tauto)
  · exact handles_valueOf form

/-- Well-typed arguments. -/
abbrev HandlesValues (scene : Scene) (known : TypeTable → Prop)
    (handler : Handler (List Value)) : Prop :=
  Handles scene known handler fun table values =>
    ∀ value ∈ values, value.Typed table

theorem handles_consValues [Stable known] {handler : Handler Value}
    {rest : Handler (List Value)} (first : HandlesValue scene known handler)
    (others : HandlesValues scene known rest) :
    HandlesValues scene known (do
      let value ← handler
      pure (value :: (← rest))) := by
  refine .step first (fun _ holds => holds) fun value => ?_
  refine .step others (fun _ holds => holds.1) fun values => ?_
  refine .pure fun table holds => ?_
  rw [List.forall_mem_cons]
  exact ⟨holds.1.2, holds.2⟩

theorem handles_argumentValues (parameters : List TypeId)
    (forms : List Form) :
    HandlesValues scene (fun table => ∀ type ∈ parameters, table.Has type)
      (argumentValues parameters forms) := by
  induction forms generalizing parameters with
  | nil =>
      unfold argumentValues
      exact .pure fun _ _ => by simp
  | cons form forms ih =>
      cases parameters with
      | nil => exact handles_consValues (handles_looseOperand form) (ih [])
      | cons type parameters =>
          apply handles_consValues
          · exact (handles_typedOperand form type "argument").given
              fun _ holds => holds type List.mem_cons_self
          · exact (ih parameters).given fun _ holds other member =>
              holds other (List.mem_cons_of_mem _ member)

/-- What a type says of a function is known where the table has it. -/
theorem EmitState.Ready.signature {state : EmitState}
    (ready : state.Ready scene) {type : TypeId}
    {signature : TypeTable.Signature}
    (found : state.table.signature? type = some signature) :
    state.table.Has signature.result ∧
      ∀ parameter ∈ signature.parameters, state.table.Has parameter :=
  ready.builder.sound.types.signature found

theorem handles_callArguments (callee : String) (type : TypeId)
    (forms : List Form) :
    HandlesValues scene known (callArguments callee type forms) := by
  unfold callArguments
  refine .look (fun _ => rfl) fun state ready _ => ?_
  refine .orFail_step _ fun signature found => ?_
  refine .ite (fun _ => .throw_bind _) fun _ => ?_
  refine (handles_argumentValues signature.parameters forms).given ?_
  intro table holds parameter member
  exact ((ready.signature found).2 parameter member).mono holds.2

/-! ## Functions -/

theorem emits_functionType (result : TypeId) (parameters : List TypeId)
    (variadic : Bool) :
    Emits scene
      (fun table => table.Has result ∧
        ∀ parameter ∈ parameters, table.Has parameter)
      (liftM (TypeTable.function result parameters variadic) :
        Emission TypeId)
      fun table type => table.signature? type =
        some ⟨result, parameters, variadic⟩ := by
  refine emits_onBuilder fun _ ready has => ?_
  refine (Builder.builds_onTypes ready
    (TypeTable.yields_function ready.sound.types has.1 has.2 variadic)).weaken
      fun _ _ found => ?_
  rw [TypeTable.signature?, found.2]

theorem preserves_declareFunction {state : EmitState}
    (ready : state.Ready scene) (name : String) {result : TypeId}
    (has : state.table.Has result) {parameters : List TypeId}
    (hasAll : ∀ parameter ∈ parameters, state.table.Has parameter)
    (variadic : Bool) :
    Preserves (EmitState.Ready scene) EmitState.Quiet state
      (declareFunction name result parameters variadic scene.environment)
      fun later id => id < later.builder.module.functions.length := by
  refine .look rfl ?_
  cases found : state.builder.module.function? name with
  | some id => exact Preserves.pure ready (Module.lt_of_function? found)
  | none =>
      apply (emits_functionType result parameters variadic state ready
        ⟨has, hasAll⟩).before
      intro later type laterReady _ found
      exact preserves_onBuilder laterReady (Builder.builds_onModule
        laterReady.builder (Module.runs_addFunction laterReady.builder.sound
          name found .external))

theorem emits_declareFunction (name : String) (result : TypeId)
    (parameters : List TypeId) (variadic : Bool) :
    Emits scene
      (fun table => table.Has result ∧
        ∀ parameter ∈ parameters, table.Has parameter)
      (declareFunction name result parameters variadic) fun _ _ => True :=
  fun _ ready has =>
    (preserves_declareFunction ready name has.1 has.2 variadic).forget

/-- The types of values are of the table. -/
theorem has_types {table : TypeTable} {values : List Value}
    (typed : ∀ value ∈ values, value.Typed table) :
    ∀ type ∈ values.map Value.type, table.Has type := by
  intro type member
  obtain ⟨value, valueMember, rfl⟩ := List.mem_map.mp member
  exact (typed value valueMember).has

theorem handles_defineResult (destination : String) (value : Value)
    (type : TypeId) :
    Handles scene (fun table => value.Typed table ∧ table.Has type)
      (defineResult destination value type) fun _ _ => True := by
  refine .look (fun _ => rfl) fun _ _ _ => ?_
  refine .ite (fun _ => .pure (by tauto)) fun _ => ?_
  exact (handles_define destination value type).given (by tauto)

theorem isQuiet_emitCallIndirect (items : List Form) :
    IsQuiet (emitCallIndirect items) := by
  intro scene
  unfold emitCallIndirect
  refine .ite (fun _ => .throw_bind _) fun _ => ?_
  refine .parse fun destination _ => ?_
  refine .parse fun typeForm _ => ?_
  refine .step (handles_typeOf typeForm) (by tauto) fun result => ?_
  refine .parse fun name _ => ?_
  refine .parse fun calleeForm _ => ?_
  refine .step (handles_valueOf calleeForm) (by tauto) fun callee => ?_
  refine .look (fun _ => rfl) fun _ _ _ => ?_
  refine .orFail_step _ fun ⟨type, signature⟩ _ => ?_
  refine .parse fun forms _ => ?_
  refine .step (handles_callArguments name type forms)
    (fun _ holds => holds) fun arguments => ?_
  refine .step (handles_expectType _ result signature.result)
    (fun _ holds => holds) fun _ => ?_
  refine handles_found _ (emits_call callee arguments destination)
    (fun _ holds => holds) fun value => ?_
  exact (handles_defineResult destination value result).given (by tauto)

theorem handles_pointedFunction (name : String) (type : TypeId) :
    Handles scene known (pointedFunction name type) fun _ _ => True := by
  unfold pointedFunction
  refine .look (fun _ => rfl) fun _ _ _ => ?_
  split
  · exact .pure (by tauto)
  · refine .look (fun _ => rfl) fun state ready _ => ?_
    split
    · next signature found =>
        obtain ⟨pointee, -, found⟩ := Option.bind_eq_some_iff.mp found
        obtain ⟨result, parameters⟩ := ready.signature found
        refine (Handles.lift (emits_declareFunction name _ _ _)).given ?_
        intro table holds
        exact ⟨result.mono holds.2,
          fun parameter member => (parameters parameter member).mono holds.2⟩
    · exact handles_rejectType _ _

theorem isQuiet_emitFunctionPointer (items : List Form) :
    IsQuiet (emitFunctionPointer items) := by
  intro scene
  unfold emitFunctionPointer
  refine .parse fun _ _ => ?_
  refine .parse fun destination _ => ?_
  refine .parse fun typeForm _ => ?_
  refine .step (handles_typeOf typeForm) (by tauto) fun type => ?_
  refine .parse fun name _ => ?_
  refine .step (handles_pointedFunction name type) (fun _ holds => holds)
    fun id => ?_
  refine .step (.lift (emits_functionAddress id)) (fun _ holds => holds)
    fun value => ?_
  refine .step (handles_expectType _ type value.type) (fun _ holds => holds)
    fun _ => ?_
  exact (handles_define destination value type).given (by tauto)

/-! ## Variadic arguments -/

theorem emits_callOnList (routine name : String) (list : Value) :
    Emits scene (fun table => list.Typed table)
      (callOnList routine name list) fun _ _ => True := by
  unfold callOnList
  refine .step (emits_atomic rfl) (fun _ holds => holds) fun void => ?_
  refine .step emits_bytePointer (fun _ holds => holds) fun pointer => ?_
  refine .step (emits_declareFunction routine void [pointer] false) ?_
    fun id => ?_
  · intro table holds
    simpa using ⟨holds.1.2, holds.2⟩
  · refine .step (emits_bitcast list pointer _) (by tauto) fun raw => ?_
    refine .step (emits_functionAddress id) (fun _ holds => holds)
      fun callee => ?_
    refine .step (emits_call callee [raw] "") (fun _ holds => holds)
      fun _ => ?_
    exact .pure (by tauto)

theorem handles_argumentList (form : Form) (shape : String) :
    HandlesValue scene known (argumentList form shape) := by
  unfold argumentList
  refine Handles.given ?_ fun _ _ => trivial
  refine .step (handles_valueOf form) (fun _ holds => holds) fun list => ?_
  refine .step (.lift emits_bytePointer) (fun _ holds => holds)
    fun pointer => ?_
  refine .look (fun _ => rfl) fun _ _ _ => ?_
  exact .ite (fun _ => .pure (by tauto)) fun _ => .throw _

theorem isQuiet_emitVaStart (items : List Form) :
    IsQuiet (emitVaStart items) := by
  intro scene
  unfold emitVaStart
  refine .parse fun _ _ => ?_
  refine .parse fun name _ => ?_
  refine .look (fun _ => rfl) fun _ _ _ => ?_
  refine .look (fun _ => rfl) fun _ _ _ => ?_
  refine .ite (fun _ => .throw_bind _) fun _ => ?_
  refine .step (.lift emits_bytePointer) (fun _ holds => holds)
    fun pointer => ?_
  refine .step (.lift (emits_entryAlloca pointer name)) (by tauto)
    fun list => ?_
  refine .step (.lift (emits_callOnList "llvm.va_start" name list))
    (by tauto) fun _ => ?_
  exact (Handles.lift (emits_bind name list list.type)).given
    fun _ holds => ⟨holds.1.2, holds.1.2.has⟩

theorem isQuiet_emitVaArg (items : List Form) :
    IsQuiet (emitVaArg items) := by
  intro scene
  unfold emitVaArg
  refine .parse fun _ _ => ?_
  refine .parse fun destination _ => ?_
  refine .parse fun typeForm _ => ?_
  refine .step (handles_typeOf typeForm) (by tauto) fun type => ?_
  refine .parse fun listForm _ => ?_
  refine .step (handles_argumentList listForm _) (fun _ holds => holds)
    fun list => ?_
  refine .step (.lift (emits_vaArg list type destination)) (by tauto)
    fun value => ?_
  exact (handles_define destination value type).given (by tauto)

theorem isQuiet_emitVaEnd (items : List Form) :
    IsQuiet (emitVaEnd items) := by
  intro scene
  unfold emitVaEnd
  refine .parse fun _ _ => ?_
  refine .parse fun name _ => ?_
  refine .parse fun listForm _ => ?_
  refine .step (handles_argumentList listForm _) (fun _ holds => holds)
    fun list => ?_
  exact (Handles.lift (emits_callOnList "llvm.va_end" name list)).given
    (by tauto)

/-! ## Coroutines -/

theorem emits_stepType (step : CoroutineStep) :
    Emits scene known (liftM step.type : Emission TypeId)
      fun table type => table.Has type := by
  cases step <;>
    first
    | exact emits_bytePointer
    | exact emits_atomic rfl

theorem handles_coroutineOperand (form : Form) (type : TypeId) :
    HandlesValue scene known (coroutineOperand form type) := by
  unfold coroutineOperand
  refine Handles.given ?_ fun _ _ => trivial
  refine .step (handles_valueOf form) (fun _ holds => holds) fun value => ?_
  refine .step (handles_expectType _ type value.type) (fun _ holds => holds)
    fun _ => ?_
  exact .pure (by tauto)

theorem handles_callRoutine (name : String) (result : TypeId)
    (arguments : List Value) (resultName : String) :
    HandlesValue scene
      (fun table => table.Has result ∧
        ∀ argument ∈ arguments, argument.Typed table)
      (callRoutine name result arguments resultName) := by
  unfold callRoutine
  refine .step (.lift (emits_declareFunction name result _ false))
    (fun _ holds => ⟨holds.1, has_types holds.2⟩) fun id => ?_
  refine .step (.lift (emits_functionAddress id)) (fun _ holds => holds)
    fun callee => ?_
  refine .step (.lift (emits_call callee arguments resultName))
    (fun _ holds => holds) fun found => ?_
  exact .orFail _ fun value same _ holds => holds.2 value same

theorem emits_setCoroutine (value : Value) :
    Emits scene (fun table => value.Typed table)
      (modify fun state => { state with coroutineId := some value } :
        Emission Unit) fun _ _ => True := by
  intro state ready typed
  refine ⟨⟨⟨ready.context, ready.layouts, ready.pending, ready.apart, ?_,
    ready.escapes, ?_⟩, ready.builder⟩, ⟨Builder.Quiet.refl _,
      fun _ escapes => .inl escapes, rfl, List.prefix_refl _⟩, trivial⟩
  · rintro other ⟨⟩
    exact typed
  · intro join member
    have settled := ready.matchEnds join member
    exact ⟨settled.known, settled.notFirst, settled.has, settled.aside,
      settled.settled⟩

theorem emits_addAttributes (id : FunctionId) (attributes : List Attribute) :
    Emits scene known
      (liftM (Module.addAttributes id attributes) : Emission Unit)
      fun _ _ => True :=
  emits_onBuilder fun _ ready _ => (Builder.builds_onModule ready
    (Module.runs_addAttributes ready.sound id attributes)).weaken
      fun _ _ _ => trivial

theorem handles_beginCoroutine (handle : String) :
    HandlesValue scene known (beginCoroutine handle) := by
  unfold beginCoroutine
  refine Handles.given ?_ fun _ _ => trivial
  refine .step (.lift emits_bytePointer) (fun _ holds => holds)
    fun pointer => ?_
  refine .step (.lift (emits_atomic rfl)) (fun _ holds => holds)
    fun token => ?_
  refine .step (.lift (emits_constantZero pointer)) (by tauto)
    fun null => ?_
  refine .step (.lift (emits_constantI32 0)) (fun _ holds => holds)
    fun align => ?_
  refine .step (handles_callRoutine _ token [align, null, null, null] _) ?_
    fun id => ?_
  · rintro table ⟨⟨⟨⟨-, -⟩, hasToken⟩, nullTyped, -⟩, alignTyped⟩
    simpa using ⟨hasToken, alignTyped, nullTyped⟩
  · refine .step (.lift (emits_setCoroutine id)) (by tauto) fun _ => ?_
    refine .step (handles_callRoutine _ pointer [id, null] handle) ?_
      fun begun => ?_
    · rintro table ⟨⟨⟨⟨⟨⟨-, hasPointer⟩, -⟩, nullTyped, -⟩, -⟩, idTyped⟩, -⟩
      simpa using ⟨hasPointer, idTyped, nullTyped⟩
    · refine .look (fun _ => rfl) fun _ _ _ => ?_
      refine .step (.lift (emits_addAttributes _ _)) (fun _ holds => holds)
        fun _ => ?_
      exact .pure (by tauto)

theorem handles_suspensionToken (form : Form) :
    HandlesValue scene known (suspensionToken form) := by
  unfold suspensionToken
  refine Handles.given ?_ fun _ _ => trivial
  refine .step (handles_valueOf form) (fun _ holds => holds) fun value => ?_
  refine .step (.lift (emits_atomic rfl)) (fun _ holds => holds)
    fun token => ?_
  exact .ite (fun _ => .pure (by tauto)) fun _ => .lift emits_constantNone

/-- An operand first. -/
theorem handles_operand_step {Result : Type}
    {gives : TypeTable → Result → Prop} [Stable known]
    (form : Except ProblemCause Form) (type : TypeId)
    {next : Value → Handler Result}
    (rest : ∀ value, Handles scene
      (fun table => known table ∧ value.Typed table) (next value) gives) :
    Handles scene known (do
      let value ← coroutineOperand (← form) type
      next value) gives := by
  refine .parse fun item _ => ?_
  exact .step (handles_coroutineOperand item type) (fun _ holds => holds) rest

theorem handles_buildStep (step : CoroutineStep) (items : List Form)
    (destination : String) (result : TypeId) :
    HandlesValue scene (fun table => table.Has result)
      (buildStep step items destination result) := by
  unfold buildStep
  refine .step (.lift emits_bytePointer) (fun _ holds => holds)
    fun pointer => ?_
  refine .step (.lift (emits_atomic rfl)) (fun _ holds => holds)
    fun token => ?_
  -- a call of what is known to be well typed
  have calls (name resultName : String) (arguments : List Value) :=
    @handles_callRoutine scene name result arguments resultName
  cases step with
  | begin => exact handles_beginCoroutine destination
  | id =>
      refine .look (fun _ => rfl) fun state ready _ => ?_
      refine .orFail _ fun value same table holds => ?_
      exact (ready.coroutine value same).mono ready.builder.sound.types
        holds.2
  | size => exact (calls _ destination []).given (by simp; tauto)
  | alloc =>
      refine handles_operand_step _ token fun id => ?_
      exact (calls _ destination [id]).given (by simp; tauto)
  | free =>
      refine handles_operand_step _ token fun id => ?_
      refine handles_operand_step _ pointer fun handle => ?_
      exact (calls _ destination [id, handle]).given (by simp; tauto)
  | save =>
      refine handles_operand_step _ pointer fun handle => ?_
      exact (calls _ destination [handle]).given (by simp; tauto)
  | suspend =>
      refine .parse fun item _ => ?_
      refine .step (handles_suspensionToken item) (fun _ holds => holds)
        fun saved => ?_
      refine .step (.lift (emits_constantBool false)) (fun _ holds => holds)
        fun last => ?_
      exact (calls _ destination [saved, last]).given (by simp; tauto)
  | finalSuspend =>
      refine .parse fun item _ => ?_
      refine .step (handles_suspensionToken item) (fun _ holds => holds)
        fun saved => ?_
      refine .step (.lift (emits_constantBool true)) (fun _ holds => holds)
        fun last => ?_
      exact (calls _ destination [saved, last]).given (by simp; tauto)
  | promise =>
      refine handles_operand_step _ pointer fun handle => ?_
      refine .step (.lift (emits_constantI32 0)) (fun _ holds => holds)
        fun align => ?_
      refine .step (.lift (emits_constantBool false)) (fun _ holds => holds)
        fun backwards => ?_
      exact (calls _ destination [handle, align, backwards]).given
        (by simp; tauto)
  | done =>
      refine handles_operand_step _ pointer fun handle => ?_
      exact (calls _ destination [handle]).given (by simp; tauto)
  | resume =>
      refine handles_operand_step _ pointer fun handle => ?_
      exact (calls _ "" [handle]).given (by simp; tauto)
  | destroy =>
      refine handles_operand_step _ pointer fun handle => ?_
      exact (calls _ "" [handle]).given (by simp; tauto)
  | finish =>
      refine handles_operand_step _ pointer fun handle => ?_
      refine .step (.lift (emits_constantBool false)) (fun _ holds => holds)
        fun unwinding => ?_
      refine .step (.lift emits_constantNone) (fun _ holds => holds)
        fun outside => ?_
      refine .step (.lift (emits_int 1)) (fun _ holds => holds)
        fun truth => ?_
      exact (handles_callRoutine _ truth [handle, unwinding, outside] _).given
        (by simp; tauto)

theorem isQuiet_emitCoroutineStep (step : CoroutineStep)
    (items : List Form) : IsQuiet (emitCoroutineStep step items) := by
  intro scene
  unfold emitCoroutineStep
  refine .parse fun _ _ => ?_
  refine .look (fun _ => rfl) fun _ _ _ => ?_
  refine .ite (fun _ => ?_) fun _ => ?_
  · refine .step (.lift (emits_stepType step)) (fun _ holds => holds)
      fun result => ?_
    refine .ite (fun _ => ?_) fun _ => ?_
    · refine .parse fun destination _ => ?_
      refine .step (handles_buildStep step items destination result)
        (by tauto) fun value => ?_
      exact (handles_define destination value result).given (by tauto)
    · refine .step (handles_buildStep step items "" result) (by tauto)
        fun _ => ?_
      exact .pure (by tauto)
  · refine .ite (fun _ => ?_) fun _ => .pure (by tauto)
    refine .parse fun destination _ => ?_
    refine .step (.lift (emits_stepType step)) (fun _ holds => holds)
      fun result => ?_
    refine .step (.lift (emits_constantZero result)) (by tauto)
      fun value => ?_
    exact (handles_define destination value result).given (by tauto)

end FormCompiler
