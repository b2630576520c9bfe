import FormCompiler.Proofs.CheckedOperands
import FormCompiler.Proofs.ClosureHandlers

/-!
# Arguments and signatures

A call names its callee, goes through a function pointer, or goes through a
closure record.  In each case the arguments are checked against the parameters
of the callee before the call is built: there are as many as the callee takes,
and each argument has the type of its parameter.

The environment that a closure record passes on is not checked.  It is the first
argument of a call through the record, and all that is known is that the other
ones suit the callee.
-/

namespace FormCompiler

open Ir

open EmitState (AddsOnly)

/-! ## Arguments for parameters -/

/-- Every parameter has an argument, and where the type of the parameter is
first-class, it is the type of the argument. -/
def Ir.Suits : List IrType → List Operand → Prop
  | [], _ => True
  | _ :: _, [] => False
  | parameter :: parameters, argument :: arguments =>
      (parameter.isFirstClass = true → argument.type = parameter) ∧
        Suits parameters arguments

/-- Every type has a value. -/
def Answers : List TypeId → List Value → Prop
  | [], _ => True
  | _ :: _, [] => False
  | type :: types, value :: values => value.type = type ∧ Answers types values

/-- The arguments of a call suit its parameters, from one of them on. -/
structure Ir.SuitsFrom (first : Nat) (parameters : List IrType)
    (variadic : Bool) (arguments : List Operand) : Prop where
  enough : parameters.length ≤ arguments.length
  exact : variadic = false → arguments.length = parameters.length
  types : Suits (parameters.drop first) (arguments.drop first)

/-- A call or an invocation whose arguments suit the callee. -/
def Ir.Operation.IsSuited (first : Nat) : Operation → Prop
  | .call _ parameters variadic _ arguments
  | .invoke _ parameters variadic _ arguments _ _ =>
      SuitsFrom first parameters variadic arguments
  | _ => False

/-- Values that a callee may be called with. -/
structure Serves (first : Nat) (table : TypeTable) (callee : Value)
    (arguments : List Value) : Prop where
  typed : callee.Typed table
  argumentsTyped : ∀ argument ∈ arguments, argument.Typed table
  fits : ∃ type signature,
    Builder.calleeType? table callee = some (type, signature) ∧
      signature.parameters.length ≤ arguments.length ∧
      (signature.variadic = false →
        arguments.length = signature.parameters.length) ∧
      Answers (signature.parameters.drop first) (arguments.drop first)

variable {first : Nat} {table later : TypeTable} {callee : Value}
  {arguments : List Value}

/-- What a callee points to stays the same. -/
theorem calleeType?_mono (typed : callee.Typed table)
    (grows : table.Grows later) {type : TypeId}
    {signature : TypeTable.Signature}
    (found : Builder.calleeType? table callee = some (type, signature)) :
    Builder.calleeType? later callee = some (type, signature) := by
  obtain ⟨pointee, signatureFound⟩ := Builder.calleeType?_eq_some found
  have has := TypeTable.has_of_signature signatureFound
  rw [Builder.calleeType?, typed.has.pointee_eq grows, pointee,
    Option.bind_some, has.signature_eq grows, signatureFound]
  rfl

theorem Serves.mono (serves : Serves first table callee arguments)
    (closed : table.Closed) (grows : table.Grows later) :
    Serves first later callee arguments := by
  obtain ⟨type, signature, found, rest⟩ := serves.fits
  refine ⟨serves.typed.mono closed grows, ?_, type, signature,
    calleeType?_mono serves.typed grows found, rest⟩
  intro argument member
  exact (serves.argumentsTyped argument member).mono closed grows

instance (first : Nat) (callee : Value) (arguments : List Value) :
    Stable fun table => Serves first table callee arguments :=
  ⟨fun closed grows serves => serves.mono closed grows⟩

/-- Values of a type that is first-class across function boundaries are
operands of the type that it is lowered to. -/
theorem operands_type_eq {value : Value} (typed : value.Typed table)
    (firstClass :
      (lowered table boundaryLevels value.type).isFirstClass = true) :
    value.operandOrToken = value.operand ∧
      value.operand.type = lowered table boundaryLevels value.type := by
  have isOf : value.operand.IsOf table value.type :=
    ⟨value, typed, rfl, rfl⟩
  refine ⟨?_, isOf.type_eq firstClass⟩
  have fits := typed.fits
  unfold Value.operandOrToken Value.operand
  cases content : value.content with
  | firstClass operand | nothing => rfl
  | token operand =>
      rw [content, Content.Fits, firstClass] at fits
      cases fits

theorem suits_of_answers {types : List TypeId} {values : List Value}
    (answers : Answers types values)
    (typed : ∀ value ∈ values, value.Typed table) {operand : Value → Operand}
    (either : operand = Value.operand ∨ operand = Value.operandOrToken) :
    Suits (types.map (lowered table boundaryLevels)) (values.map operand) := by
  induction types generalizing values with
  | nil => exact trivial
  | cons type types ih =>
      cases values with
      | nil => exact answers
      | cons value values =>
          rw [List.forall_mem_cons] at typed
          obtain ⟨rfl, others⟩ := answers
          refine ⟨fun firstClass => ?_, ih others typed.2⟩
          obtain ⟨same, type⟩ := operands_type_eq typed.1 firstClass
          rcases either with rfl | rfl
          · exact type
          · rw [same]
            exact type

/-- What is built of values that serve a callee is suited. -/
theorem Serves.suits (serves : Serves first table callee arguments)
    {type : TypeId} {signature : TypeTable.Signature}
    (found : Builder.calleeType? table callee = some (type, signature))
    {operand : Value → Operand}
    (either : operand = Value.operand ∨ operand = Value.operandOrToken) :
    SuitsFrom first (signature.parameters.map (lowered table boundaryLevels))
      signature.variadic (arguments.map operand) := by
  obtain ⟨_, _, same, enough, exact, answers⟩ := serves.fits
  cases same.symm.trans found
  refine ⟨?_, ?_, ?_⟩
  · simpa using enough
  · simpa using exact
  · rw [← List.map_drop, ← List.map_drop]
    refine suits_of_answers answers (fun value member => ?_) either
    exact serves.argumentsTyped value (List.mem_of_mem_drop member)

/-! ## Calls that are built -/

namespace Ir

namespace Module

variable {added : Operation → Prop} {declares : Prop}

/-- A function keeps its name, and none of its blocks gets an instruction. -/
theorem adds_modifyFunction (id : FunctionId) {change : Function → Function}
    (named : ∀ function, (change function).name = function.name)
    (same : ∀ function index operation,
      (change function).Performs index operation →
        function.Performs index operation) :
    Relates (AddsOnly added declares) (modifyFunction id change) := by
  refine fun module => ⟨fun block operation _ performs => .inl ?_,
    .inr ⟨map_modify_eq named module.functions id, rfl⟩⟩
  rw [Performs, function_modifyFunction] at performs
  split at performs
  · exact same _ block.index operation performs
  · exact performs

theorem adds_appendBlock (function : FunctionId) (name : String) :
    Relates (AddsOnly added declares) (appendBlock function name) := by
  refine fun module => adds_modifyFunction function ?_ ?_ module
  · exact fun _ => rfl
  rintro function index operation ⟨block, found, instruction, member, same⟩
  refine ⟨block, ?_, instruction, member, same⟩
  rw [List.getElem?_append] at found
  split at found
  · exact found
  · -- The new block has no instructions yet.
    obtain rfl := List.mem_singleton.mp (List.mem_of_getElem? found)
    cases member

theorem adds_of_functions_eq {Result : Type}
    {operation : StateM Module Result}
    (same : ∀ module, (operation module).2.functions = module.functions)
    (globals : ∀ module, (operation module).2.globals = module.globals) :
    Relates (AddsOnly added declares) operation :=
  fun module => .of_functions_eq (same module) (globals module)

theorem adds_addFunction (allowed : declares) (name : String) (type : TypeId)
    (linkage : Linkage) :
    Relates (AddsOnly added declares) (addFunction name type linkage) := by
  refine .get_bind fun seen => ?_
  split
  · exact .pure _
  · refine .bind (adds_of_functions_eq (fun _ => rfl) fun _ => rfl)
      fun lowered => ?_
    refine .bind (adds_of_functions_eq (fun _ => rfl) fun _ => rfl)
      fun symbol => ?_
    refine .bind (adds_of_functions_eq
      (fun _ => by rw [pushParameters_eq]) fun _ => by rw [pushParameters_eq])
      fun parameters => ?_
    refine .bind (fun module => ⟨?_, .inl allowed⟩) fun _ => .pure _
    refine fun id operation _ performs => .inl ?_
    rw [Performs, function_append rfl id.function] at performs
    split at performs
    · obtain ⟨block, found, -⟩ := performs
      cases found
    · exact performs

end Module

namespace Builder

variable {added : Operation → Prop} {declares : Prop}

theorem adds_appendBlock (name : String) :
    Relates (AddsOnly added declares) (appendBlock name) :=
  .get_bind fun _ => adds_onModule (Module.adds_appendBlock _ name)

theorem adds_functionAddress (id : FunctionId) :
    Relates (AddsOnly added declares) (functionAddress id) :=
  .get_bind fun _ => .bind (adds_onTypes _) fun type => adds_push _ type

theorem adds_insertEffect {operation : Operation}
    (allowed : operation.isChecked = true → added operation) :
    Relates (AddsOnly added declares) (insertEffect operation) := by
  refine .bind adds_attached fun block => ?_
  split
  · exact .bind (adds_insert _ allowed "") fun _ => .pure ()
  · exact .pure ()

theorem adds_cast (operator : CastOperator) (value : Value)
    (target : TypeId) (name : String) :
    Relates (AddsOnly added declares) (cast operator value target name) := by
  refine .ite (.pure value)
    (.bind (adds_lowerFirstClass? _) fun lowered => ?_)
  split
  · exact adds_constant _ target
  · refine .ite (adds_push _ target) (.bind adds_attached fun block => ?_)
    split
    · exact adds_constant _ target
    · exact .ite (adds_push _ target) (adds_insertValue _ nofun name target)

theorem adds_elementPointer (base : Value) (indices : List Value)
    (name : String) :
    Relates (AddsOnly added declares) (elementPointer base indices name) := by
  refine .get_bind fun builder => ?_
  dsimp only [pure_bind]
  split
  · exact .pure none
  · next pointee element _ =>
      refine .bind (adds_onTypes _) fun type => ?_
      refine .bind adds_attached fun block => ?_
      split
      · exact .map (adds_constant _ type) some
      · refine .ite (.pure none) ?_
        refine .bind (adds_lowerFirstClass? _) fun lowered => ?_
        split
        · exact .pure none
        · exact .ite (.map (adds_insertValue _ nofun name type) some)
            (.pure none)

theorem adds_fieldPointer (base : Value) (field : Nat) (name : String) :
    Relates (AddsOnly added declares) (fieldPointer base field name) := by
  have word (number : Int) :
      Relates (AddsOnly added declares) (constantI32 number) :=
    .bind (adds_onTypes _) fun type => adds_constantInt type number
  refine .bind (word 0) fun zero => .ite ?_ (.pure none)
  exact .bind (word field) fun index => adds_elementPointer base _ name

theorem adds_landingPad (cleanup : Bool) (clauses : List Value)
    (name : String) :
    Relates (AddsOnly added declares) (landingPad cleanup clauses name) := by
  have type : Relates (AddsOnly added declares) landingPadType :=
    .bind (adds_onTypes _) fun _ => .bind (adds_onTypes _) fun _ =>
      adds_onTypes _
  refine .bind type fun type => .bind adds_attached fun block => ?_
  split
  · exact adds_constant _ type
  · refine .bind (adds_lowerFirstClass? _) fun lowered => ?_
    split
    · exact adds_constant _ type
    · exact adds_insertValue _ nofun name type

theorem adds_insertPad {operation : Operation}
    (allowed : operation.isChecked = true → added operation)
    (name : String) :
    Relates (AddsOnly added declares) (insertPad operation name) := by
  refine .bind (adds_onTypes _) fun type => .bind adds_attached fun block => ?_
  split
  · exact adds_constant _ type
  · exact .bind (adds_insert _ allowed _) fun _ => adds_push _ type

/-- A call that is built on values that serve its callee. -/
theorem adds_buildCall {builder : Builder} {first : Nat} {callee : Value}
    {arguments : List Value}
    (serves : Serves first builder.module.types callee arguments)
    {make : IrType → List IrType → Bool → Operand → List Operand → Operation}
    (suited : ∀ result parameters variadic callee arguments,
      SuitsFrom first parameters variadic arguments →
        added (make result parameters variadic callee arguments))
    (name : String) :
    builder.AddsOnly added declares
      (buildCall make callee arguments name builder).2 := by
  obtain ⟨type, signature, found, -⟩ := serves.fits
  unfold buildCall
  rw [stateM_bind_apply,
    show types builder = (builder.module.types, builder) from rfl]
  dsimp only
  rw [found]
  dsimp only
  rw [stateM_bind_apply]
  cases cursor : builder.block with
  | none =>
      have detached : (attached builder).1 = none := by
        simp [attached, stateM_get_bind, cursor]
        rfl
      have attaches : Relates (AddsOnly added declares) attached :=
        adds_attached
      have undefined : Relates (AddsOnly added declares)
          (some <$> constantUndef signature.result) :=
        .map (adds_constant _ _) some
      rw [detached]
      exact Trans.trans (attaches builder) (undefined _)
  | some block =>
      have placed : attached builder = (some block, builder) := by
        simp [attached, stateM_get_bind, cursor]
        rfl
      rw [placed]
      dsimp only
      rw [stateM_bind_apply]
      have lowers : (onModule (Module.lower type) builder).1 =
          lowered builder.module.types loweringLevels type :=
        lowerWithin_fst builder.module.types loweringLevels type _
      have lowering : Relates (AddsOnly added declares)
          (onModule (Module.lower type)) :=
        adds_of_functions_eq (fun _ => rfl) fun _ => rfl
      rw [lowers, show lowered builder.module.types loweringLevels type = _
        from lowered_function (calleeType?_eq_some found).2 64]
      refine Trans.trans (lowering builder)
        ((?_ : Relates (AddsOnly added declares) _) _)
      refine .ite ?_ (.ite ?_ (.pure none))
      · have suits := serves.suits found (.inr rfl)
        refine .bind (adds_insert _ (fun _ => suited _ _ _ _ _ suits) _)
          fun operand => ?_
        refine .bind (adds_of_functions_eq (fun _ => rfl) fun _ => rfl)
          fun result => ?_
        exact .map (adds_push _ _) some
      · have suits := serves.suits found (.inl rfl)
        refine .bind (adds_insert _ (fun _ => suited _ _ _ _ _ suits) _)
          fun operand => ?_
        exact .map (adds_push _ _) some

end Builder

end Ir

/-! ## Steps that add no calls -/

variable {added : Operation → Prop} {declares : Prop} {Result : Type}

theorem adds_looseOperand (form : Form) :
    Tries (AddsOnly added declares) [] (looseOperand form) := by
  have constant (form : Form) (operation : StateM TypeTable TypeId) :
      Tries (AddsOnly added declares) [] (do operand form (← operation)) :=
    .step (.lift (adds_onBuilder (Builder.adds_onTypes _)))
      fun type => adds_operand form type
  unfold looseOperand
  split
  · exact constant _ _
  · exact constant _ _
  · exact constant _ _
  · exact adds_valueOf _

theorem adds_typedOperand (form : Form) (type : TypeId) (what : String) :
    Tries (AddsOnly added declares) [] (typedOperand form type what) := by
  refine .step (adds_operand form type) fun value => ?_
  exact .step (adds_expectType _ type value.type) fun _ => .pure value

theorem adds_argumentValues (types : List TypeId) (forms : List Form) :
    Tries (AddsOnly added declares) [] (argumentValues types forms) := by
  induction forms generalizing types with
  | nil =>
      unfold argumentValues
      exact .pure []
  | cons form forms ih =>
      cases types with
      | nil =>
          exact .step (adds_looseOperand form) fun value =>
            .step (ih []) fun values => .pure _
      | cons type types =>
          exact .step (adds_typedOperand form type "argument") fun value =>
            .step (ih types) fun values => .pure _

theorem adds_callArguments (callee : String) (type : TypeId)
    (forms : List Form) :
    Tries (AddsOnly added declares) [] (callArguments callee type forms) := by
  refine .step (.lift adds_types) fun table => ?_
  refine .orFail_step _ fun signature _ => ?_
  exact .ite (.throw _) (adds_argumentValues signature.parameters forms)

theorem adds_module : Does (AddsOnly added declares) [] module :=
  adds_of_builder_eq (fun _ _ => rfl) fun _ _ => rfl

theorem adds_declareFunction (allowed : declares) (name : String)
    (result : TypeId) (parameters : List TypeId) (variadic : Bool) :
    Does (AddsOnly added declares) []
      (declareFunction name result parameters variadic) := by
  refine .step adds_module fun module => ?_
  split
  · exact .pure _
  · refine .step (adds_onBuilder (Builder.adds_onTypes _)) fun type => ?_
    exact adds_onBuilder (Builder.adds_onModule
      (Module.adds_addFunction allowed name type .external))

theorem adds_calledFunction (allowed : declares) (name : String)
    (result : TypeId) (forms : List Form) :
    Tries (AddsOnly added declares) [] (calledFunction name result forms) := by
  refine .step (.lift adds_module) fun module => ?_
  split
  · refine .step (.lift adds_module) fun module => ?_
    exact .step (adds_callArguments name _ forms) fun _ => .pure _
  · refine .step (.mapM fun form _ => adds_looseOperand form)
      fun arguments => ?_
    exact .step (.lift (adds_declareFunction allowed name result _ false))
      fun _ => .pure _

theorem adds_defineResult (destination : String) (value : Value)
    (type : TypeId) :
    Tries (AddsOnly added declares) [] (defineResult destination value type) :=
  .step (.lift adds_types) fun _ =>
    .ite (.pure ()) (adds_define destination value type)

theorem adds_positionAtEnd (block : BlockId) :
    Does (AddsOnly added declares) []
      (liftM (Builder.positionAtEnd block) : Emission Unit) :=
  adds_onBuilder fun _ => ⟨Std.Refl.refl _⟩

/-- A detour adds what it emits. -/
theorem EmitState.AddsOnly.elsewhere {emission : Emission Result}
    {environment : Environment} {state : EmitState}
    (adds : AddsOnly added declares environment [] state
      (emission environment state).2) :
    AddsOnly added declares environment [] state
      (elsewhere emission environment state).2 := by
  obtain ⟨module, -, -⟩ := Builder.restore_save state.builder
    (emission environment state).2.builder
  refine ⟨?_, adds.closures⟩
  show state.builder.module.AddsOnly added declares (Builder.restore
    (Builder.save state.builder).1
    (emission environment state).2.builder).2.module
  rw [module]
  exact adds.module

theorem adds_elsewhere {emission : Emission Result}
    (adds : Does (AddsOnly added declares) [] emission) :
    Does (AddsOnly added declares) [] (elsewhere emission) :=
  fun environment state => (adds environment state).elsewhere

theorem adds_freshId : Does (AddsOnly added declares) [] freshId :=
  adds_of_builder_eq (fun _ _ => rfl) fun _ _ => rfl

theorem adds_resumingPad : Does (AddsOnly added declares) [] resumingPad := by
  refine .step adds_freshId fun id => ?_
  refine .step (adds_onBuilder (Builder.adds_appendBlock _)) fun block => ?_
  refine .step (adds_elsewhere ?_) fun _ => .pure _
  refine .step (adds_positionAtEnd block) fun _ => ?_
  refine .step (adds_onBuilder (Builder.adds_landingPad true [] "lpad"))
    fun pad => ?_
  exact adds_onBuilder (Builder.adds_insertEffect nofun)

theorem adds_returningPad : Does (AddsOnly added declares) [] returningPad := by
  refine .step (adds_onBuilder (Builder.adds_appendBlock _)) fun block => ?_
  refine .step (adds_elsewhere ?_) fun _ => .pure _
  refine .step (adds_positionAtEnd block) fun _ => ?_
  refine .step (adds_onBuilder (.bind (Builder.adds_onTypes _)
    fun type => Builder.adds_constant _ type)) fun outside => ?_
  refine .step (adds_onBuilder (Builder.adds_insertPad nofun _))
    fun pad => ?_
  exact adds_onBuilder (Builder.adds_insertEffect nofun)

theorem adds_unwindTarget (personality : Personality) :
    Does (AddsOnly added declares) [] (unwindTarget personality) := by
  have looks : Does (AddsOnly added declares) [] (get : Emission EmitState) :=
    adds_of_builder_eq (fun _ _ => rfl) fun _ _ => rfl
  refine .step looks fun state => ?_
  cases personality with
  | itanium =>
      dsimp only
      split
      · exact .pure _
      · exact adds_resumingPad
  | seh =>
      dsimp only
      split
      · exact .pure _
      · refine .step looks fun state => ?_
        split
        · exact .pure _
        · refine .step adds_returningPad fun block => ?_
          exact .step (adds_of_builder_eq (fun _ _ => rfl) fun _ _ => rfl)
            fun _ => .pure _

theorem adds_loadField (record : Value) (index : Nat) (name : String) :
    Does (AddsOnly added declares) [] (loadField record index name) := by
  refine .step (adds_onBuilder (Builder.adds_fieldPointer record index _))
    fun found => ?_
  split
  · exact adds_onBuilder (Builder.adds_load _ name)
  · exact .pure none

theorem adds_closureTarget (name : String) :
    Tries (AddsOnly added declares) [] (closureTarget name) :=
  .step (.lift adds_module) fun _ => .orFail _ _

/-! ## Checked arguments -/

theorem gives_expectType (what : String) (expected found : TypeId) :
    Gives (expectType what expected found) fun _ => found = expected := by
  refine .ite (fun same => .pure same) fun _ => ?_
  exact .skip fun _ => .skip fun _ => .throw _

theorem gives_typedOperand (form : Form) (type : TypeId) (what : String) :
    Gives (typedOperand form type what) fun value => value.type = type := by
  refine .skip fun value => ?_
  exact .bind (gives_expectType _ type value.type) fun _ same => .pure same

/-- There is an argument for every form, and they answer the parameters. -/
theorem gives_argumentValues (types : List TypeId) (forms : List Form) :
    Gives (argumentValues types forms) fun values =>
      values.length = forms.length ∧
        (types.length ≤ forms.length → Answers types values) := by
  induction forms generalizing types with
  | nil =>
      unfold argumentValues
      refine .pure ⟨rfl, fun none => ?_⟩
      rw [List.length_eq_zero_iff.mp (Nat.le_zero.mp none)]
      exact trivial
  | cons form forms ih =>
      cases types with
      | nil =>
          refine .skip fun value => .bind (ih []) fun values both => ?_
          exact .pure ⟨congrArg (· + 1) both.1, fun _ => trivial⟩
      | cons type types =>
          refine .bind (gives_typedOperand form type "argument")
            fun value same => .bind (ih types) fun values both => ?_
          refine .pure ⟨congrArg (· + 1) both.1, fun enough => ⟨same, ?_⟩⟩
          exact both.2 (Nat.le_of_succ_le_succ enough)

theorem Handles.known {scene : Scene} {known : TypeTable → Prop}
    {handler : Handler Result} {gives : TypeTable → Result → Prop}
    {good : Result → Prop} (handles : Handles scene known handler gives)
    (holds : Gives handler good) :
    Handles scene known handler fun table result =>
      gives table result ∧ good result := by
  intro state ready knows
  obtain ⟨laterReady, quiet, given⟩ := handles state ready knows
  exact ⟨laterReady, quiet, fun result outcome =>
    ⟨given result outcome, holds _ _ result outcome⟩⟩

variable {scene : Scene} {known : TypeTable → Prop}

/-- Arguments that a function of a type may be called with. -/
def Answered (table : TypeTable) (type : TypeId) (arguments : List Value) :
    Prop :=
  ∃ signature, table.signature? type = some signature ∧
    signature.parameters.length ≤ arguments.length ∧
    (signature.variadic = false →
      arguments.length = signature.parameters.length) ∧
    Answers signature.parameters arguments ∧
    ∀ argument ∈ arguments, argument.Typed table

theorem Answered.mono {type : TypeId}
    (answered : Answered table type arguments) (closed : table.Closed)
    (grows : table.Grows later) : Answered later type arguments := by
  obtain ⟨signature, found, enough, exact, answers, typed⟩ := answered
  have has := TypeTable.has_of_signature found
  refine ⟨signature, (has.signature_eq grows).trans found, enough, exact,
    answers, fun argument member => ?_⟩
  exact (typed argument member).mono closed grows

instance (type : TypeId) (arguments : List Value) :
    Stable fun table => Answered table type arguments :=
  ⟨fun closed grows answered => answered.mono closed grows⟩

theorem Answered.serves {type : TypeId}
    (answered : Answered table type arguments) (typed : callee.Typed table)
    (pointee : table.pointee? callee.type = some type) :
    Serves 0 table callee arguments := by
  obtain ⟨signature, found, enough, exact, answers, allTyped⟩ := answered
  refine ⟨typed, allTyped, type, signature, ?_, enough, exact, answers⟩
  rw [Builder.calleeType?, pointee, Option.bind_some, found]
  rfl

theorem handles_answered (callee : String) (type : TypeId)
    (forms : List Form) :
    Handles scene (fun _ => True) (callArguments callee type forms)
      fun table arguments => Answered table type arguments := by
  unfold callArguments
  refine .look (fun _ => rfl) fun state ready _ => ?_
  refine .orFail_step _ fun signature found => ?_
  refine .ite (fun _ => .throw_bind _) fun counts => ?_
  rw [← bind_pure (argumentValues signature.parameters forms)]
  refine .step ((handles_argumentValues signature.parameters forms).known
    (gives_argumentValues signature.parameters forms)) ?_ fun arguments => ?_
  · intro table holds parameter member
    exact ((ready.signature found).2 parameter member).mono holds.2
  · refine .pure ?_
    rintro table ⟨⟨-, grows⟩, typed, count, answers⟩
    have has := TypeTable.has_of_signature found
    refine ⟨signature, (has.signature_eq grows).trans found, ?_, ?_, ?_,
      typed⟩
    · omega
    · intro exact
      simp only [exact] at counts
      simp at counts
      omega
    · exact answers (by omega)

theorem vouches_call (callee : Value) (arguments : List Value)
    (name : String) :
    Vouches scene (fun table => Serves first table callee arguments)
      (liftM (Builder.call callee arguments name) : Handler (Option Value))
      fun _ operation => operation.IsSuited first := by
  intro state ready serves
  have emits : Emits scene (fun _ => True)
      (liftM (Builder.call callee arguments name) : Emission (Option Value))
      _ := emits_call callee arguments name
  have adds : state.builder.AddsOnly (Operation.IsSuited first) True
      (Builder.call callee arguments name state.builder).2 :=
    Builder.adds_buildCall serves (fun _ _ _ _ _ suits => suits) name
  exact ⟨(emits state ready trivial).follows.grows, adds.module.new⟩

/-- What follows a call. -/
theorem vouches_called (cause : ProblemCause) (found : Option Value)
    (destination : String) (result : TypeId) :
    Vouches scene (fun table => table.Has result ∧
        ∀ value ∈ found, value.Typed table) (do
      let value ← orFail cause found
      defineResult destination value result)
      fun _ operation => operation.IsSuited first := by
  refine .orFail_step _ fun value same => ?_
  refine (Vouches.spares (handles_defineResult destination value result)
    (adds_defineResult destination value result)).given ?_
  exact fun _ holds => ⟨holds.2 value same, holds.1⟩

theorem vouches_emitCallIndirect (items : List Form) :
    Vouches scene (fun _ => True) (emitCallIndirect items)
      fun _ operation => operation.IsSuited 0 := by
  unfold emitCallIndirect
  refine .ite (fun _ => .throw_bind _) fun _ => ?_
  refine .parse fun destination _ => ?_
  refine .parse fun typeForm _ => ?_
  refine .skip (handles_typeOf typeForm) (adds_typeOf typeForm) (by tauto)
    fun result => ?_
  refine .parse fun name _ => ?_
  refine .parse fun calleeForm _ => ?_
  refine .skip (handles_valueOf calleeForm) (adds_valueOf calleeForm)
    (by tauto) fun callee => ?_
  refine .look (fun _ => rfl) fun state _ seen => ?_
  refine .orFail_step _ fun ⟨type, signature⟩ found => ?_
  refine .parse fun forms _ => ?_
  refine .skip (handles_answered name type forms)
    (adds_callArguments name type forms) (by tauto) fun arguments => ?_
  refine .skip (handles_expectType _ result signature.result)
    (adds_expectType _ result signature.result) (fun _ holds => holds)
    fun _ => ?_
  have serves : ∀ table, callee.Typed table → state.table.Grows table →
      Answered table type arguments → Serves 0 table callee arguments := by
    intro table typed grows answered
    have pointee := (Builder.calleeType?_eq_some found).1
    exact answered.serves typed
      ((seen.2.has.pointee_eq grows).trans pointee)
  refine .step (.lift (emits_call callee arguments destination))
    ((vouches_call callee arguments destination).given fun table holds =>
      serves table holds.1.1.1.2 holds.1.1.2 holds.1.2)
    (fun _ holds => holds) fun found => ?_
  exact (vouches_called _ found destination result).given
    fun _ holds => ⟨holds.1.1.1.1.1.2, holds.2⟩

/-! ## Calls through closure records -/

theorem emits_pointerTo (pointee : TypeId) :
    Emits scene (fun table => table.Has pointee)
      (liftM (TypeTable.pointer pointee) : Emission TypeId)
      fun table type => table.Has type ∧
        table.kind type = .pointer pointee :=
  emits_onBuilder fun _ ready has => Builder.builds_pointer ready has

theorem vouches_rejectType {good : TypeTable → Operation → Prop}
    (what : String) (type : TypeId) :
    Vouches scene known (rejectType what type : Handler Result) good :=
  .look (fun _ => rfl) fun _ _ _ => .throw _

/-- The arguments behind the environment answer the other parameters. -/
theorem serves_closure {type pointer : TypeId}
    {signature : TypeTable.Signature} {captured : Value}
    (found : table.signature? type = some signature)
    (kind : table.kind pointer = .pointer type)
    (typed : callee.Typed table) (same : callee.type = pointer)
    (capturedTyped : captured.Typed table)
    (argumentsTyped : ∀ argument ∈ arguments, argument.Typed table)
    (arity : signature.parameters.length = arguments.length + 1)
    (answers : Answers signature.parameters.tail arguments) :
    Serves 1 table callee (captured :: arguments) := by
  refine ⟨typed, List.forall_mem_cons.mpr ⟨capturedTyped, argumentsTyped⟩,
    type, signature, ?_, ?_, ?_, ?_⟩
  · rw [Builder.calleeType?, TypeTable.pointee?, same, kind]
    simp [found]
  · rw [arity, List.length_cons]
  · intro _
    rw [arity, List.length_cons]
  · rw [List.drop_one]
    exact answers

theorem vouches_emitCallClosure (items : List Form) :
    Vouches scene (fun _ => True) (emitCallClosure items)
      fun _ operation => operation.IsSuited 1 := by
  unfold emitCallClosure
  refine .ite (fun _ => .throw_bind _) fun _ => ?_
  refine .parse fun destination _ => ?_
  refine .parse fun typeForm _ => ?_
  refine .skip (handles_typeOf typeForm) (adds_typeOf typeForm) (by tauto)
    fun result => ?_
  refine .parse fun recordForm _ => ?_
  refine .skip (handles_valueOf recordForm) (adds_valueOf recordForm)
    (by tauto) fun record => ?_
  refine .look (fun _ => rfl) fun _ _ _ => ?_
  split
  · exact vouches_rejectType _ _
  next name _ =>
  refine .skip (handles_closureTarget name) (adds_closureTarget name)
    (fun _ holds => holds) fun target => ?_
  refine .look (fun _ => rfl) fun home _ _ => ?_
  refine .look (fun _ => rfl) fun state ready _ => ?_
  refine .orFail_step _ fun signature found => ?_
  refine .skip (handles_expectType _ result signature.result)
    (adds_expectType _ result signature.result) (fun _ holds => holds)
    fun _ => ?_
  refine .parse fun forms _ => ?_
  refine .ite (fun _ => .throw_bind _) fun arity => ?_
  rw [not_not] at arity
  refine .parse fun parameters read => ?_
  obtain rfl := (itemsFrom_eq_ok read).trans List.drop_one
  refine .skip ((handles_argumentValues signature.parameters.tail
    forms).known (gives_argumentValues signature.parameters.tail forms))
    (adds_argumentValues _ _) ?_ fun arguments => ?_
  · intro table holds parameter member
    have grows : state.table.Grows table := by tauto
    exact ((ready.signature found).2 parameter
      (List.mem_of_mem_tail member)).mono grows
  refine .skip (.lift (searches_loadField record 0 _))
    (.lift (adds_loadField record 0 _)) (fun _ holds => holds)
    fun erasedFound => ?_
  refine .orFail_step _ fun erased erasedSame => ?_
  refine .skip (.lift (searches_loadField record 1 _))
    (.lift (adds_loadField record 1 _)) (fun _ holds => holds)
    fun capturedFound => ?_
  refine .orFail_step _ fun captured capturedSame => ?_
  refine .skip (.lift (emits_pointerTo _))
    (.lift (adds_onBuilder (Builder.adds_onTypes _))) ?_ fun pointer => ?_
  · intro table holds
    have grows : state.table.Grows table := by tauto
    exact (TypeTable.has_of_signature found).mono grows
  refine .skip (.lift (emits_bitcast erased pointer _))
    (.lift (adds_onBuilder (Builder.adds_cast _ erased pointer _))) ?_
    fun callee => ?_
  · rintro table ⟨⟨⟨-, erasedTyped⟩, -⟩, has, -⟩
    exact ⟨erasedTyped erased erasedSame, has⟩
  refine .step (.lift (emits_call callee (captured :: arguments)
    destination)) ((vouches_call callee (captured :: arguments)
      destination).given ?_) (fun _ holds => holds) fun found => ?_
  · rintro table ⟨⟨⟨⟨⟨⟨⟨-, grows⟩, -⟩, typed, count, answers⟩, -⟩,
      capturedTyped⟩, -, kind⟩, calleeTyped, same⟩
    have has := TypeTable.has_of_signature found
    refine serves_closure ((has.signature_eq grows).trans found) kind
      calleeTyped same (capturedTyped captured capturedSame) typed
      (arity.trans (congrArg (· + 1) count.symm)) (answers ?_)
    rw [List.length_tail, arity]
    exact Nat.le_refl _
  · exact (vouches_called _ found destination result).given (by tauto)

end FormCompiler
