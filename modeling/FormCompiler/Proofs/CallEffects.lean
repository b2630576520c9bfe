import FormCompiler.Proofs.InstructionEffects

/-!
# What calls, closures and coroutines do

Calls through pointers and closures, the thunks behind closures, the steps of
coroutines and phis do plain work as well.  A thunk is built in a function of
its own, and the builder comes back.  So does the reading of a match up to its
blocks, and the reading of conditions.
-/

namespace FormCompiler

open Ir

variable {Result : Type} {uses : List NameUse} {items : List Form}

/-! ## Calls -/

theorem tries_looseOperand (form : Form) :
    Tries EmitState.Plainly [] (looseOperand form) := by
  unfold looseOperand
  split
  · exact .step (.lift (does_types _)) fun type => tries_operand _ type
  · exact .step (.lift (does_types _)) fun type => tries_operand _ type
  · exact .step (.lift (does_types _)) fun type => tries_operand _ type
  · exact tries_valueOf _

theorem tries_argumentValues (types : List TypeId) (forms : List Form) :
    Tries EmitState.Plainly [] (argumentValues types forms) := by
  fun_induction argumentValues types forms with
  | case1 => exact .pure []
  | case2 form forms ih =>
      exact .step (tries_looseOperand form) fun value =>
        .step ih fun _ => .pure _
  | case3 type types form forms ih =>
      exact .step (tries_typedOperand form type _) fun value =>
        .step ih fun _ => .pure _

theorem tries_callArguments (callee : String) (type : TypeId)
    (forms : List Form) :
    Tries EmitState.Plainly [] (callArguments callee type forms) := by
  refine .step (.lift does_tables) fun table => ?_
  refine .orFail_step _ fun signature _ => .ite (.throw _) ?_
  exact tries_argumentValues signature.parameters forms

theorem tries_defineResult (destination : String) (value : Value)
    (type : TypeId) :
    Tries EmitState.Plainly (results destination)
      (defineResult destination value type) :=
  .step (.lift does_tables) fun _ =>
    .ite (.pure ()) (tries_define destination value type)

theorem tries_calledFunction (name : String) (result : TypeId)
    (forms : List Form) :
    Tries EmitState.Plainly [] (calledFunction name result forms) := by
  refine .step (.lift does_module) fun module => ?_
  split
  · refine .step (.lift does_module) fun module => ?_
    exact .step (tries_callArguments name _ forms) fun _ => .pure _
  · refine .step (.mapM fun form _ => tries_looseOperand form)
      fun arguments => ?_
    exact .step (.lift (does_declareFunction name result _ false))
      fun _ => .pure _

/-- The result of a call, where there is one. -/
theorem Tries.called {cause : ProblemCause} {callee : Value}
    {arguments : List Value} {name : String} {next : Value → Handler Result}
    (rest : ∀ value, Tries EmitState.Plainly uses (next value)) :
    Tries EmitState.Plainly uses (do
      next (← FormCompiler.orFail cause
        (← liftM (Builder.call callee arguments name)))) :=
  .step (.lift (does_onBuilder (Builder.computes_call callee arguments name)))
    fun _ => .orFail_step cause fun value _ => rest value

theorem tries_emitCallIndirect (items : List Form) :
    Tries EmitState.Plainly (usesAt results items 1)
      (emitCallIndirect items) := by
  refine .ite (.throw _) (.destination fun destination => ?_)
  refine .parse fun _ _ => .step (tries_typeOf _) fun result => ?_
  refine .parse fun name _ => .parse fun _ _ => ?_
  refine .step (tries_valueOf _) fun callee => ?_
  refine .step (.lift does_tables) fun table => ?_
  refine .orFail_step _ fun (type, signature) _ => ?_
  refine .parse fun forms _ => ?_
  refine .step (tries_callArguments name type forms) fun arguments => ?_
  refine .step (tries_expectType _ result signature.result) fun _ => ?_
  exact .called fun value => tries_defineResult destination value result

theorem tries_pointedFunction (name : String) (type : TypeId) :
    Tries EmitState.Plainly [] (pointedFunction name type) := by
  refine .step (.lift does_module) fun module => ?_
  split
  · exact .pure _
  · refine .step (.lift does_tables) fun table => ?_
    split
    · exact .lift (does_declareFunction name _ _ _)
    · exact tries_rejectType _ type

theorem tries_emitFunctionPointer (items : List Form) :
    Tries EmitState.Plainly (usesAt results items 1)
      (emitFunctionPointer items) := by
  refine .parse fun _ _ => .destination fun destination => ?_
  refine .parse fun _ _ => .step (tries_typeOf _) fun type => ?_
  refine .parse fun name _ => ?_
  refine .step (tries_pointedFunction name type) fun id => ?_
  refine .step (.lift (does_onBuilder (Builder.computes_functionAddress id)))
    fun value => ?_
  exact .step (tries_expectType _ type value.type) fun _ =>
    tries_define destination value type

theorem does_buildDefaultReturn (type : TypeId) :
    Does EmitState.Plainly [] (buildDefaultReturn type) := by
  refine .step does_tables fun table => .ite ?_ ?_
  · exact does_onBuilder Builder.computes_retVoid
  · exact .step (does_onBuilder (Builder.computes_constantZero type))
      fun value => does_onBuilder (Builder.computes_ret value)

theorem tries_emitReturn (items : List Form) :
    Tries EmitState.Plainly [] (emitReturn items) := by
  refine .step (.lift does_returnType) fun expected => ?_
  split
  · exact .lift (does_buildDefaultReturn expected)
  · exact .lift (does_buildDefaultReturn expected)
  · refine .step (tries_typeOf _) fun type => ?_
    refine .step (tries_expectType _ expected type) fun _ => ?_
    refine .step (tries_typedOperand _ type _) fun value => ?_
    exact does_onBuilder (Builder.computes_ret value)
  · exact .throw _

/-! ## Variadic arguments -/

theorem does_callOnList (routine name : String) (list : Value) :
    Does EmitState.Plainly [] (callOnList routine name list) := by
  refine .step (does_types _) fun void => .step (does_types _) fun pointer => ?_
  refine .step (does_declareFunction routine void _ false) fun id => ?_
  refine .step (does_onBuilder
    (Builder.computes_cast .bitcast list pointer _)) fun raw => ?_
  refine .step (does_onBuilder (Builder.computes_functionAddress id))
    fun callee => ?_
  exact .step (does_onBuilder (Builder.computes_call callee _ ""))
    fun _ => .pure ()

theorem tries_argumentList (form : Form) (shape : String) :
    Tries EmitState.Plainly [] (argumentList form shape) := by
  refine .step (tries_valueOf form) fun list => ?_
  refine .step (.lift (does_types _)) fun pointer => ?_
  exact .step (.lift (does_pointeeOf? list)) fun _ =>
    .ite (.pure list) (.throw _)

/-- The uses of a name that a list of arguments is started as. -/
def listUses (name : String) : List NameUse := [.bound name]

theorem tries_emitVaStart (items : List Form) :
    Tries EmitState.Plainly (usesAt listUses items 1) (emitVaStart items) := by
  refine .parse fun _ _ => .parse fun name found => ?_
  rw [usesAt_eq found]
  refine .step (.lift does_tables) fun table => ?_
  refine .step (.lift does_functionType) fun type => .ite (.throw _) ?_
  refine .step (.lift (does_types _)) fun pointer => ?_
  refine .step (.lift (does_onBuilder
    (Builder.computes_entryAlloca pointer name))) fun list => ?_
  refine .step (.lift (does_callOnList _ name list)) fun _ => ?_
  exact .lift (does_bind name list list.type)

theorem tries_emitVaArg (items : List Form) :
    Tries EmitState.Plainly (usesAt results items 1) (emitVaArg items) := by
  refine .parse fun _ _ => .destination fun destination => ?_
  refine .parse fun _ _ => .step (tries_typeOf _) fun type => ?_
  refine .parse fun _ _ => .step (tries_argumentList _ _) fun list => ?_
  exact .step (.lift (does_onBuilder
    (Builder.computes_vaArg list type destination)))
    fun value => tries_define destination value type

theorem tries_emitVaEnd (items : List Form) :
    Tries EmitState.Plainly [] (emitVaEnd items) := by
  refine .parse fun _ _ => .parse fun name _ => .parse fun _ _ => ?_
  exact .step (tries_argumentList _ _) fun list =>
    .lift (does_callOnList _ name list)

/-! ## Closures -/

theorem tries_capturedValue (items : List Form) (index : Nat)
    (shape : String) :
    Tries EmitState.Plainly [] (capturedValue items index shape) := by
  refine .parse fun captured _ => ?_
  split
  · exact tries_valueOf _
  · exact .throw _

theorem tries_closureTarget (name : String) :
    Tries EmitState.Plainly [] (closureTarget name) :=
  .step (.lift does_module) fun _ => .orFail _ _

theorem does_addEnvironment (number : Nat) (type : TypeId) :
    Does EmitState.Plainly [] (addEnvironment number type) :=
  .step does_tables fun _ => does_onBuilder
    (Builder.computes_addEnvironment number type _)

theorem does_nameParameters (function : FunctionId) (count : Nat) :
    Does EmitState.Plainly [] (nameParameters function count) :=
  .each fun index _ => does_onBuilder
    (Builder.computes_setParameterName function index _)

theorem does_callTarget (thunk : FunctionId) (environment : GlobalId)
    (target : FunctionId) (signature : TypeTable.Signature) :
    Does EmitState.Plainly []
      (callTarget thunk environment target signature) := by
  refine .step (does_onBuilder (Builder.computes_globalAddress environment))
    fun slot => ?_
  refine .step (does_onBuilder (Builder.computes_load slot "env"))
    fun captured => .step does_module fun module => ?_
  refine .step (does_onBuilder (Builder.computes_functionAddress target))
    fun callee => ?_
  exact does_onBuilder (Builder.computes_call callee _ "retv")

theorem does_returnResult (type : TypeId) (result : Option Value) :
    Does EmitState.Plainly [] (returnResult type result) := by
  unfold returnResult
  split
  · exact .step does_tables fun _ =>
      .ite (does_onBuilder Builder.computes_retVoid)
        (does_onBuilder (Builder.computes_ret _))
  · exact does_onBuilder Builder.computes_retVoid

/-- An emission that comes back to where it started. -/
theorem quietly_elsewhere {emission : Emission Result}
    (does : Does EmitState.Roams uses emission) :
    Does EmitState.Quietly uses (elsewhere emission) := by
  intro environment state
  have roams := does environment state
  obtain ⟨module, function, block⟩ := Builder.restore_save state.builder
    (emission environment state).2.builder
  exact ⟨roams.uses, ⟨module ▸ roams.module, function, block⟩, roams.loops,
    roams.unwindTargets⟩

/-- Coming back to a block, the builder finds out whether it is terminated. -/
theorem Ir.Builder.ends_restore (builder later : Builder)
    (before : (Builder.restore (Builder.save builder).1
      later).2.beforeTerminator = true) (block : BlockId)
    (placed : builder.block = some block) :
    later.isTerminatedBlock block = true := by
  obtain ⟨module, function, _, beforeTerminator, detached⟩ := builder
  cases placed
  cases beforeTerminator with
  | false => cases before
  | true => exact before

namespace EmitState

variable {environment : Environment} {state inner : EmitState}

/-- Coming back to where the builder was leaves it steady. -/
theorem evolves_restored
    (wanders : state.builder.Steady → state.Wanders inner) :
    state.Evolves environment [] { inner with
      builder := (Builder.restore (Builder.save state.builder).1
        inner.builder).2 } := by
  intro steady
  obtain ⟨events, trace, slots⟩ := wanders steady
  obtain ⟨module, function, block⟩ :=
    Builder.restore_save state.builder inner.builder
  have ends := Builder.ends_restore state.builder inner.builder
  generalize (Builder.restore (Builder.save state.builder).1
    inner.builder).2 = last at *
  refine ⟨⟨?_, fun before place placed => ?_⟩, events, ?_, slots⟩
  · rw [function, module]
    exact trace.known steady.entered
  · have terminated := ends before place (block.symm.trans placed)
    unfold Builder.isTerminatedBlock at terminated ⊢
    rw [module]
    exact terminated
  · show Draft.Trace state.draft events ⟨last.module, inner.literals⟩
    rw [module]
    exact trace

/-- What happens elsewhere is a trace, and the builder comes back. -/
theorem evolves_elsewhere {emission : Emission Result}
    (wanders : state.builder.Steady →
      state.Wanders (emission environment state).2) :
    state.Evolves environment [] (elsewhere emission environment state).2 :=
  evolves_restored wanders

end EmitState

theorem does_elsewhere {emission : Emission Result}
    (does : Does EmitState.Roams uses emission)
    (evolves : Does EmitState.Evolves [] emission) :
    Does EmitState.Plainly uses (elsewhere emission) :=
  fun environment state => ⟨quietly_elsewhere does environment state,
    EmitState.evolves_elsewhere fun steady =>
      (evolves environment state steady).2⟩

theorem roams_moved {operation : Build Result}
    (same : ∀ builder, (operation builder).2.module = builder.module) :
    Does EmitState.Roams [] (onBuilder operation) := by
  intro environment state
  refine ⟨⟨[], .refl [], .refl _⟩, ?_, rfl, rfl⟩
  show state.builder.module.Flows [] (operation state.builder).2.module
  rw [same]
  exact .refl _

theorem evolves_onBuilder {operation : Build Result}
    (advances : Relates Builder.Advances operation) :
    Does EmitState.Evolves [] (onBuilder operation) :=
  fun _ state => .of_advances (advances state.builder)

/-- The builder in a block that it added to its function. -/
def Ir.Builder.inEntry (builder : Builder) : Builder :=
  let appended := Builder.appendBlock "entry" builder
  (Builder.positionAtEnd appended.1 appended.2).2

/-- What happens from a new block of a function that is there on is a
trace. -/
theorem EmitState.wanders_inEntry {environment : Environment}
    {state later : EmitState}
    (known : state.builder.function < state.builder.module.functions.length)
    (evolves : EmitState.Evolves environment []
      { state with builder := state.builder.inEntry } later) :
    state.Wanders later := by
  let entered : EmitState := { state with builder := state.builder.inEntry }
  have steady : entered.builder.Steady :=
    ⟨Builder.isSome_entry_appendBlock known "entry", nofun⟩
  have appends : Draft.Step state.draft [] entered.draft :=
    .append state.builder.function "entry"
  obtain ⟨-, events, trace, slots⟩ := evolves steady
  exact ⟨events, (Draft.Trace.single appends).trans trace, slots⟩

/-- Calls the target of a closure and returns what it gave. -/
def thunkBody (thunk : FunctionId) (environment : GlobalId)
    (target : FunctionId) (signature : TypeTable.Signature) :
    Emission Unit := do
  let result ← callTarget thunk environment target signature
  returnResult signature.result result

theorem emitThunk_apply (thunk : FunctionId) (environment : GlobalId)
    (target : FunctionId) (signature : TypeTable.Signature)
    (surroundings : Environment) (state : EmitState) :
    emitThunk thunk environment target signature surroundings state =
      thunkBody thunk environment target signature surroundings
        { state with
          builder := (Builder.switchFunction thunk state.builder).2.inEntry
        } := by
  unfold emitThunk thunkBody
  generalize callTarget thunk environment target signature = call
  generalize returnResult signature.result = give
  rfl

theorem does_thunkBody (thunk : FunctionId) (environment : GlobalId)
    (target : FunctionId) (signature : TypeTable.Signature) :
    Does EmitState.Plainly []
      (thunkBody thunk environment target signature) :=
  .step (does_callTarget thunk environment target signature)
    fun result => does_returnResult signature.result result

theorem roams_emitThunk (thunk : FunctionId) (environment : GlobalId)
    (target : FunctionId) (signature : TypeTable.Signature) :
    Does EmitState.Roams []
      (emitThunk thunk environment target signature) := by
  refine .step (roams_moved fun _ => rfl) fun _ => ?_
  refine .step (does_onBuilder (Builder.computes_appendBlock "entry")).roams
    fun entry => ?_
  refine .step (roams_moved fun _ => rfl) fun _ => ?_
  exact (does_thunkBody thunk environment target signature).roams

/-- The body of a thunk that is there is a trace. -/
theorem wanders_emitThunk {thunk : FunctionId} (environment : GlobalId)
    (target : FunctionId) (signature : TypeTable.Signature)
    (surroundings : Environment) {state : EmitState}
    (known : thunk < state.builder.module.functions.length) :
    state.Wanders
      (emitThunk thunk environment target signature surroundings state).2 := by
  rw [emitThunk_apply]
  let moved : EmitState := { state with
    builder := (Builder.switchFunction thunk state.builder).2 }
  exact @EmitState.wanders_inEntry surroundings moved _ known
    (does_thunkBody thunk environment target signature surroundings _).evolves

theorem does_addThunk (name : String) (type : TypeId)
    (environment : GlobalId) (target : FunctionId)
    (signature : TypeTable.Signature) :
    Does EmitState.Plainly []
      (addThunk name type environment target signature) := by
  let adding : Emission FunctionId :=
    liftM (Module.addFunction name type .unlisted)
  have adds : Does EmitState.Plainly [] adding :=
    does_onBuilder (Builder.computes_addFunction name type .unlisted)
  unfold addThunk
  intro surroundings state
  refine Does.bindAt (adds surroundings state) ?_
  have added : (adding surroundings state).1 <
      (adding surroundings state).2.builder.module.functions.length :=
    Module.addFunction_known state.builder.module name type .unlisted
  generalize adding surroundings state = outcome at added ⊢
  obtain ⟨thunk, state⟩ := outcome
  dsimp only
  have names := does_nameParameters thunk signature.parameters.length
    surroundings state
  refine Does.bindAt names ?_
  have known := Nat.lt_of_lt_of_le added names.builder.module.count
  generalize (nameParameters thunk signature.parameters.length surroundings
    state).2 = named at known ⊢
  have filled : named.Plainly surroundings [] (elsewhere (emitThunk thunk
      environment target signature) surroundings named).2 :=
    ⟨quietly_elsewhere (roams_emitThunk thunk environment target signature)
      surroundings named, EmitState.evolves_elsewhere fun _ =>
        wanders_emitThunk environment target signature surroundings known⟩
  exact Does.bindAt filled (Graded.refl _ _)

theorem tries_emitClosure (items : List Form) :
    Tries EmitState.Plainly (usesAt results items 1) (emitClosure items) := by
  refine .parse fun _ _ => .destination fun destination => ?_
  refine .parse fun _ _ => .step (tries_typeOf _) fun pointerType => ?_
  refine .parse fun name _ => ?_
  refine .step (tries_capturedValue items 4 _) fun captured => ?_
  refine .step (.lift does_tables) fun table => ?_
  dsimp only
  split
  · exact tries_rejectType _ _
  · next type signature _ =>
      refine .step (tries_closureTarget name) fun target => ?_
      refine .step (.lift does_module) fun module => ?_
      refine .parse fun backs _ => .ite ?_ ?_
      · refine .step (.lift (does_spelling _)) fun _ => ?_
        exact .step (.lift (does_spelling _)) fun _ => .throw _
      · refine .step (.lift does_get) fun state => ?_
        have counts : Does EmitState.Plainly [] (modify fun later =>
            { later with closureCount := state.closureCount + 1 } :
              Emission Unit) :=
          fun _ _ => .of_same rfl rfl rfl rfl
        refine .step (.lift counts) fun _ => ?_
        refine .step (.lift (does_addEnvironment _ _)) fun environment => ?_
        refine .step (.lift (does_onBuilder
          (Builder.computes_globalAddress environment))) fun slot => ?_
        refine .step (.lift (does_onBuilder
          (Builder.computes_store captured slot))) fun _ => ?_
        refine .step (.lift (does_addThunk _ type environment target
          signature)) fun thunk => ?_
        exact .step (.lift (does_onBuilder
          (Builder.computes_functionAddress thunk)))
          fun value => tries_define destination value pointerType

theorem tries_closureRecord (name : String) (captured : TypeId) :
    Tries EmitState.Plainly [] (closureRecord name captured) := by
  refine .step (.lift (does_types _)) fun pointer => ?_
  refine .step (.lift (does_types _)) fun record => ?_
  refine .step (.lift does_tables) fun table => ?_
  split
  · exact .step (.lift (does_types _)) fun _ => .pure record
  · exact .ite (.pure record) (.throw _)
  · exact .throw _

theorem does_storeField (record : Value) (index : Nat) (name : String)
    (value : Value) :
    Does EmitState.Plainly [] (storeField record index name value) := by
  refine .step (does_onBuilder
    (Builder.computes_fieldPointer record index name)) fun found => ?_
  split
  · exact does_onBuilder (Builder.computes_store value _)
  · exact .pure ()

theorem tries_emitMakeClosure (items : List Form) :
    Tries EmitState.Plainly (usesAt results items 1)
      (emitMakeClosure items) := by
  refine .parse fun _ _ => .destination fun destination => ?_
  refine .parse fun name _ => ?_
  refine .step (tries_capturedValue items 3 _) fun captured => ?_
  refine .step (tries_closureTarget name) fun target => ?_
  refine .step (tries_closureRecord name captured.type) fun record => ?_
  refine .step (.lift (does_onBuilder
    (Builder.computes_alloca record destination))) fun pointer => ?_
  refine .step (.lift (does_storeField pointer 1 _ captured)) fun _ => ?_
  refine .step (.lift (does_types _)) fun bytes => ?_
  refine .step (.lift (does_onBuilder
    (Builder.computes_functionAddress target))) fun callee => ?_
  refine .step (.lift (does_onBuilder
    (Builder.computes_cast .bitcast callee bytes _))) fun erased => ?_
  exact .step (.lift (does_storeField pointer 0 _ erased)) fun _ =>
    tries_define destination pointer pointer.type

theorem does_loadField (record : Value) (index : Nat) (name : String) :
    Does EmitState.Plainly [] (loadField record index name) := by
  refine .step (does_onBuilder
    (Builder.computes_fieldPointer record index _)) fun found => ?_
  split
  · exact does_onBuilder (Builder.computes_load _ name)
  · exact .pure none

theorem tries_emitCallClosure (items : List Form) :
    Tries EmitState.Plainly (usesAt results items 1)
      (emitCallClosure items) := by
  refine .ite (.throw _) (.destination fun destination => ?_)
  refine .parse fun _ _ => .step (tries_typeOf _) fun result => ?_
  refine .parse fun _ _ => .step (tries_valueOf _) fun record => ?_
  refine .step (.lift does_tables) fun table => ?_
  split
  · exact tries_rejectType _ _
  · next name _ =>
      refine .step (tries_closureTarget name) fun target => ?_
      refine .step (.lift does_module) fun module => ?_
      refine .step (.lift does_tables) fun table => ?_
      refine .orFail_step _ fun signature _ => ?_
      refine .step (tries_expectType _ result _) fun _ => ?_
      refine .parse fun forms _ => .ite (.throw _) ?_
      refine .parse fun parameters _ => ?_
      refine .step (tries_argumentValues parameters forms)
        fun arguments => ?_
      refine .step (.lift (does_loadField record 0 _)) fun erased => ?_
      refine .orFail_step _ fun erased _ => ?_
      refine .step (.lift (does_loadField record 1 _)) fun captured => ?_
      refine .orFail_step _ fun captured _ => ?_
      refine .step (.lift (does_types _)) fun pointer => ?_
      refine .step (.lift (does_onBuilder
        (Builder.computes_cast .bitcast erased pointer _))) fun callee => ?_
      exact .called fun value => tries_defineResult destination value result

/-! ## Coroutines -/

theorem tries_coroutineOperand (form : Form) (type : TypeId) :
    Tries EmitState.Plainly [] (coroutineOperand form type) := by
  refine .step (tries_valueOf form) fun value => ?_
  exact .step (tries_expectType _ type value.type) fun _ => .pure value

theorem tries_callRoutine (name : String) (result : TypeId)
    (arguments : List Value) (resultName : String) :
    Tries EmitState.Plainly []
      (callRoutine name result arguments resultName) := by
  refine .step (.lift (does_declareFunction name result _ false))
    fun id => ?_
  refine .step (.lift (does_onBuilder (Builder.computes_functionAddress id)))
    fun callee => ?_
  exact .step (.lift (does_onBuilder
    (Builder.computes_call callee arguments resultName)))
    fun _ => .orFail _ _

theorem tries_beginCoroutine (handle : String) :
    Tries EmitState.Plainly [] (beginCoroutine handle) := by
  refine .step (.lift (does_types _)) fun pointer => ?_
  refine .step (.lift (does_types _)) fun token => ?_
  refine .step (.lift (does_onBuilder
    (Builder.computes_constantZero pointer))) fun null => ?_
  refine .step (.lift (does_onBuilder (Builder.computes_constantI32 0)))
    fun align => ?_
  refine .step (tries_callRoutine _ token _ _) fun id => ?_
  have keeps : Does EmitState.Plainly []
      (modify fun state => { state with coroutineId := some id } :
        Emission Unit) :=
    fun _ _ => .of_same rfl rfl rfl rfl
  refine .step (.lift keeps) fun _ => ?_
  refine .step (tries_callRoutine _ pointer _ handle) fun begun => ?_
  refine .step (.lift does_get) fun state => ?_
  exact .step (.lift (does_onBuilder
    (Builder.computes_addAttributes _ (by decide)))) fun _ => .pure begun

theorem tries_suspensionToken (form : Form) :
    Tries EmitState.Plainly [] (suspensionToken form) := by
  refine .step (tries_valueOf form) fun value => ?_
  exact .step (.lift (does_types _)) fun _ =>
    .ite (.pure value) (does_onBuilder Builder.computes_constantNone)

theorem tries_buildStep (step : CoroutineStep) (items : List Form)
    (destination : String) (result : TypeId) :
    Tries EmitState.Plainly [] (buildStep step items destination result) := by
  have bool (value : Bool) : Tries EmitState.Plainly []
      (liftM (liftM (Builder.constantBool value) : Emission Value) :
        Handler Value) :=
    .lift (does_onBuilder (Builder.computes_constantBool value))
  refine .step (.lift (does_types _)) fun pointer => ?_
  refine .step (.lift (does_types _)) fun token => ?_
  have operand (form : Form) (type : TypeId) :=
    tries_coroutineOperand form type
  have routine (name : String) (type : TypeId) (arguments : List Value)
      (resultName : String) :=
    tries_callRoutine name type arguments resultName
  cases step with
  | begin => exact tries_beginCoroutine destination
  | id => exact .step (.lift does_get) fun _ => .orFail _ _
  | size => exact routine _ _ _ _
  | alloc | save | done | resume | destroy =>
      exact .parse fun _ _ => .step (operand _ _) fun _ => routine _ _ _ _
  | free =>
      refine .parse fun _ _ => .step (operand _ _) fun _ => ?_
      exact .parse fun _ _ => .step (operand _ _) fun _ => routine _ _ _ _
  | suspend | finalSuspend =>
      refine .parse fun _ _ => .step (tries_suspensionToken _) fun _ => ?_
      exact .step (bool _) fun _ => routine _ _ _ _
  | promise =>
      refine .parse fun _ _ => .step (operand _ _) fun _ => ?_
      refine .step (.lift (does_onBuilder (Builder.computes_constantI32 0)))
        fun _ => ?_
      exact .step (bool _) fun _ => routine _ _ _ _
  | finish =>
      refine .parse fun _ _ => .step (operand _ _) fun _ => ?_
      refine .step (bool _) fun _ => ?_
      refine .step (.lift (does_onBuilder Builder.computes_constantNone))
        fun _ => .step (.lift (does_types _)) fun _ => routine _ _ _ _

theorem tries_emitCoroutineStep (step : CoroutineStep) (items : List Form) :
    Tries EmitState.Plainly
      (if step.definesResult then usesAt results items 1 else [])
      (emitCoroutineStep step items) := by
  refine .parse fun _ _ => .step (.lift does_read) fun environment => ?_
  cases step.definesResult with
  | true =>
      refine .ite (.step (.lift (does_types _)) fun result => ?_) ?_
      · refine .destination fun destination => ?_
        exact .step (tries_buildStep step items destination result)
          fun value => tries_define destination value result
      · refine .destination fun destination => ?_
        refine .step (.lift (does_types _)) fun result => ?_
        exact .step (.lift (does_onBuilder
          (Builder.computes_constantZero result)))
          fun value => tries_define destination value result
  | false =>
      refine .ite (.step (.lift (does_types _)) fun result => ?_) (.pure ())
      exact .step (tries_buildStep step items "" result) fun _ => .pure ()

/-! ## Phis -/

theorem does_placePhi (block : BlockId) (destination : String)
    (type : TypeId) (incoming : List (EdgeSource × String)) :
    Does EmitState.Plainly []
      (placePhi block destination type incoming) := by
  refine .step (does_onBuilder
    (Builder.computes_phiAtStart block type destination)) fun phi => ?_
  have pends : Does EmitState.Plainly [] (modify fun state =>
      { state with
        pendingPhis := state.pendingPhis ++
          [⟨destination, type, phi, incoming⟩] } : Emission Unit) :=
    fun _ _ => .of_same rfl rfl rfl rfl
  exact .step pends fun _ => .pure phi

theorem tries_readEdge (type : TypeId) (shape : String) (form : Form) :
    Tries EmitState.Plainly [] (readEdge type shape form) := by
  unfold readEdge
  split
  · refine .orFail_step _ fun label _ => ?_
    split
    · exact .pure _
    · exact .step (tries_operand _ type) fun _ => .pure _
  · exact .throw _

theorem tries_emitPhi (items : List Form) :
    Tries EmitState.Plainly (usesAt results items 1) (emitPhi items) := by
  refine .parse fun _ _ => .destination fun destination => ?_
  refine .parse fun _ _ => .step (tries_typeOf _) fun type => ?_
  refine .parse fun edges _ => ?_
  refine .step (.mapM fun edge _ => tries_readEdge type _ edge)
    fun incoming => ?_
  refine .step (.lift does_currentBlock?) fun current => ?_
  refine .orFail_step _ fun block _ => ?_
  exact .step (.lift (does_placePhi block destination type incoming))
    fun phi => tries_define destination phi type

theorem tries_edgeValue (pending : PendingPhi) (source : EdgeSource)
    (block : BlockId) :
    Tries EmitState.Plainly [] (edgeValue pending source block) := by
  have checks (value : Value) : Tries EmitState.Plainly [] (do
      let destination := pending.destination
      expectType s!"phi `{destination}`" pending.type value.type
      pure value) :=
    .step (tries_expectType _ _ _) fun _ => .pure value
  cases source with
  | value value => exact checks value
  | named name =>
      have reads : Does EmitState.Plainly [] (elsewhere do
          liftM (Builder.positionBeforeTerminator block)
          getValue name) :=
        does_elsewhere
          (.step (roams_moved fun _ => rfl) fun _ =>
            (does_getValue name).roams)
          (.step (evolves_onBuilder
            (Builder.advances_positionBeforeTerminator block)) fun _ =>
            (does_getValue name).evolves)
      have found := Tries.step (.lift reads) fun found =>
        Tries.orFail_step (.unresolved name) fun value
          (_ : found = some value) => checks value
      exact found

theorem does_addEdge (pending : PendingPhi) (edge : EdgeSource × String) :
    Does EmitState.Plainly [] (addEdge pending edge) := by
  refine .step does_get fun state => ?_
  split
  · exact .pure ()
  · next block _ =>
      have adds (value : Value) : Does EmitState.Plainly []
          (liftM (Builder.addIncoming pending.phi value block) :
            Emission Unit) :=
        does_onBuilder (Builder.computes_addIncoming pending.phi value block)
      refine .step (tries_edgeValue pending edge.1 block) fun outcome => ?_
      split
      · exact adds _
      · refine .step (does_report _ _) fun _ => ?_
        exact .step (does_onBuilder (Builder.computes_constantUndef _)) adds

theorem does_completePhis : Does EmitState.Plainly [] completePhis := by
  refine .step does_get fun state => ?_
  have clears : Does EmitState.Plainly [] (modify fun state =>
      { state with pendingPhis := [] } : Emission Unit) :=
    fun _ _ => .of_same rfl rfl rfl rfl
  refine .step clears fun _ => ?_
  exact .each fun pending _ => .each fun edge _ => does_addEdge pending edge

/-! ## Conditions and locals -/

theorem does_conditionValue (name : String) :
    Does EmitState.Plainly [] (conditionValue name) :=
  .step does_context fun _ => .ite (does_getValue name)
    (does_orElseFind (does_recomputed name) (does_getValue name))

theorem tries_condition (form : Form) :
    Tries EmitState.Plainly [] (condition form) := by
  unfold condition
  split
  · exact does_onBuilder (Builder.computes_constantBool _)
  · refine .orFail_step _ fun name _ => ?_
    refine .step (.lift (does_conditionValue name)) fun found => ?_
    refine .orFail_step _ fun value _ => ?_
    refine .step (.lift does_tables) fun table => ?_
    split
    · exact .pure value
    · refine .step (.lift (does_onBuilder
        (Builder.computes_constantInt value.type 0))) fun zero => ?_
      exact does_onBuilder (Builder.computes_compareInt .ne value zero _)
    · exact .step (.lift (does_spelling _)) fun _ => .throw _

theorem tries_readLocal (shape : String) (form : Form) :
    Tries EmitState.Plainly [] (readLocal shape form) := by
  unfold readLocal
  split
  · refine .ite (.throw _) (.orFail_step _ fun name _ => ?_)
    exact .step (tries_typeOf _) fun _ => .pure _
  · exact .throw _

/-! ## Matches up to their blocks -/

theorem tries_readResult (items : List Form) :
    Tries EmitState.Plainly [] (readResult items) := by
  unfold readResult
  split
  · refine .ite (.orFail_step _ fun name _ => ?_) (.pure _)
    split
    · exact .step (tries_typeOf _) fun _ => .pure _
    · exact .throw _
  · exact .pure _

theorem tries_readBinding (sum : String) (variant : Variant) (form : Form) :
    Tries EmitState.Plainly [] (readBinding sum variant form) := by
  refine .orFail_step _ fun (name, index) _ => ?_
  refine .step (.lift does_tables) fun table => ?_
  exact .orFail_step _ fun (offset, type) _ => .pure _

theorem tries_readCase (layout : SumLayout) (sum : String) (form : Form) :
    Tries EmitState.Plainly [] (readCase layout sum form) := by
  refine .ite (.throw _) (.orFail_step _ fun items _ => ?_)
  refine .parse fun name _ => ?_
  split
  · exact .step (.lift (does_report _ _)) fun _ => .pure none
  · refine .parse fun rest _ => ?_
    refine .orFail_step _ fun (bindForms, body, value) _ => ?_
    exact .step (.mapM fun form _ => tries_readBinding sum _ form)
      fun _ => .pure _

theorem tries_readCases (layout : SumLayout) (sum : String)
    (forms : List Form) :
    Tries EmitState.Plainly [] (readCases layout sum forms) := by
  induction forms with
  | nil => exact .pure []
  | cons form forms ih =>
      refine .step (tries_readCase layout sum form) fun arm => ?_
      exact .step ih fun _ => .pure _

theorem tries_readDefault (form : Form) :
    Tries EmitState.Plainly [] (readDefault form) := by
  unfold readDefault
  split
  · exact .pure _
  · exact .ite (.throw _) (.pure _)

/-- The uses of the names that fields of a payload are bound to. -/
def bindingUses (binding : PayloadBinding) : List NameUse :=
  results binding.name

theorem tries_bindPayload (scrutinee : Value)
    (bindings : List PayloadBinding) :
    Tries EmitState.Plainly (bindings.flatMap bindingUses)
      (bindPayload scrutinee bindings) := by
  refine .ite (.field fun payload => .forM fun binding _ => ?_) (.pure ())
  refine .step (.lift (does_payloadPointer payload _ _ _)) fun found => ?_
  refine .orFail_step _ fun pointer _ => ?_
  exact .loaded fun value => tries_define binding.name value binding.type

theorem does_armValue (type : TypeId) (name : Option String) :
    Does EmitState.Plainly [] (armValue type name) := by
  unfold armValue
  split
  · exact does_onBuilder (Builder.computes_constantUndef type)
  · refine .step (does_getValue _) fun found => ?_
    split
    · exact .pure _
    · exact .step (does_report _ _) fun _ =>
        does_onBuilder (Builder.computes_constantUndef type)

end FormCompiler
