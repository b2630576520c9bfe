import FormCompiler.Proofs.Detours

/-!
# Plain instructions are quiet: closures

The thunk of a closure is a detour into another function.
-/

namespace FormCompiler

open Ir

variable {scene : Scene} {known : TypeTable → Prop} {state : EmitState}

/-! ## Thunks -/

theorem emits_callTarget (thunk : FunctionId) (environment : GlobalId)
    (target : FunctionId) (signature : TypeTable.Signature) :
    Emits scene (fun _ => True)
      (callTarget thunk environment target signature) fun _ _ => True := by
  unfold callTarget
  refine .step (emits_globalAddress environment) (fun _ holds => holds)
    fun slot => ?_
  refine .step (emits_load slot "env") (fun _ holds => holds)
    fun captured => ?_
  refine .look (fun _ => rfl) fun _ _ _ => ?_
  refine .step (emits_functionAddress target) (fun _ holds => holds)
    fun callee => ?_
  exact (emits_call callee _ "retv").weaken fun _ _ _ => trivial

theorem finishes_returnResult (type : TypeId) (result : Option Value) :
    Finishes scene IsThunkName (returnResult type result) := by
  intro state ready isOpen named
  have returnsVoid : Finishes scene IsThunkName
      (liftM Builder.retVoid : Emission Unit) :=
    finishes_insertEffect rfl rfl fun _ _ _ named => named
  cases result with
  | none => exact returnsVoid state ready isOpen named
  | some value =>
      have returnsValue : Finishes scene IsThunkName
          (liftM (Builder.ret value) : Emission Unit) :=
        finishes_insertEffect rfl rfl fun _ _ _ named => named
      have run : returnResult type (some value) scene.environment state =
          (if state.table.isVoid type then
            (liftM Builder.retVoid : Emission Unit)
          else liftM (Builder.ret value)) scene.environment state := rfl
      rw [run]
      split
      · exact returnsVoid state ready isOpen named
      · exact returnsValue state ready isOpen named

theorem preserves_emitThunk (ready : state.Ready scene) {thunk : FunctionId}
    (declared : thunk < state.builder.module.functions.length)
    (named : IsThunkName (state.builder.module.function thunk).name)
    (environment : GlobalId) (target : FunctionId)
    (signature : TypeTable.Signature) :
    Preserves (EmitState.Ready scene) EmitState.Quiet state
      (elsewhere (emitThunk thunk environment target signature)
        scene.environment) fun _ _ => True := by
  have sound : (state.builder.moved ⟨thunk, none, false⟩).module.Sound :=
    ready.builder.sound
  have appended := Builder.appended_appendBlock sound declared
    (show nameBeforeNul "entry" ≠ "" by decide)
  obtain ⟨laterReady, quiet, -⟩ := ready.detour ⟨thunk, none, false⟩ (.inr named)
    appended (emits_callTarget thunk environment target signature) trivial
    declared named (finishes_returnResult signature.result)
  have enters : emitThunk thunk environment target signature
      scene.environment state =
      (callTarget thunk environment target signature >>=
        returnResult signature.result) scene.environment
        { state with
          builder := (Builder.appendBlock "entry"
            (state.builder.moved ⟨thunk, none, false⟩)).2.atEnd
            (Builder.appendBlock "entry"
              (state.builder.moved ⟨thunk, none, false⟩)).1 } := rfl
  refine ⟨?_, ?_, trivial⟩ <;> rw [elsewhere_apply, enters]
  · exact laterReady
  · exact quiet

theorem preserves_nameParameters (ready : state.Ready scene)
    (function : FunctionId) (count : Nat) :
    Preserves (EmitState.Ready scene) EmitState.Quiet state
      (nameParameters function count scene.environment)
      fun _ _ => True := by
  have emits : Emits scene (fun _ => True) (nameParameters function count)
      fun _ _ => True := by
    refine .forM fun index _ => ?_
    exact emits_onBuilder fun _ ready _ => (Builder.builds_onModule ready
      (Module.runs_setParameterName ready.sound function index _)).forget
  exact emits state ready trivial

/-- The name of the thunk of a closure is kept for thunks. -/
theorem isThunkName_closure (name : String) (number : Nat) :
    IsThunkName s!"__edn.closure.thunk.{name}.{number}" := by
  unfold IsThunkName
  simp only [String.toList_append, List.append_assoc]
  exact List.prefix_append _ _

theorem emits_addThunk {name : String} (named : IsThunkName name)
    (type : TypeId) (environment : GlobalId) (target : FunctionId)
    (signature : TypeTable.Signature) :
    Emits scene (fun table => table.signature? type = some signature)
      (addThunk name type environment target signature)
      fun _ _ => True := by
  intro state ready found
  have declares := Builder.builds_onModule ready.builder
    (Module.runs_addFunction ready.builder.sound name found .unlisted)
  have adds := preserves_onBuilder ready declares
  have declared : Preserves (EmitState.Ready scene) EmitState.Quiet state
      ((liftM (Module.addFunction name type .unlisted) :
        Emission FunctionId) scene.environment) fun later thunk =>
      thunk < later.builder.module.functions.length ∧
        IsThunkName (later.builder.module.function thunk).name := by
    refine ⟨adds.holds, adds.follows, adds.good, ?_⟩
    exact (Module.name_addFunction state.builder.module name type
      .unlisted).symm ▸ named
  unfold addThunk
  apply declared.before
  rintro later thunk laterReady - ⟨inside, isThunk⟩
  apply (preserves_nameParameters laterReady thunk _).before
  intro last _ lastReady quiet _
  have lastInside := Nat.lt_of_lt_of_le inside quiet.builder.module.count
  have lastNamed : IsThunkName (last.builder.module.function thunk).name := by
    rw [(quiet.builder.module.functions thunk inside).1]
    exact isThunk
  apply (preserves_emitThunk lastReady lastInside lastNamed environment target
    signature).before
  intro final _ finalReady _ _
  exact Preserves.pure finalReady trivial

/-! ## Closures -/

theorem handles_capturedValue (items : List Form) (index : Nat)
    (shape : String) :
    HandlesValue scene known (capturedValue items index shape) := by
  unfold capturedValue
  refine .parse fun forms _ => ?_
  split
  · exact handles_valueOf _
  · exact .throw _

theorem handles_closureTarget (name : String) :
    Handles scene known (closureTarget name) fun _ _ => True := by
  unfold closureTarget
  refine .look (fun _ => rfl) fun _ _ _ => ?_
  exact .orFail _ fun _ _ _ _ => trivial

theorem emits_addEnvironment (number : Nat) (type : TypeId) :
    Emits scene (fun table => table.Has type) (addEnvironment number type)
      fun _ _ => True := by
  unfold addEnvironment
  refine .look (fun _ => rfl) fun _ _ _ => ?_
  exact emits_onBuilder fun _ ready holds => (Builder.builds_onModule ready
    (Module.runs_addGlobal ready.sound _ holds.1 _ _ _)).forget

theorem isQuiet_emitClosure (items : List Form) :
    IsQuiet (emitClosure items) := by
  intro scene
  unfold emitClosure
  refine .parse fun _ _ => ?_
  refine .parse fun destination _ => ?_
  refine .parse fun typeForm _ => ?_
  refine .step (handles_typeOf typeForm) (by tauto) fun pointerType => ?_
  refine .parse fun name _ => ?_
  refine .step (handles_capturedValue items 4 _) (fun _ holds => holds)
    fun captured => ?_
  refine .look (fun _ => rfl) fun state ready _ => ?_
  dsimp only
  split
  · exact handles_rejectType _ _
  · next type signature found =>
      refine .step (handles_closureTarget name) (fun _ holds => holds)
        fun target => ?_
      refine .look (fun _ => rfl) fun _ _ _ => ?_
      refine .parse fun backs _ => ?_
      refine .ite (fun _ => ?_) fun _ => ?_
      · refine .look (fun _ => rfl) fun _ _ _ => ?_
        refine .look (fun _ => rfl) fun _ _ _ => ?_
        exact .throw_bind _
      obtain ⟨_, pointee, found⟩ := Option.bind_eq_some_iff.mp found
      obtain ⟨_, found, ⟨⟩⟩ := Option.map_eq_some_iff.mp found
      refine .look (fun _ => rfl) fun current _ _ => ?_
      refine .step (.lift (emits_modify fun other => ⟨other.literals,
        current.closureCount + 1, other.problems, other.span, rfl⟩))
        (fun _ holds => holds) fun _ => ?_
      refine .step (.lift (emits_addEnvironment _ captured.type))
        (fun _ holds => holds.1.1.1.1.1.2.has) fun environment => ?_
      refine .step (.lift (emits_globalAddress environment))
        (fun _ holds => holds) fun slot => ?_
      refine .step (.lift (emits_store captured slot)) (fun _ holds => holds)
        fun _ => ?_
      refine .step (.lift (emits_addThunk (isThunkName_closure name _) type
        environment target signature)) ?_ fun thunk => ?_
      · intro table holds
        have grows : state.table.Grows table := by tauto
        rw [(TypeTable.has_of_signature found).signature_eq grows, found]
      refine .step (.lift (emits_functionAddress thunk))
        (fun _ holds => holds) fun value => ?_
      exact (handles_define destination value pointerType).given (by tauto)

/-! ## Closure records -/

theorem handles_closureRecord (name : String) (captured : TypeId) :
    Handles scene (fun table => table.Has captured)
      (closureRecord name captured) fun table type => table.Has type := by
  unfold closureRecord
  refine .step (.lift emits_bytePointer) (fun _ holds => holds)
    fun pointer => ?_
  refine .step (.lift (emits_named _)) (fun _ holds => holds)
    fun record state ready holds => ?_
  refine Preserves.lookAt rfl ?_
  split
  · next missing =>
      have isNamed : state.builder.module.types.kind record = _ := holds.2.2
      simp only [TypeTable.fields?, isNamed] at missing
      have hasBoth : ∀ field ∈ [pointer, captured],
          state.builder.module.types.Has field := by
        simpa using ⟨holds.1.2, holds.1.1⟩
      have completes := preserves_onBuilder ready (Builder.builds_onTypes
        ready.builder (TypeTable.yields_setBody ready.builder.sound.types
          missing hasBoth))
      obtain ⟨laterReady, quiet, -⟩ := completes
      refine ⟨laterReady, quiet, ?_⟩
      rintro _ ⟨⟩
      exact holds.2.1.mono quiet.grows
  · next existing _ =>
    have reuses : Handles scene (fun table => table.Has record)
        (if existing = captured then pure record
          else closureRecord.reject name)
        fun table type => table.Has type :=
      .ite (fun _ => .pure fun _ has => has) fun _ => .throw _
    exact reuses state ready holds.2.1
  · have rejects : Handles scene (fun _ => True) (closureRecord.reject name)
        fun table type => table.Has type := .throw _
    exact rejects state ready trivial

theorem emits_storeField (record : Value) (index : Nat) (name : String)
    (value : Value) :
    Emits scene known (storeField record index name value)
      fun _ _ => True := by
  refine Emits.given ?_ fun _ _ => trivial
  refine .step (emits_fieldPointer record index name) (fun _ holds => holds)
    fun found => ?_
  cases found with
  | none => exact .pure (by tauto)
  | some address => exact emits_store value address

theorem isQuiet_emitMakeClosure (items : List Form) :
    IsQuiet (emitMakeClosure items) := by
  intro scene
  unfold emitMakeClosure
  refine .parse fun _ _ => ?_
  refine .parse fun destination _ => ?_
  refine .parse fun name _ => ?_
  refine .step (handles_capturedValue items 3 _) (fun _ holds => holds)
    fun captured => ?_
  refine .step (handles_closureTarget name) (fun _ holds => holds)
    fun target => ?_
  refine .step (handles_closureRecord name captured.type)
    (fun _ holds => holds.1.2.has) fun record => ?_
  refine .step (.lift (emits_alloca record destination)) (by tauto)
    fun pointer => ?_
  refine .step (.lift (emits_storeField pointer 1 _ captured))
    (fun _ holds => holds) fun _ => ?_
  refine .step (.lift emits_bytePointer) (fun _ holds => holds)
    fun bytes => ?_
  refine .step (.lift (emits_functionAddress target)) (fun _ holds => holds)
    fun callee => ?_
  refine .step (.lift (emits_bitcast callee bytes _)) (by tauto)
    fun erased => ?_
  refine .step (.lift (emits_storeField pointer 0 _ erased))
    (fun _ holds => holds) fun _ => ?_
  refine (handles_define destination pointer pointer.type).given ?_
  intro table holds
  have typed : pointer.Typed table := by tauto
  exact ⟨typed, typed.has⟩

theorem searches_loadField (record : Value) (index : Nat) (name : String) :
    Searches scene known (loadField record index name) := by
  refine Emits.given ?_ fun _ _ => trivial
  refine .step (emits_fieldPointer record index _) (fun _ holds => holds)
    fun found => ?_
  cases found with
  | none => exact searches_none
  | some address => exact emits_load address name

theorem isQuiet_emitCallClosure (items : List Form) :
    IsQuiet (emitCallClosure items) := by
  intro scene
  unfold emitCallClosure
  refine .ite (fun _ => .throw_bind _) fun _ => ?_
  refine .parse fun destination _ => ?_
  refine .parse fun typeForm _ => ?_
  refine .step (handles_typeOf typeForm) (by tauto) fun result => ?_
  refine .parse fun recordForm _ => ?_
  refine .step (handles_valueOf recordForm) (fun _ holds => holds)
    fun record => ?_
  refine .look (fun _ => rfl) fun _ _ _ => ?_
  split
  · exact handles_rejectType _ _
  · next name _ =>
      refine .step (handles_closureTarget name) (fun _ holds => holds)
        fun target => ?_
      refine .look (fun _ => rfl) fun _ _ _ => ?_
      refine .look (fun _ => rfl) fun state ready _ => ?_
      refine .orFail_step _ fun signature found => ?_
      refine .step (handles_expectType _ result signature.result)
        (fun _ holds => holds) fun _ => ?_
      refine .parse fun forms _ => ?_
      refine .ite (fun _ => .throw_bind _) fun _ => ?_
      refine .parse fun parameters read => ?_
      refine .step (handles_argumentValues parameters forms) ?_
        fun arguments => ?_
      · intro table holds parameter member
        have grows : state.table.Grows table := by tauto
        rw [itemsFrom_eq_ok read] at member
        exact ((ready.signature found).2 parameter
          (List.mem_of_mem_drop member)).mono grows
      refine handles_found _ (searches_loadField record 0 _)
        (fun _ holds => holds) fun erased => ?_
      refine handles_found _ (searches_loadField record 1 _)
        (fun _ holds => holds) fun captured => ?_
      refine .step (.lift (emits_pointer _)) ?_ fun pointer => ?_
      · intro table holds
        have grows : state.table.Grows table := by tauto
        exact (TypeTable.has_of_signature found).mono grows
      refine .step (.lift (emits_bitcast erased pointer _)) (by tauto)
        fun callee => ?_
      refine handles_found _ (emits_call callee _ destination)
        (fun _ holds => holds) fun value => ?_
      exact (handles_defineResult destination value result).given (by tauto)

end FormCompiler
