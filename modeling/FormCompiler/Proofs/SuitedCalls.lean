import FormCompiler.Proofs.CallSignatures
import FormCompiler.Proofs.UnwindForms

/-!
# Calls are suited

A call by name reaches a function of the module: one that was there, whose
parameters the arguments were checked against, or one that is declared for these
arguments.  The thunk of a closure calls the target of the closure with the
environment and its own parameters.

With calls through pointers and closure records, these are all the calls that
arguments are written for.
-/

namespace FormCompiler

open Ir

open EmitState (AddsOnly)

variable {Result : Type} {first : Nat} {callee : Value}
  {arguments : List Value} {added : Operation → Prop} {declares : Prop}
  {scene : Scene} {known : TypeTable → Prop}

/-! ## Calls by name -/

/-- A function of the module that may be called with arguments. -/
structure EmitState.Reaches (state : EmitState) (id : FunctionId)
    (arguments : List Value) : Prop where
  declared : id < state.builder.module.functions.length
  answered : Answered state.table (state.builder.module.function id).type
    arguments

theorem answers_types (values : List Value) :
    Answers (values.map Value.type) values := by
  induction values with
  | nil => exact trivial
  | cons value values ih => exact ⟨rfl, ih⟩

namespace Ir.Module

theorem pushParameters_types (table : TypeTable) (function : FunctionId)
    (index : Nat) (parameters : List (TypeId × IrType)) (module : Module) :
    (pushParameters table function index parameters module).1.map Value.type =
      parameters.map Prod.fst := by
  induction parameters generalizing index module with
  | nil => rfl
  | cons parameter parameters ih =>
      exact congrArg (parameter.1 :: ·) (ih (index + 1) _)

/-- A function that was not there has the type that it is added for, and
parameters of that type. -/
theorem addFunction_of_missing {module : Module} {name : String}
    (missing : module.function? name = none) {type : TypeId}
    {signature : TypeTable.Signature}
    (found : module.types.signature? type = some signature)
    (linkage : Linkage) :
    let added := (addFunction name type linkage module).2.function
      (addFunction name type linkage module).1
    added.type = type ∧
      added.parameters.map Value.type = signature.parameters := by
  obtain ⟨middle, run, functions⟩ : ∃ middle,
      lower type module = (.function
        (lowered module.types boundaryLevels signature.result)
        (signature.parameters.map (lowered module.types boundaryLevels))
        signature.variadic, middle) ∧ middle.functions = module.functions :=
    ⟨_, Prod.ext ((lowerWithin_fst _ _ _ _).trans (lowered_function found 64))
      rfl, rfl⟩
  -- Parameters are pushed once the symbol is reserved.
  let pushed := pushParameters module.types module.functions.length 0
    (signature.parameters.zip
      (signature.parameters.map (lowered module.types boundaryLevels)))
    (reserveSymbol name middle).2
  have before : pushed.2.functions = module.functions := by
    rw [pushParameters_eq]
    exact functions
  have types : pushed.1.map Value.type = signature.parameters := by
    rw [pushParameters_types, List.map_fst_zip (by simp)]
  have last : ∃ added : Function,
      (addFunction name type linkage module).1 = module.functions.length ∧
      (addFunction name type linkage module).2.functions =
        module.functions ++ [added] ∧
      added.type = type ∧
      added.parameters.map Value.type = signature.parameters := by
    unfold addFunction
    rw [stateM_get_bind, missing]
    dsimp only
    rw [stateM_bind_apply, run, found]
    exact ⟨_, rfl, congrArg (· ++ _) before, rfl, types⟩
  obtain ⟨added, id, functions, both⟩ := last
  have same : (addFunction name type linkage module).2.function
      (addFunction name type linkage module).1 = added := by
    rw [id, Module.function, functions]
    simp
  rw [same]
  exact both

end Ir.Module

variable {state : EmitState}

/-- A function that is declared takes the arguments that it is declared for. -/
theorem reaches_declareFunction (ready : state.Ready scene) {name : String}
    (missing : state.builder.module.function? name = none) {result : TypeId}
    (has : state.table.Has result) {arguments : List Value}
    (typed : ∀ argument ∈ arguments, argument.Typed state.table) :
    Preserves (EmitState.Ready scene) EmitState.Quiet state
      (declareFunction name result (arguments.map Value.type) false
        scene.environment)
      fun later id => later.Reaches id arguments := by
  refine .look rfl ?_
  rw [missing]
  have types : Preserves (EmitState.Ready scene) EmitState.Quiet state
      ((liftM (TypeTable.function result (arguments.map Value.type) false) :
        Emission TypeId) scene.environment)
      fun later type =>
        later.table.signature? type =
          some ⟨result, arguments.map Value.type, false⟩ ∧
        later.builder.module.function? name = none := by
    obtain ⟨holds, follows, found⟩ := emits_functionType result
      (arguments.map Value.type) false state ready ⟨has, has_types typed⟩
    exact ⟨holds, follows, found, missing⟩
  apply types.before
  rintro later type laterReady quiet ⟨found, laterMissing⟩
  have adds := preserves_onBuilder laterReady (Builder.builds_onModule
    laterReady.builder (Module.runs_addFunction laterReady.builder.sound
      name found .external))
  refine ⟨adds.holds, adds.follows, adds.good, ?_⟩
  have same := (Module.addFunction_of_missing laterMissing found
    .external).1
  have answered : Answered later.table type arguments := by
    refine ⟨_, found, ?_, fun _ => ?_, answers_types arguments, ?_⟩
    · rw [List.length_map]
    · rw [List.length_map]
    · exact fun argument member =>
        (typed argument member).mono ready.builder.sound.types quiet.grows
  have last := answered.mono laterReady.builder.sound.types adds.follows.grows
  exact same.symm ▸ last

theorem EmitState.Reaches.mono {later : EmitState} {id : FunctionId}
    (reaches : state.Reaches id arguments) (ready : state.Ready scene)
    (quiet : state.Quiet later) : later.Reaches id arguments := by
  have kept := quiet.builder.module.functions id reaches.declared
  refine ⟨Nat.lt_of_lt_of_le reaches.declared quiet.builder.module.count, ?_⟩
  rw [kept.2.1]
  exact reaches.answered.mono ready.builder.sound.types quiet.grows

/-- Where a handler gives a result, the result is good for the state that the
handler leaves. -/
def Ends (environment : Environment) (state : EmitState)
    (handler : Handler Result) (good : EmitState → Result → Prop) : Prop :=
  ∀ result, (handler.run environment state).1 = .ok result →
    good (handler.run environment state).2 result

namespace Ends

variable {Other : Type} {environment : Environment}
  {handler : Handler Result} {next : Result → Handler Other}
  {good : EmitState → Result → Prop} {goodLater : EmitState → Other → Prop}

theorem bind (first : Ends environment state handler good)
    (rest : ∀ later result, good later result →
      Ends environment later (next result) goodLater) :
    Ends environment state (handler >>= next) goodLater := by
  intro last done
  cases outcome : (handler.run environment state).1 with
  | error cause =>
      rw [run_bind_of_error outcome] at done
      cases done
  | ok result =>
      rw [run_bind_of_ok outcome] at done ⊢
      exact rest _ result (first result outcome) last done

theorem pure {result : Result} (holds : good state result) :
    Ends environment state (Pure.pure result : Handler Result) good := by
  rintro _ ⟨⟩
  exact holds

/-- Looking at the state first. -/
theorem look {look : Emission Result} {seen : Result}
    (looks : look environment state = (seen, state))
    (rest : Ends environment state (next seen) goodLater) :
    Ends environment state ((liftM look : Handler Result) >>= next)
      goodLater := by
  have run : ((liftM look : Handler Result) >>= next).run environment state =
      (next seen).run environment state := by
    show (next (look environment state).1).run environment
      (look environment state).2 = _
    rw [looks]
  rw [Ends, run]
  exact rest

end Ends

theorem Handles.ends {handler : Handler Result}
    {gives : TypeTable → Result → Prop}
    (handles : Handles scene known handler gives) (ready : state.Ready scene)
    (knows : known state.table) :
    Ends scene.environment state handler
      fun later result => gives later.table result :=
  (handles state ready knows).good

/-- The function that a call names takes the arguments of the call. -/
theorem reaches_calledFunction (ready : state.Ready scene) (name : String)
    {result : TypeId} (has : state.table.Has result) (forms : List Form) :
    Ends scene.environment state (calledFunction name result forms)
      fun later called => later.Reaches called.1 called.2 := by
  refine .look rfl ?_
  cases found : state.builder.module.function? name with
  | some id =>
      refine .look rfl ?_
      have handles := handles_answered name
        (state.builder.module.function id).type forms state ready trivial
      have reaches : Ends scene.environment state
          (callArguments name (state.builder.module.function id).type forms)
          fun later arguments => later.Reaches id arguments := by
        intro arguments outcome
        have declared := Module.lt_of_function? found
        have kept := handles.follows.builder.module.functions id declared
        refine ⟨Nat.lt_of_lt_of_le declared
          handles.follows.builder.module.count, ?_⟩
        exact kept.2.1.symm ▸ handles.good arguments outcome
      exact reaches.bind fun later arguments reaches => .pure reaches
  | none =>
      have values : Handles scene (fun _ => True) (forms.mapM looseOperand)
          fun table arguments => ∀ argument ∈ arguments, argument.Typed table :=
        .mapM fun form _ => handles_looseOperand form
      have handles := values state ready trivial
      have adds : Tries (AddsOnly (fun _ => False) False) []
          (forms.mapM looseOperand) :=
        .mapM fun form _ => adds_looseOperand form
      have missing := (adds scene.environment state).module
      have reads : Ends scene.environment state (forms.mapM looseOperand)
          fun later arguments => later.Ready scene ∧
            later.builder.module.function? name = none ∧
            later.table.Has result ∧
            ∀ argument ∈ arguments, argument.Typed later.table :=
        fun arguments outcome => ⟨handles.holds,
          ((missing.names.resolve_left id).function?_eq name).trans found,
          has.mono handles.follows.grows, handles.good arguments outcome⟩
      refine reads.bind fun later arguments holds => ?_
      obtain ⟨laterReady, laterMissing, laterHas, typed⟩ := holds
      have declares : Ends scene.environment later
          (liftM (declareFunction name result (arguments.map Value.type)
            false) : Handler FunctionId)
          fun last id => last.Reaches id arguments := by
        rintro _ ⟨⟩
        exact (reaches_declareFunction laterReady laterMissing laterHas
          typed).good
      exact declares.bind fun last id reaches => .pure reaches

/-- Exceptions get a target, and the type table grows. -/
theorem grows_unwindTarget (ready : state.Ready scene)
    (personality : Personality) :
    state.table.Grows
      (unwindTarget personality scene.environment state).2.table := by
  unfold unwindTarget
  rw [emission_get_bind]
  cases personality with
  | itanium =>
      dsimp only
      cases state.unwindTargets.landingPads with
      | cons handler handlers => exact .refl _
      | nil => exact (preserves_resumingPad ready).follows.grows
  | seh =>
      dsimp only
      cases state.unwindTargets.dispatches with
      | cons handler handlers => exact .refl _
      | nil =>
          dsimp only
          unfold cleanupFunclet
          rw [emission_get_bind]
          cases state.unwindTargets.cleanup with
          | some block => exact .refl _
          | none => exact (preserves_returningPad ready).follows.grows

theorem adds_invoke (serves : Serves first state.table callee arguments)
    (normal unwind : BlockId) (name : String) (environment : Environment) :
    AddsOnly (Operation.IsSuited first) True environment [] state
      ((liftM (Builder.invoke callee arguments normal unwind name) :
        Emission (Option Value)) environment state).2 := by
  have adds : state.builder.AddsOnly (Operation.IsSuited first) True
      (Builder.invoke callee arguments normal unwind name state.builder).2 :=
    Builder.adds_buildCall serves (fun _ _ _ _ _ suits => suits) name
  exact ⟨adds.module, .inl trivial⟩

/-- One emission after another, from a state on. -/
theorem EmitState.AddsOnly.bind {Other : Type} {environment : Environment}
    {emission : Emission Result} {next : Result → Emission Other}
    (adds : AddsOnly added declares environment [] state
      (emission environment state).2)
    (rest : ∀ result later, (emission environment state).1 = result →
      (emission environment state).2 = later →
      AddsOnly added declares environment [] later
        (next result environment later).2) :
    AddsOnly added declares environment [] state
      ((emission >>= next) environment state).2 :=
  Graded.trans adds (rest _ _ rfl rfl)

/-- Looking at the state first. -/
theorem EmitState.AddsOnly.look_bind {Other : Type} {environment : Environment}
    {look : Emission Result} {next : Result → Emission Other} {seen : Result}
    (looks : look environment state = (seen, state))
    (rest : AddsOnly added declares environment [] state
      (next seen environment state).2) :
    AddsOnly added declares environment [] state
      ((look >>= next) environment state).2 := by
  rw [reader_bind_apply, looks]
  exact rest

/-- Invoking a callee that arguments serve, with a target for exceptions. -/
theorem adds_invoking (serves : Serves first state.table callee arguments)
    (unwind : BlockId) (name : String) (environment : Environment) :
    AddsOnly (Operation.IsSuited first) True environment [] state ((do
      let id ← freshId
      let next ← Builder.appendBlock s!"invoke.cont.{id}"
      let value ← Builder.invoke callee arguments next unwind name
      Builder.positionAtEnd next
      pure value : Emission (Option Value)) environment state).2 := by
  refine .bind (adds_freshId environment state) fun id fresh _ freshSame => ?_
  have served : Serves first fresh.table callee arguments := by
    rw [← freshSame]
    exact serves
  refine .bind (adds_onBuilder (Builder.adds_appendBlock _) environment fresh)
    fun next extended _ extendedSame => ?_
  have still : Serves first extended.table callee arguments := by
    rw [← extendedSame]
    exact served
  refine .bind (adds_invoke still next unwind name environment)
    fun _ last _ _ => ?_
  exact adds_positionAtEnd next environment last

theorem adds_buildInvocation (ready : state.Ready scene)
    (serves : Serves first state.table callee arguments) (name : String) :
    AddsOnly (Operation.IsSuited first) True scene.environment [] state
      (buildInvocation callee arguments name scene.environment state).2 := by
  obtain ⟨type, signature, found, -⟩ := serves.fits
  have calls : ¬(Builder.calleeType? state.table callee).isNone = true := by
    rw [found]
    exact Bool.false_ne_true
  refine .look_bind (show types scene.environment state = (state.table, state)
    from rfl) ?_
  rw [if_neg calls]
  refine .look_bind (show personality? scene.environment state =
    (scene.environment.configuration.personality, state) from rfl) ?_
  cases scene.environment.configuration.personality with
  | none =>
      have adds : state.builder.AddsOnly (Operation.IsSuited first) True
          (Builder.call callee arguments name state.builder).2 :=
        Builder.adds_buildCall serves (fun _ _ _ _ _ suits => suits) name
      exact ⟨adds.module, .inl trivial⟩
  | some personality =>
      refine .bind (adds_unwindTarget personality scene.environment state) ?_
      rintro unwind later - same
      have grows := grows_unwindTarget ready personality
      rw [same] at grows
      exact adds_invoking (serves.mono ready.builder.sound.types grows) unwind
        name scene.environment

namespace EmitState.AddsOnly

variable {Other : Type} {environment : Environment}
  {next : Result → Handler Other}

/-- An emission before a handler, from a state on. -/
theorem lift {emission : Emission Result}
    (adds : AddsOnly added declares environment [] state
      (emission environment state).2)
    (rest : ∀ result later, AddsOnly added declares environment [] later
      ((next result).run environment later).2) :
    AddsOnly added declares environment [] state
      (((liftM emission : Handler Result) >>= next).run environment
        state).2 :=
  Graded.trans adds (rest _ _)

/-- Looking at the state before a handler. -/
theorem look {look : Emission Result} {seen : Result}
    (looks : look environment state = (seen, state))
    (rest : AddsOnly added declares environment [] state
      ((next seen).run environment state).2) :
    AddsOnly added declares environment [] state
      (((liftM look : Handler Result) >>= next).run environment state).2 := by
  have run : ((liftM look : Handler Result) >>= next).run environment state =
      (next (look environment state).1).run environment
        (look environment state).2 := rfl
  rw [run, looks]
  exact rest

/-- Reading a part of the form first. -/
theorem parse {Part : Type} {part : Except ProblemCause Part}
    {next : Part → Handler Result}
    (rest : ∀ item, part = .ok item →
      AddsOnly added declares environment [] state
        ((next item).run environment state).2) :
    AddsOnly added declares environment [] state
      (((liftM part : Handler Part) >>= next).run environment state).2 := by
  cases part with
  | error cause => exact Graded.refl environment state
  | ok item => exact rest item rfl

/-- A quiet emission before a handler, from a state on. -/
theorem quietly {emission : Emission Result}
    {good : EmitState → Result → Prop}
    (preserves : Preserves (EmitState.Ready scene) EmitState.Quiet state
      (emission scene.environment) good)
    (adds : Does (AddsOnly added declares) [] emission)
    (rest : ∀ result later, later.Ready scene → state.Quiet later →
      good later result → AddsOnly added declares scene.environment [] later
        ((next result).run scene.environment later).2) :
    AddsOnly added declares scene.environment [] state
      (((liftM emission : Handler Result) >>= next).run scene.environment
        state).2 :=
  Graded.trans (adds scene.environment state)
    (rest _ _ preserves.holds preserves.follows preserves.good)

/-- One quiet handler before another, from a state on. -/
theorem step {handler : Handler Result} {good : EmitState → Result → Prop}
    {gives : TypeTable → Result → Prop}
    (ready : state.Ready scene)
    (handles : Handles scene known handler gives)
    (knows : known state.table)
    (ends : Ends scene.environment state handler good)
    (adds : Tries (AddsOnly added declares) [] handler)
    (rest : ∀ result later, later.Ready scene → state.Quiet later →
      good later result → AddsOnly added declares scene.environment [] later
        ((next result).run scene.environment later).2) :
    AddsOnly added declares scene.environment [] state
      ((handler >>= next).run scene.environment state).2 := by
  have handled := handles state ready knows
  cases outcome : (handler.run scene.environment state).1 with
  | error cause =>
      rw [run_bind_of_error outcome]
      exact adds scene.environment state
  | ok result =>
      rw [run_bind_of_ok outcome]
      exact Graded.trans (adds scene.environment state)
        (rest result _ handled.holds handled.follows (ends result outcome))

end EmitState.AddsOnly

/-- The address of a function that takes arguments is served by them. -/
theorem serves_functionAddress (ready : state.Ready scene)
    {id : FunctionId} (reaches : state.Reaches id arguments) :
    Preserves (EmitState.Ready scene) EmitState.Quiet state
      ((liftM (Builder.functionAddress id) : Emission Value)
        scene.environment)
      fun later callee => Serves 0 later.table callee arguments := by
  refine (preserves_onBuilder ready
    (Builder.builds_functionAddress ready.builder id)).imp ?_
  rintro later callee - quiet ⟨typed, -, pointee⟩
  exact (reaches.answered.mono ready.builder.sound.types quiet.grows).serves
    typed pointee

/-- A call of a function that takes the arguments. -/
theorem adds_callFunction (ready : state.Ready scene)
    {id : FunctionId} (reaches : state.Reaches id arguments)
    (name destination : String) (result : TypeId) :
    AddsOnly (Operation.IsSuited 0) True scene.environment [] state ((do
      let callee ← Builder.functionAddress id
      let value ← orFail (.unknownCallee name)
        (← buildInvocation callee arguments destination)
      defineResult destination value result : Handler Unit).run
        scene.environment state).2 := by
  refine .quietly (serves_functionAddress ready reaches)
    (adds_onBuilder (Builder.adds_functionAddress id))
    fun callee later laterReady _ serves => ?_
  refine .lift (adds_buildInvocation laterReady serves destination)
    fun found last => ?_
  have defines : Tries (AddsOnly (Operation.IsSuited 0) True) [] (do
      let value ← orFail (.unknownCallee name) found
      defineResult destination value result) :=
    .orFail_step _ fun value _ => adds_defineResult destination value result
  exact defines scene.environment last

theorem adds_emitCall (ready : state.Ready scene) (items : List Form) :
    AddsOnly (Operation.IsSuited 0) True scene.environment [] state
      ((emitCall items).run scene.environment state).2 := by
  unfold emitCall
  split
  · exact Graded.refl scene.environment state
  refine .parse fun destination _ => .parse fun typeForm _ => ?_
  have types : Handles scene (fun _ => True) (typeOf typeForm) _ :=
    handles_typeOf typeForm
  refine .step ready types trivial (types.ends ready trivial)
    (adds_typeOf typeForm) fun result typed typedReady _ has => ?_
  refine .parse fun name _ => .parse fun forms _ => ?_
  refine .step typedReady (handles_calledFunction name result forms) has
    (reaches_calledFunction typedReady name has forms)
    (adds_calledFunction trivial name result forms)
    fun (id, arguments) reached reachedReady _ reaches => ?_
  have returns : Handles scene (fun _ => True) (expectType
      s!"return of `{name}`" result (resultType reached.table
        (reached.builder.module.function id).type)) _ :=
    handles_expectType _ result _
  refine .look rfl (.look rfl ?_)
  refine .step reachedReady returns trivial
    (returns.ends reachedReady trivial) (adds_expectType _ result _)
    fun _ last lastReady quiet _ => ?_
  exact adds_callFunction lastReady (reaches.mono reachedReady quiet) name
    destination result

/-! ## Thunks -/

namespace Ir.Builder

variable {builder : Builder}

theorem adds_globalAddress (id : GlobalId) :
    Relates (AddsOnly added declares) (globalAddress id) :=
  .get_bind fun _ => .bind (adds_onTypes _) fun type => adds_push _ type

/-- The address of a global, to load from. -/
theorem builds_globalSlot (ready : builder.Ready) (id : GlobalId) :
    Builds builder (globalAddress id) fun later value =>
      value.content = .firstClass (.global id) ∧
        later.module.types.pointee? value.type =
          some (builder.module.global id).type := by
  unfold globalAddress
  apply Preserves.get_bind
  apply (builds_pointer ready
    (ready.sound.global_has ready.inhabited id)).bind
  intro later type laterReady _ found
  apply (builds_pushContent laterReady found.1
    (fits_pointer found.2 rfl)).imp
  rintro last value _ quiet ⟨⟨-, rfl⟩, content⟩
  refine ⟨content, ?_⟩
  rw [TypeTable.pointee?, found.1.kind_eq quiet.module.types, found.2]

/-- A load through a pointer gives a value of what it points to. -/
theorem builds_loadSlot (ready : builder.Ready) {pointer : Value}
    {type : TypeId}
    (pointee : builder.module.types.pointee? pointer.type = some type)
    (isPointer : pointer.operand.type.isPointer = true) (name : String) :
    Builds builder (load pointer name) fun later found =>
      ∃ value, found = some value ∧ Gives type later value := by
  have some_ {builder : Builder} {operation : Build Value}
      (builds : Builds builder operation (Gives type)) :
      Builds builder (some <$> operation) fun later found =>
        ∃ value, found = some value ∧ Gives type later value :=
    builds.map fun _ value gives => ⟨value, rfl, gives⟩
  have has := ready.sound.types.pointee pointee
  unfold load
  apply builds_types_bind
  rw [pointee]
  apply builds_attached_bind ready
  intro block cursor
  rw [isPointer]
  apply (builds_lowerFirstClass? ready type).bind
  rintro later found laterReady quiet ⟨types, lowers⟩
  rw [← types] at has lowers
  cases found with
  | none => exact some_ (builds_constantUndef laterReady has)
  | some irType =>
      exact some_ (builds_insertValue laterReady (quiet.block.trans cursor)
        rfl name has (.inl (lowers irType rfl)))

end Ir.Builder

/-- A target that takes the environment and the parameters of a closure. -/
structure EmitState.Targets (state : EmitState) (target : FunctionId)
    (types : List TypeId) : Prop where
  reached : target < state.builder.module.functions.length
  takes : ∃ backing,
    state.table.signature? (state.builder.module.function target).type =
      some backing ∧ backing.parameters = types

theorem EmitState.Targets.mono {later : EmitState} {target : FunctionId}
    {types : List TypeId} (targets : state.Targets target types)
    (extends_ : state.builder.module.Extends later.builder.module) :
    later.Targets target types := by
  obtain ⟨backing, found, same⟩ := targets.takes
  have has := TypeTable.has_of_signature found
  refine ⟨Nat.lt_of_lt_of_le targets.reached extends_.count, backing, ?_,
    same⟩
  rw [(extends_.functions target targets.reached).2.1]
  exact (has.signature_eq extends_.types).trans found

def Ir.Operation.isCall : Operation → Bool
  | .call .. | .invoke .. => true
  | _ => false

/-- If an operation is a call, it suits its callee. -/
def Ir.Operation.SuitsCallee (operation : Operation) : Prop :=
  operation.isCall = true → operation.IsSuited 0

/-- What the thunk of a closure needs of the module. -/
structure EmitState.Backed (state : EmitState) (thunk : FunctionId)
    (environment : GlobalId) (target : FunctionId) (parameters : List TypeId) :
    Prop where
  declared : thunk < state.builder.module.functions.length
  kept : environment < state.builder.module.globals.length
  own : (state.builder.module.function thunk).parameters.map Value.type =
    parameters
  targets : state.Targets target
    ((state.builder.module.global environment).type :: parameters)

theorem Ir.Module.Extends.global_eq {module later : Module}
    (extends_ : module.Extends later) {id : GlobalId}
    (inside : id < module.globals.length) :
    later.global id = module.global id := by
  obtain ⟨rest, same⟩ := extends_.globals
  rw [Module.global, Module.global, ← same, List.getElem?_append_left inside]

theorem EmitState.Backed.mono {later : EmitState} {thunk target : FunctionId}
    {environment : GlobalId} {parameters : List TypeId}
    (backed : state.Backed thunk environment target parameters)
    (extends_ : state.builder.module.Extends later.builder.module) :
    later.Backed thunk environment target parameters := by
  have ofThunk := extends_.functions thunk backed.declared
  refine ⟨Nat.lt_of_lt_of_le backed.declared extends_.count,
    Nat.lt_of_lt_of_le backed.kept extends_.globals.length_le, ?_, ?_⟩
  · rw [ofThunk.2.2]
    exact backed.own
  · rw [extends_.global_eq backed.kept]
    exact backed.targets.mono extends_

/-- One quiet emission before another, from a state on. -/
theorem EmitState.AddsOnly.after {Other : Type} {emission : Emission Result}
    {next : Result → Emission Other} {good : EmitState → Result → Prop}
    (preserves : Preserves (EmitState.Ready scene) EmitState.Quiet state
      (emission scene.environment) good)
    (adds : Does (AddsOnly added declares) [] emission)
    (rest : ∀ result later, later.Ready scene → state.Quiet later →
      good later result → AddsOnly added declares scene.environment [] later
        (next result scene.environment later).2) :
    AddsOnly added declares scene.environment [] state
      ((emission >>= next) scene.environment state).2 :=
  Graded.trans (adds scene.environment state)
    (rest _ _ preserves.holds preserves.follows preserves.good)

theorem answers_of_types {types : List TypeId} {values : List Value}
    (same : values.map Value.type = types) : Answers types values :=
  same ▸ answers_types values

/-- The target takes the environment and the parameters of the thunk. -/
theorem EmitState.Backed.reaches {thunk target : FunctionId}
    {environment : GlobalId} {parameters : List TypeId}
    (backed : state.Backed thunk environment target parameters)
    (ready : state.Ready scene) {captured : Value}
    (typed : captured.Typed state.table)
    (same : captured.type =
      (state.builder.module.global environment).type) :
    state.Reaches target
      (captured :: (state.builder.module.function thunk).parameters) := by
  obtain ⟨reached, backing, found, parametersSame⟩ := backed.targets
  have types : (captured ::
      (state.builder.module.function thunk).parameters).map Value.type =
      backing.parameters := by
    rw [List.map_cons, backed.own, same, parametersSame]
  have length := congrArg List.length types
  rw [List.length_map] at length
  refine ⟨reached, backing, found, length.ge, fun _ => length,
    answers_of_types types, List.forall_mem_cons.mpr ⟨typed, ?_⟩⟩
  exact (ready.builder.sound.functions thunk backed.declared).2

theorem adds_callTarget (ready : state.Ready scene)
    {thunk target : FunctionId} {environment : GlobalId}
    {signature : TypeTable.Signature}
    (backed : state.Backed thunk environment target signature.parameters) :
    AddsOnly (Operation.SuitsCallee) True scene.environment [] state
      (callTarget thunk environment target signature scene.environment
        state).2 := by
  refine .after (preserves_onBuilder ready
    (Builder.builds_globalSlot ready.builder environment))
    (adds_onBuilder (Builder.adds_globalAddress environment))
    fun slot later laterReady quiet pointing => ?_
  obtain ⟨content, pointee⟩ := pointing
  have isPointer : slot.operand.type.isPointer = true := by
    rw [Value.operand, content]
    rfl
  refine .after (preserves_onBuilder laterReady
    (Builder.builds_loadSlot laterReady.builder pointee isPointer "env"))
    (adds_onBuilder (Builder.adds_load slot "env"))
    fun found last lastReady lastQuiet loaded => ?_
  obtain ⟨captured, rfl, typed, type⟩ := loaded
  have lastBacked := backed.mono
    (quiet.trans lastQuiet).builder.module.toExtends
  have same : captured.type =
      (last.builder.module.global environment).type := by
    rw [(quiet.trans lastQuiet).builder.module.toExtends.global_eq
      backed.kept]
    exact type
  refine .look_bind (show module scene.environment last =
    (last.builder.module, last) from rfl) ?_
  have whole : (last.builder.module.function thunk).parameters.take
      signature.parameters.length =
        (last.builder.module.function thunk).parameters := by
    rw [← lastBacked.own, List.length_map, List.take_length]
  rw [whole]
  refine .after (serves_functionAddress lastReady
    (lastBacked.reaches lastReady typed same))
    (adds_onBuilder (Builder.adds_functionAddress target))
    fun callee final finalReady _ serves => ?_
  have adds : final.builder.AddsOnly (Operation.SuitsCallee) True
      (Builder.call callee _ "retv" final.builder).2 :=
    Builder.adds_buildCall serves (fun _ _ _ _ _ suits _ => suits) "retv"
  exact ⟨adds.module, .inl trivial⟩

theorem adds_returnResult (allowed : ∀ value, added (.ret value))
    (type : TypeId) (result : Option Value) :
    Does (AddsOnly added declares) [] (returnResult type result) := by
  have effect (value : Option Operand) : Does (AddsOnly added declares) []
      (liftM (Builder.insertEffect (.ret value)) : Emission Unit) :=
    adds_onBuilder (Builder.adds_insertEffect fun _ => allowed value)
  cases result with
  | none => exact effect none
  | some value => exact .step adds_types fun _ => .ite (effect _) (effect _)

theorem adds_emitThunk (ready : state.Ready scene)
    {thunk target : FunctionId} {environment : GlobalId}
    {signature : TypeTable.Signature}
    (backed : state.Backed thunk environment target signature.parameters) :
    AddsOnly (Operation.SuitsCallee) True scene.environment [] state
      (emitThunk thunk environment target signature scene.environment
        state).2 := by
  let moved := state.builder.moved ⟨thunk, none, false⟩
  let started := Builder.appendBlock "entry" moved
  let entered : EmitState :=
    { state with builder := started.2.atEnd started.1 }
  have sound : moved.module.Sound := ready.builder.sound
  have appended := Builder.appended_appendBlock sound backed.declared
    (show nameBeforeNul "entry" ≠ "" by decide)
  have enteredReady : entered.Ready scene :=
    ⟨ready.toSound.withBuilder ready.builder.sound.types appended.module
      fun _ _ _ => appended.leads,
      (appended.ready ready.builder.inhabited ready.builder.attached).1⟩
  have enteredBacked : entered.Backed thunk environment target
      signature.parameters := backed.mono appended.module.toExtends
  have appends : AddsOnly (Operation.SuitsCallee) True scene.environment []
      state entered :=
    ⟨(Builder.adds_appendBlock "entry" moved).module, .inr rfl⟩
  have calls := adds_callTarget enteredReady enteredBacked
  exact Graded.trans appends (Graded.trans calls
    (adds_returnResult (by rintro _ ⟨⟩) signature.result _ _ _))

/-- The parameters of a thunk get names. -/
theorem adds_nameParameters (function : FunctionId) (count : Nat) :
    Does (AddsOnly added declares) [] (nameParameters function count) := by
  have renames (index : Nat) (name : String) :
      Relates (Module.AddsOnly added declares)
        (Module.setParameterName function index name) := by
    refine Module.adds_modifyFunction function ?_ ?_
    · intro function
      dsimp only
      split
      · split <;> rfl
      · rfl
    · intro function block operation
      dsimp only
      split
      · split <;> exact id
      · exact id
  exact .each fun index _ => adds_onBuilder
    (Builder.adds_onModule (renames index _))

theorem adds_addThunk (ready : state.Ready scene) {name : String}
    (missing : state.builder.module.function? name = none) {type : TypeId}
    {signature : TypeTable.Signature}
    (found : state.table.signature? type = some signature)
    {environment : GlobalId}
    (kept : environment < state.builder.module.globals.length)
    {target : FunctionId} (targets : state.Targets target
      ((state.builder.module.global environment).type ::
        signature.parameters)) :
    AddsOnly (Operation.SuitsCallee) True scene.environment [] state
      (addThunk name type environment target signature scene.environment
        state).2 := by
  have adds := preserves_onBuilder ready (Builder.builds_onModule
    ready.builder (Module.runs_addFunction ready.builder.sound name found
      .unlisted))
  have extends_ := adds.follows.builder.module.toExtends
  have same := Module.addFunction_of_missing missing found .unlisted
  have backed : Preserves (EmitState.Ready scene) EmitState.Quiet state
      ((liftM (Module.addFunction name type .unlisted) :
        Emission FunctionId) scene.environment) fun later thunk =>
      later.Backed thunk environment target signature.parameters := by
    refine ⟨adds.holds, adds.follows, adds.good,
      Nat.lt_of_lt_of_le kept extends_.globals.length_le, same.2, ?_⟩
    exact (extends_.global_eq kept).symm ▸ targets.mono extends_
  refine .after backed (adds_onBuilder (Builder.adds_onModule
    (Module.adds_addFunction trivial name type .unlisted)))
    fun thunk later laterReady _ laterBacked => ?_
  refine .after (preserves_nameParameters laterReady thunk _)
    (adds_nameParameters thunk _) fun _ last lastReady quiet _ => ?_
  exact (adds_emitThunk lastReady (laterBacked.mono
    quiet.builder.module.toExtends)).elsewhere

/-! ## Closures that are function pointers -/

/-- The names that the next closure uses are free. -/
structure EmitState.HasRoom (state : EmitState) : Prop where
  thunk : ∀ name : String, state.builder.module.function?
    s!"__edn.closure.thunk.{name}.{state.closureCount}" = none
  environment : state.builder.module.global?
    s!"__edn.closure.env.{state.closureCount}" = none

theorem EmitState.HasRoom.mono {later : EmitState}
    {environment : Environment} {uses : List NameUse} (room : state.HasRoom)
    (adds : AddsOnly added False environment uses state later) :
    later.HasRoom := by
  have count := adds.closures.resolve_left id
  have same := adds.module.names.resolve_left id
  refine ⟨fun name => ?_, ?_⟩
  · rw [count, same.function?_eq]
    exact room.thunk name
  · rw [count, Module.global?, same.globals]
    exact room.environment

theorem Ends.room {environment : Environment} {handler : Handler Result}
    {good : EmitState → Result → Prop}
    (ends : Ends environment state handler good)
    (adds : Tries (AddsOnly (fun _ => False) False) [] handler)
    (room : state.HasRoom) :
    Ends environment state handler fun later result =>
      good later result ∧ later.HasRoom :=
  fun result outcome =>
    ⟨ends result outcome, room.mono (adds environment state)⟩

namespace Ir.Module

theorem adds_addGlobal (allowed : declares) (name : String) (type : TypeId)
    (initializer : Option Initializer) (isConstant : Bool)
    (linkage : Linkage) :
    Relates (AddsOnly added declares)
      (addGlobal name type initializer isConstant linkage) := by
  refine fun module => ⟨fun id operation _ performs => .inl ?_, .inl allowed⟩
  rw [Performs, function_eq_of_functions_eq
    (functions_addGlobal name type _ _ _ module)] at performs
  exact performs

/-- A global that was not there is the last one, of the type that it is added
for. -/
theorem addGlobal_of_missing {module : Module} {name : String}
    (missing : module.global? name = none) (type : TypeId)
    (initializer : Option Initializer) (isConstant : Bool)
    (linkage : Linkage) :
    let added := addGlobal name type initializer isConstant linkage module
    added.1 < added.2.globals.length ∧
      (added.2.global added.1).type = type := by
  have last : ∃ global : Global,
      (addGlobal name type initializer isConstant linkage module).1 =
        module.globals.length ∧
      (addGlobal name type initializer isConstant linkage
        module).2.globals = module.globals ++ [global] ∧
      global.type = type := by
    unfold addGlobal
    rw [stateM_get_bind, missing]
    exact ⟨_, rfl, rfl, rfl⟩
  obtain ⟨global, id, globals, same⟩ := last
  refine ⟨?_, ?_⟩
  · rw [id, globals]
    simp
  · rw [id, Module.global, globals]
    simp [same]

end Ir.Module

/-- The environment of a closure has the type of what is captured. -/
theorem keeps_addEnvironment (ready : state.Ready scene) {number : Nat}
    (missing : state.builder.module.global?
      s!"__edn.closure.env.{number}" = none)
    {type : TypeId} (has : state.table.Has type) :
    Preserves (EmitState.Ready scene) EmitState.Quiet state
      (addEnvironment number type scene.environment) fun later id =>
        later.builder.module.functions = state.builder.module.functions ∧
          id < later.builder.module.globals.length ∧
          (later.builder.module.global id).type = type := by
  have emits := emits_addEnvironment number type state ready has
  exact ⟨emits.holds, emits.follows,
    Module.functions_addGlobal _ type _ _ _ _,
    Module.addGlobal_of_missing missing type _ _ _⟩

theorem adds_addEnvironment (allowed : declares) (number : Nat)
    (type : TypeId) :
    Does (AddsOnly added declares) [] (addEnvironment number type) :=
  .step adds_types fun _ => adds_onBuilder (Builder.adds_onModule
    (Module.adds_addGlobal allowed _ type _ _ _))

theorem adds_capturedValue (items : List Form) (index : Nat)
    (shape : String) :
    Tries (AddsOnly added declares) [] (capturedValue items index shape) := by
  refine .parse fun forms _ => ?_
  split
  · exact adds_valueOf _
  · exact .throw _

theorem ends_closureTarget (name : String) (environment : Environment) :
    Ends environment state (closureTarget name) fun later target =>
      later.builder.module.function? name = some target := by
  refine .look rfl ?_
  cases found : state.builder.module.function? name with
  | none => rintro _ ⟨⟩
  | some target => exact .pure found

/-- What does not declare anything finds functions as before. -/
theorem preserves_function? {emission : Emission Result}
    {good : EmitState → Result → Prop}
    (preserves : Preserves (EmitState.Ready scene) EmitState.Quiet state
      (emission scene.environment) good)
    (adds : Does (AddsOnly (fun _ => False) False) [] emission) :
    Preserves (EmitState.Ready scene) EmitState.Quiet state
      (emission scene.environment) fun later result => good later result ∧
        ∀ name, later.builder.module.function? name =
          state.builder.module.function? name := by
  have same := (adds scene.environment state).module.names.resolve_left id
  exact ⟨preserves.holds, preserves.follows, preserves.good,
    same.function?_eq⟩

/-- What is emitted for a closure whose target was checked. -/
theorem adds_closureThunk (ready : state.Ready scene)
    (number : Nat) (name : String)
    (noThunk : state.builder.module.function?
      s!"__edn.closure.thunk.{name}.{number}" = none)
    (noEnvironment : state.builder.module.global?
      s!"__edn.closure.env.{number}" = none)
    {captured : Value} (typed : captured.Typed state.table) {type : TypeId}
    {signature : TypeTable.Signature}
    (found : state.table.signature? type = some signature)
    {target : FunctionId}
    (targets : state.Targets target (captured.type :: signature.parameters))
    (destination : String) (pointerType : TypeId) :
    AddsOnly (Operation.SuitsCallee) True scene.environment [] state ((do
      let environment ← addEnvironment number captured.type
      Builder.store captured (← Builder.globalAddress environment)
      let thunk ← addThunk s!"__edn.closure.thunk.{name}.{number}" type
        environment target signature
      let value ← Builder.functionAddress thunk
      define destination value pointerType : Handler Unit).run
        scene.environment state).2 := by
  refine .quietly (keeps_addEnvironment ready noEnvironment typed.has)
    (adds_addEnvironment trivial number _)
    fun environment later laterReady quiet kept => ?_
  obtain ⟨functions, inside, same⟩ := kept
  have slots : Does (AddsOnly (fun _ => False) False) []
      (liftM (Builder.globalAddress environment) : Emission Value) :=
    adds_onBuilder (Builder.adds_globalAddress environment)
  refine .quietly (preserves_function? (preserves_onBuilder laterReady
    (Builder.builds_globalAddress laterReady.builder environment)) slots)
    (adds_onBuilder (Builder.adds_globalAddress environment))
    fun slot middle middleReady middleQuiet both => ?_
  have stores : Does (AddsOnly (fun _ => False) False) []
      (liftM (Builder.store captured slot) : Emission Unit) :=
    adds_onBuilder (Builder.adds_store captured slot)
  refine .quietly (preserves_function? (preserves_onBuilder middleReady
    (Builder.builds_store middleReady.builder captured slot)) stores)
    (adds_onBuilder (Builder.adds_store captured slot))
    fun _ last lastReady lastQuiet finds => ?_
  have backwards := middleQuiet.trans lastQuiet
  have all := quiet.trans backwards
  have missing : last.builder.module.function?
      s!"__edn.closure.thunk.{name}.{number}" = none := by
    rw [finds.2, both.2, Module.function?, functions]
    exact noThunk
  have has := TypeTable.has_of_signature found
  have signatureFound : last.table.signature? type = some signature :=
    (has.signature_eq all.grows).trans found
  have extends_ := backwards.builder.module.toExtends
  have lastTargets : last.Targets target
      ((last.builder.module.global environment).type ::
        signature.parameters) := by
    rw [extends_.global_eq inside, same]
    exact targets.mono all.builder.module.toExtends
  refine .lift (adds_addThunk lastReady missing signatureFound
    (Nat.lt_of_lt_of_le inside extends_.globals.length_le) lastTargets)
    fun thunk final => ?_
  have defines : Tries (AddsOnly (Operation.SuitsCallee) True) [] (do
      let value ← Builder.functionAddress thunk
      define destination value pointerType : Handler Unit) :=
    .step (.lift (adds_onBuilder (Builder.adds_functionAddress thunk)))
      fun value => adds_define destination value pointerType
  exact defines scene.environment final

/-- A target that can back a closure takes the environment and then the
parameters of the closure. -/
theorem targets_of_canBack {table : TypeTable}
    (grows : table.Grows state.table) {captured : TypeId} {name : String}
    {target : FunctionId}
    (found : state.builder.module.function? name = some target)
    {signature : TypeTable.Signature} {shape : String}
    (backs : canBack signature (table.signature?
      (state.builder.module.function target).type) captured shape =
        .ok true) :
    state.Targets target (captured :: signature.parameters) := by
  obtain ⟨backing, backingFound, -, same⟩ := canBack_eq_true backs
  have has := TypeTable.has_of_signature backingFound
  exact ⟨Module.lt_of_function? found, backing,
    (has.signature_eq grows).trans backingFound, same⟩

theorem adds_emitClosure (ready : state.Ready scene) (room : state.HasRoom)
    (items : List Form) :
    AddsOnly (Operation.SuitsCallee) True scene.environment [] state
      ((emitClosure items).run scene.environment state).2 := by
  unfold emitClosure
  refine .parse fun _ _ => .parse fun destination _ =>
    .parse fun typeForm _ => ?_
  have types : Handles scene (fun _ => True) (typeOf typeForm) _ :=
    handles_typeOf typeForm
  refine .step ready types trivial
    ((types.ends ready trivial).room (adds_typeOf typeForm) room)
    (adds_typeOf typeForm) fun pointerType typed typedReady _ has => ?_
  refine .parse fun name _ => ?_
  have captures : Handles scene (fun _ => True) (capturedValue items 4 _) _ :=
    handles_capturedValue items 4 "(closure %d FnPtrT callee [%env])"
  refine .step typedReady captures trivial
    ((captures.ends typedReady trivial).room
      (adds_capturedValue items 4 _) has.2)
    (adds_capturedValue items 4 _)
    fun captured middle middleReady _ holds => ?_
  refine .look rfl ?_
  dsimp only
  split
  · have rejects : Tries (AddsOnly (Operation.SuitsCallee) True) []
        (rejectType "closure of type" pointerType : Handler Unit) :=
      .step (.lift (adds_spelling pointerType)) fun _ => .throw _
    exact rejects scene.environment middle
  next type signature closureFound =>
  obtain ⟨_, pointee, closureFound⟩ := Option.bind_eq_some_iff.mp closureFound
  obtain ⟨_, signatureFound, ⟨⟩⟩ := Option.map_eq_some_iff.mp closureFound
  have targeting : Handles scene (fun _ => True) (closureTarget name) _ :=
    handles_closureTarget name
  refine .step middleReady targeting trivial
    ((ends_closureTarget name scene.environment).room
      (adds_closureTarget name) holds.2)
    (adds_closureTarget name) fun target last lastReady quiet found => ?_
  refine .look rfl (.parse fun backs read => ?_)
  split
  · exact Graded.refl scene.environment last
  next isBacked =>
  rw [Bool.not_eq_true, Bool.not_eq_false'] at isBacked
  have targets := targets_of_canBack quiet.grows found.1 (isBacked ▸ read)
  have has := TypeTable.has_of_signature signatureFound
  refine .look rfl ?_
  let counting : Emission Unit :=
    modify fun state => { state with closureCount := last.closureCount + 1 }
  have counts : Emits scene (fun _ => True) counting _ :=
    emits_modify fun other => ⟨other.literals, last.closureCount + 1,
      other.problems, other.span, rfl⟩
  have counted : Preserves (EmitState.Ready scene) EmitState.Quiet last
      (counting scene.environment)
      fun later _ => later.builder = last.builder :=
    ⟨(counts last lastReady trivial).holds,
      (counts last lastReady trivial).follows, rfl⟩
  refine .quietly counted
    (fun _ _ => ⟨Std.Refl.refl _, .inl trivial⟩)
    fun _ later laterReady laterQuiet same => ?_
  have grows := (quiet.trans laterQuiet).grows
  refine adds_closureThunk laterReady last.closureCount name ?_ ?_
    (holds.1.mono middleReady.builder.sound.types grows)
    ((has.signature_eq grows).trans signatureFound)
    (targets.mono laterQuiet.builder.module.toExtends) destination pointerType
  · rw [same]
    exact found.2.thunk name
  · rw [same]
    exact found.2.environment

/-! ## Calls of instructions -/

/-- The first argument that is checked, for the instructions that calls come
from.  The environment that a closure record passes on is not. -/
def Opcode.firstChecked? : Opcode → Option Nat
  | .call | .callIndirect | .closure => some 0
  | .callClosure => some 1
  | _ => none

/-- A call that is new has as many arguments as its callee has parameters, or
more where the callee is variadic, and the arguments that are checked have the
types of their parameters. -/
theorem new_calls_suit_callees (ready : state.Ready scene) {opcode : Opcode}
    (checked : opcode.firstChecked? = some first)
    (room : opcode = .closure → state.HasRoom) (emit : FormEmitter)
    (items : List Form) :
    let later := ((dispatch emit opcode items).run scene.environment state).2
    ∀ id operation, operation.isCall = true →
      later.builder.module.Performs id operation →
      state.builder.module.Performs id operation ∨
        operation.IsSuited first := by
  intro later id operation isCall performs
  have isChecked : operation.isChecked = true := by
    cases operation <;> first | rfl | cases isCall
  cases opcode with
  | call =>
      cases checked
      exact (adds_emitCall ready items).module.new id operation isChecked
        performs
  | callIndirect =>
      cases checked
      exact (vouches_emitCallIndirect items state ready trivial).new id
        operation isChecked performs
  | closure =>
      cases checked
      exact ((adds_emitClosure ready (room rfl) items).module.new id operation
        isChecked performs).imp_right fun suits => suits isCall
  | callClosure =>
      cases checked
      exact (vouches_emitCallClosure items state ready trivial).new id
        operation isChecked performs
  | _ => cases checked

/-- A call of a function that takes a word, with a literal. -/
def wordCall : List Form :=
  [Form.symbol "call", Form.symbol "%r", Form.symbol "i32", Form.symbol "f",
    .atom .empty (.int 1)]

def wordScene : Scene := ⟨⟨{}, {}, "f"⟩, 0⟩

/-- The state after such a call at the start of a body. -/
def afterWordCall : EmitState :=
  ((dispatch emitForm .call wordCall).run wordScene.environment
    (.opening wordModule 0)).2

theorem performs_wordCall : afterWordCall.builder.module.Performs ⟨0, 0⟩
    (.call (.int 32) [.int 32] false (.function 0) [.int 32 1]) :=
  ⟨_, rfl, _, List.mem_cons_self, rfl⟩

theorem new_calls_suit_callees_wordCall :
    let called : Operation :=
      .call (.int 32) [.int 32] false (.function 0) [.int 32 1]
    afterWordCall.builder.module.Performs ⟨0, 0⟩ called ∧
      ((EmitState.opening wordModule 0).builder.module.Performs ⟨0, 0⟩
          called ∨
        called.IsSuited 0) := by
  intro called
  have ready : (EmitState.opening wordModule 0).Ready wordScene :=
    EmitState.ready_opening sound_wordModule
      (by decide +kernel : 0 < wordModule.functions.length)
      (by decide +kernel) {} "f"
  have checked : Opcode.call.firstChecked? = some 0 := rfl
  exact ⟨performs_wordCall, new_calls_suit_callees ready checked nofun
    emitForm wordCall ⟨0, 0⟩ called rfl performs_wordCall⟩

/-- A module with a closure record that holds an environment of another type
than its target takes. -/
def widenedEnvironment : Form :=
  Form.list [Form.symbol "module",
    Form.keywordCall "fn" [("name", Form.symbol "g"),
      ("ret", Form.symbol "i32"),
      ("params", Form.vector [Form.list [Form.symbol "param",
        Form.symbol "i32", Form.symbol "%e"]]),
      ("body", Form.vector [
        Form.list [Form.symbol "ret", Form.symbol "i32",
          Form.symbol "%e"]])],
    Form.keywordCall "fn" [("name", Form.symbol "f"),
      ("ret", Form.symbol "i32"),
      ("params", Form.vector [Form.list [Form.symbol "param",
        Form.symbol "i64", Form.symbol "%x"]]),
      ("body", Form.vector [
        Form.list [Form.symbol "make-closure", Form.symbol "%c",
          Form.symbol "g", Form.vector [Form.symbol "%x"]],
        Form.list [Form.symbol "call-closure", Form.symbol "%r",
          Form.symbol "i32", Form.symbol "%c"],
        Form.list [Form.symbol "ret", Form.symbol "i32",
          Form.symbol "%r"]])]]

/-- The call through the record passes the environment on as it is. -/
theorem widenedEnvironment_passes_another_type :
    let emitted := emitted {} widenedEnvironment
    let operation? := (emitted.state.module.function 1).blocks[0]?.bind
      fun block => block.instructions[9]?.map Instruction.operation
    emitted.error = none ∧ emitted.state.problems.isEmpty = true ∧
      (operation?.bind fun operation => match operation with
        | .call _ parameters _ _ arguments =>
            some (arguments.map Operand.type == parameters)
        | _ => none) = some false ∧
      emitted.state.module.lines =
        ["; ModuleID = 'edn'",
          "%struct.__edn.closure.g = type \x7b ptr, i64 \x7d", "",
          "define i32 @g(i32 %e) \x7b", "entry:", "  ret i32 %e", "\x7d", "",
          "define i32 @f(i64 %x) \x7b", "entry:",
          "  %c = alloca %struct.__edn.closure.g",
          "  %c.env.addr = getelementptr %struct.__edn.closure.g, ptr %c, " ++
            "i32 0, i32 1",
          "  store i64 %x, ptr %c.env.addr",
          "  %c.fn.addr = getelementptr %struct.__edn.closure.g, ptr %c, " ++
            "i32 0, i32 0",
          "  store ptr @g, ptr %c.fn.addr",
          "  %r.fn.addr = getelementptr %struct.__edn.closure.g, ptr %c, " ++
            "i32 0, i32 0",
          "  %r.fn = load ptr, ptr %r.fn.addr",
          "  %r.env.addr = getelementptr %struct.__edn.closure.g, ptr %c, " ++
            "i32 0, i32 1",
          "  %r.env = load i64, ptr %r.env.addr",
          "  %r = call i32 %r.fn(i64 %r.env)", "  ret i32 %r", "\x7d"] := by
  intro emitted operation?
  refine ⟨?_, ?_, ?_, ?_⟩ <;> decide +kernel

end FormCompiler
