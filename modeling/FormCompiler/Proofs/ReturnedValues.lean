import FormCompiler.Proofs.EmittedModules
import FormCompiler.Proofs.SuitedCalls

/-!
# What functions return

What a body returns is checked against the declared result of its function, a
body that comes to its end returns a default, and the thunk of a closure
returns what its target does.  So a function that returns nothing has no
result, and where the result type is first-class, every value that is returned
has that type.

A result type that is not first-class has no values.  What a body returns for
such a type is something else.
-/

namespace FormCompiler

open Ir

open EmitState (AddsOnly)

variable {Result Other : Type} {added : Operation → Prop} {declares : Prop}
  {scene : Scene} {known : TypeTable → Prop} {state : EmitState}
  {count : Nat} {result : IrType}

/-! ## Functions that return their result -/

/-- If an operation returns, it returns what may be returned for a result
type. -/
def Ir.Operation.Yields (result : IrType) (operation : Operation) : Prop :=
  ∀ value, operation = .ret value → result.Gives value

namespace Ir.Module

variable {module later : Module}

/-- The functions from a number on return their results. -/
def Fulfils (count : Nat) (module : Module) : Prop :=
  ∀ id, count ≤ id → ∀ index value,
    (module.function id).Performs index (.ret value) →
      (module.function id).result.Gives value

/-- A function that is not there does nothing. -/
theorem not_performs_of_length_le {id : FunctionId}
    (outside : module.functions.length ≤ id) (index : Nat)
    (operation : Operation) :
    ¬(module.function id).Performs index operation := by
  rintro ⟨block, found, -⟩
  have missing : module.function id = default := by
    rw [Module.function, List.getElem?_eq_none outside]
    rfl
  rw [missing] at found
  cases found

theorem SameNames.length_eq (same : module.SameNames later) :
    later.functions.length = module.functions.length := by
  simpa using congrArg List.length same.functions

/-- The result type of a function goes with its type, which stays. -/
theorem Sound.result_eq (sound : module.Sound) (laterSound : later.Sound)
    (extends_ : module.Extends later) {id : FunctionId}
    (inside : id < module.functions.length) :
    (later.function id).result = (module.function id).result := by
  obtain ⟨signature, found⟩ :=
    Option.isSome_iff_exists.mp (sound.functions id inside).1
  have laterFound :
      later.types.signature? (later.function id).type = some signature := by
    rw [(extends_.functions id inside).2.1]
    exact ((TypeTable.has_of_signature found).signature_eq
      extends_.types).trans found
  have laterInside := Nat.lt_of_lt_of_le inside extends_.count
  rw [sound.results id inside signature found,
    laterSound.results id laterInside signature laterFound]
  exact lowered_eq sound.types extends_.types (sound.types.signature found).1 _

end Ir.Module

/-- The functions from a number on have one result type, and return it. -/
structure EmitState.Fulfils (count : Nat) (result : IrType)
    (state : EmitState) : Prop where
  fulfils : state.builder.module.Fulfils count
  results : ∀ id, count ≤ id → id < state.builder.module.functions.length →
    (state.builder.module.function id).result = result

namespace EmitState.Fulfils

/-- There are no functions from the number on. -/
theorem of_length_le (few : state.builder.module.functions.length ≤ count) :
    state.Fulfils count result := by
  constructor
  · intro id late index value performs
    exact absurd performs
      (Module.not_performs_of_length_le (few.trans late) index _)
  · intro id late inside
    exact absurd (inside.trans_le (few.trans late)) (Nat.lt_irrefl id)

/-- The only one is new and has no body. -/
theorem of_append {module : Module} {function : Function}
    (functions : state.builder.module.functions =
      module.functions ++ [function])
    (noBlocks : function.blocks = []) (same : function.result = result) :
    state.Fulfils module.functions.length result := by
  have appended := Module.function_append functions
  have isLast {id : FunctionId} (late : module.functions.length ≤ id)
      (inside : id < state.builder.module.functions.length) :
      state.builder.module.function id = function := by
    rw [functions, List.length_append, List.length_singleton] at inside
    rw [appended, if_pos (Nat.le_antisymm (Nat.lt_succ_iff.mp inside) late)]
  constructor
  · intro id late index value performs
    rcases Nat.lt_or_ge id state.builder.module.functions.length with
      inside | outside
    · obtain ⟨block, found, -⟩ := isLast late inside ▸ performs
      rw [noBlocks] at found
      cases found
    · exact absurd performs
        (Module.not_performs_of_length_le outside index _)
  · intro id late inside
    rw [isLast late inside, same]

/-- Returning a value of the result type, or nothing if there is none. -/
theorem step {later : EmitState} {uses : List NameUse}
    (fulfils : state.Fulfils count result) (ready : state.Ready scene)
    (laterReady : later.Ready scene) (quiet : state.Quiet later)
    (adds : AddsOnly (Operation.Yields result) False scene.environment uses
      state later) : later.Fulfils count result := by
  have sameLength := (adds.module.names.resolve_left id).length_eq
  have kept {id : FunctionId}
      (inside : id < state.builder.module.functions.length) :=
    ready.builder.sound.result_eq laterReady.builder.sound
      quiet.builder.module.toExtends inside
  constructor
  · intro id late index value performs
    rcases Nat.lt_or_ge id state.builder.module.functions.length with
      inside | outside
    · rw [kept inside]
      rcases adds.module.new ⟨id, index⟩ _ rfl performs with old | new
      · exact fulfils.fulfils id late index value old
      · rw [fulfils.results id late inside]
        exact new value rfl
    · exact absurd performs
        (Module.not_performs_of_length_le (sameLength ▸ outside) index _)
  · intro id late inside
    rw [sameLength] at inside
    rw [kept inside]
    exact fulfils.results id late inside

end EmitState.Fulfils

/-! ## Thunks -/

/-- A call, whatever it is made of, is all that is added. -/
theorem Ir.Builder.adds_call
    (allowed : ∀ result parameters variadic callee arguments,
      added (.call result parameters variadic callee arguments))
    (callee : Value) (arguments : List Value) (name : String) :
    Relates (Builder.AddsOnly added declares)
      (Builder.call callee arguments name) := by
  refine .get_bind fun builder => ?_
  dsimp only [pure_bind]
  split
  · exact .pure none
  · refine .bind adds_attached fun block => ?_
    split
    · exact .map (adds_constant _ _) some
    · refine .bind (adds_of_functions_eq (fun _ => rfl) fun _ => rfl)
        fun lowered => ?_
      split
      · refine .ite ?_ (.ite ?_ (.pure none))
        · refine .bind (adds_insert _ (fun _ => allowed _ _ _ _ _) _)
            fun operand => ?_
          refine .bind (adds_of_functions_eq (fun _ => rfl) fun _ => rfl)
            fun result => ?_
          exact .map (adds_push _ _) some
        · refine .bind (adds_insert _ (fun _ => allowed _ _ _ _ _) _)
            fun operand => ?_
          exact .map (adds_push _ _) some
      · exact .pure none

theorem adds_callOfTarget
    (allowed : ∀ result parameters variadic callee arguments,
      added (.call result parameters variadic callee arguments))
    (thunk : FunctionId) (environment : GlobalId) (target : FunctionId)
    (signature : TypeTable.Signature) :
    Does (AddsOnly added declares) []
      (callTarget thunk environment target signature) := by
  refine .step (adds_onBuilder (Builder.adds_globalAddress environment))
    fun slot => ?_
  refine .step (adds_onBuilder (Builder.adds_load slot "env"))
    fun captured => .step adds_module fun module => ?_
  refine .step (adds_onBuilder (Builder.adds_functionAddress target))
    fun callee => ?_
  exact adds_onBuilder (Builder.adds_call allowed callee _ "retv")

theorem EmitState.Promises.of_quiet {later : EmitState} {id : FunctionId}
    {type : TypeId} (promises : state.Promises id type)
    (ready : state.Ready scene) (quiet : state.Quiet later) :
    later.Promises id type :=
  Enduring.mono ready.builder.sound.types quiet.precedes.toContinues promises

/-- The target of a closure gives a value of its result type. -/
theorem preserves_callTarget (ready : state.Ready scene)
    {target : FunctionId} {type : TypeId}
    (promises : state.Promises target type) (thunk : FunctionId)
    (environment : GlobalId) (signature : TypeTable.Signature) :
    Preserves (EmitState.Ready scene) EmitState.Quiet state
      (callTarget thunk environment target signature scene.environment)
      fun later found => ∃ value, found = some value ∧
        value.Typed later.table ∧ value.type = type := by
  have addresses : Emits scene (fun _ => True)
      (liftM (Builder.globalAddress environment) : Emission Value) _ :=
    emits_globalAddress environment
  apply (addresses state ready trivial).before
  intro first slot firstReady firstQuiet _
  have loads : Emits scene (fun _ => True)
      (liftM (Builder.load slot "env") : Emission (Option Value)) _ :=
    emits_load slot "env"
  apply (loads first firstReady trivial).before
  intro second captured secondReady secondQuiet _
  refine .look rfl ?_
  obtain ⟨-, backing, found, same⟩ :=
    promises.of_quiet ready (firstQuiet.trans secondQuiet)
  apply (preserves_onBuilder secondReady (Builder.builds_functionAddress
    secondReady.builder target)).before
  rintro third callee thirdReady thirdQuiet ⟨-, content, pointee⟩
  have thirdFound := ((TypeTable.has_of_signature found).signature_eq
    thirdQuiet.grows).trans found
  have called : Builder.calleeType? third.builder.module.types callee =
      some ((second.builder.module.function target).type, backing) := by
    rw [Builder.calleeType?, pointee, Option.bind_some]
    exact Option.map_eq_some_iff.mpr ⟨backing, thirdFound, rfl⟩
  have isPointer : callee.operand.type.isPointer = true := by
    rw [Value.operand, content]
    rfl
  apply (preserves_onBuilder thirdReady (Builder.builds_callOf
    thirdReady.builder called _ "retv")).weaken
  rintro last result ⟨gives, isSome⟩
  obtain ⟨value, rfl⟩ := Option.isSome_iff_exists.mp (isSome isPointer)
  obtain ⟨typed, type⟩ := gives value rfl
  exact ⟨value, rfl, typed, type.trans same⟩

/-- A thunk returns what its target gave. -/
theorem adds_returnedResult {type : TypeId} {value : Value}
    (typed : value.Typed state.table) (same : value.type = type)
    (environment : Environment) :
    AddsOnly (Operation.Yields (lowered state.table boundaryLevels type))
      False environment [] state
      (returnResult type (some value) environment state).2 := by
  have returns {returned : Option Operand}
      (gives : (lowered state.table boundaryLevels type).Gives returned) :
      AddsOnly (Operation.Yields (lowered state.table boundaryLevels type))
        False environment [] state
        ((liftM (Builder.insertEffect (.ret returned)) : Emission Unit)
          environment state).2 := by
    refine adds_onBuilder (Builder.adds_insertEffect fun _ => ?_) environment
      state
    rintro _ ⟨⟩
    exact gives
  have run : returnResult type (some value) environment state =
      (if state.table.isVoid type then
        (liftM Builder.retVoid : Emission Unit)
      else liftM (Builder.ret value)) environment state := rfl
  rw [run]
  split
  · next isVoid =>
      exact returns (lowered_void (by simpa [TypeTable.isVoid] using isVoid) 63)
  · refine returns fun firstClass => ?_
    rw [← same] at firstClass ⊢
    exact (typed.operand_lowered firstClass).trans (lowered_succ firstClass)

theorem adds_thunkBody (ready : state.Ready scene)
    {thunk target : FunctionId} {signature : TypeTable.Signature}
    (declared : thunk < state.builder.module.functions.length)
    (has : state.table.Has signature.result)
    (promises : state.Promises target signature.result)
    (environment : GlobalId) :
    AddsOnly (Operation.Yields
        (lowered state.table boundaryLevels signature.result)) False
      scene.environment [] state
      (emitThunk thunk environment target signature scene.environment
        state).2 := by
  let moved := state.builder.moved ⟨thunk, none, false⟩
  let started := Builder.appendBlock "entry" moved
  let entered : EmitState :=
    { state with builder := started.2.atEnd started.1 }
  have sound : moved.module.Sound := ready.builder.sound
  have appended := Builder.appended_appendBlock sound declared
    (show nameBeforeNul "entry" ≠ "" by decide)
  have enteredReady : entered.Ready scene :=
    ⟨ready.toSound.withBuilder ready.builder.sound.types appended.module
      fun _ _ _ => appended.leads,
      (appended.ready ready.builder.inhabited ready.builder.attached).1⟩
  have enters : AddsOnly (Operation.Yields
        (lowered state.table boundaryLevels signature.result)) False
      scene.environment [] state entered :=
    ⟨(Builder.adds_appendBlock "entry" moved).module, .inr rfl⟩
  have continues : state.Continues entered :=
    ⟨appended.module, fun _ member => .inl member⟩
  have calls := preserves_callTarget enteredReady
    (Enduring.mono ready.builder.sound.types continues promises) thunk
    environment signature
  have calling : Does (AddsOnly (Operation.Yields
        (lowered state.table boundaryLevels signature.result)) False) []
      (callTarget thunk environment target signature) :=
    adds_callOfTarget (fun _ _ _ _ _ => by rintro _ ⟨⟩) thunk environment
      target signature
  have called := calling scene.environment entered
  have run : emitThunk thunk environment target signature scene.environment
      state = (callTarget thunk environment target signature >>=
        returnResult signature.result) scene.environment entered := by
    rw [emitThunk]
    iterate 3 rw [reader_bind_apply]
    exact congrArg _ (show _ = entered from rfl)
  obtain ⟨value, found, typed, same⟩ := calls.good
  have grows := appended.module.types.trans calls.follows.grows
  have returns := adds_returnedResult typed same scene.environment
  rw [lowered_eq ready.builder.sound.types grows has] at returns
  rw [run, reader_bind_apply, found]
  exact Graded.trans enters (Graded.trans called returns)

/-- The body of a thunk adds neither functions nor globals. -/
theorem sameNames_thunk (thunk : FunctionId) (environment : GlobalId)
    (target : FunctionId) (signature : TypeTable.Signature)
    (surroundings : Environment) (state : EmitState) :
    state.builder.module.SameNames ((do
      nameParameters thunk signature.parameters.length
      elsewhere (emitThunk thunk environment target signature) :
      Emission Unit) surroundings state).2.builder.module := by
  have body : Does (AddsOnly (fun _ => True) False) []
      (emitThunk thunk environment target signature) := by
    refine .step (adds_onBuilder fun _ => ⟨Std.Refl.refl _⟩) fun _ => ?_
    refine .step (adds_onBuilder (Builder.adds_appendBlock "entry"))
      fun entry => .step (adds_positionAtEnd entry) fun _ => ?_
    refine .step (adds_callOfTarget (fun _ _ _ _ _ => trivial) thunk
      environment target signature) fun result => ?_
    exact adds_returnResult (fun _ => trivial) signature.result result
  have adds : Does (AddsOnly (fun _ => True) False) [] (do
      nameParameters thunk signature.parameters.length
      elsewhere (emitThunk thunk environment target signature) :
      Emission Unit) :=
    .step (adds_nameParameters thunk _) fun _ => adds_elsewhere body
  exact (adds surroundings state).module.names.resolve_left id

/-- A new function that becomes a thunk returns its result. -/
theorem fulfils_newThunk (ready : state.Ready scene) {thunk target : FunctionId}
    {signature : TypeTable.Signature}
    (declared : thunk < state.builder.module.functions.length)
    (named : IsThunkName (state.builder.module.function thunk).name)
    (has : state.table.Has signature.result)
    (promises : state.Promises target signature.result)
    (fulfils : state.Fulfils count
      (lowered state.table boundaryLevels signature.result))
    (environment : GlobalId) :
    Preserves (EmitState.Ready scene) EmitState.Quiet state
      ((do
        nameParameters thunk signature.parameters.length
        elsewhere (emitThunk thunk environment target signature) :
        Emission Unit) scene.environment)
      fun later _ => later.Fulfils count
        (lowered state.table boundaryLevels signature.result) := by
  have names := preserves_nameParameters ready thunk
    signature.parameters.length
  have renames : Preserves (EmitState.Ready scene) EmitState.Quiet state
      (nameParameters thunk signature.parameters.length scene.environment)
      fun later _ => later.Fulfils count
        (lowered state.table boundaryLevels signature.result) :=
    ⟨names.holds, names.follows,
      fulfils.step ready names.holds names.follows
        (adds_nameParameters thunk _ scene.environment state)⟩
  apply renames.before
  intro later _ laterReady quiet laterFulfils
  have extends_ := quiet.builder.module.toExtends
  have laterDeclared := Nat.lt_of_lt_of_le declared extends_.count
  have laterNamed : IsThunkName (later.builder.module.function thunk).name := by
    rw [(extends_.functions thunk declared).1]
    exact named
  have body := preserves_emitThunk laterReady laterDeclared laterNamed
    environment target signature
  have adds := (adds_thunkBody laterReady laterDeclared
    (has.mono quiet.grows) (promises.of_quiet ready quiet)
    environment).elsewhere
  have sameResult := lowered_eq ready.builder.sound.types quiet.grows has
    boundaryLevels
  rw [sameResult] at adds
  exact ⟨body.holds, body.follows,
    laterFulfils.step laterReady body.holds body.follows adds⟩

/-- A function that is added for a thunk has no body yet. -/
theorem fulfils_addFunction (ready : state.Ready scene) {name : String}
    (missing : state.builder.module.function? name = none) {type : TypeId}
    {signature : TypeTable.Signature}
    (found : state.table.signature? type = some signature)
    (linkage : Linkage) :
    Preserves (EmitState.Ready scene) EmitState.Quiet state
      ((liftM (Module.addFunction name type linkage) :
        Emission FunctionId) scene.environment)
      fun later thunk =>
        thunk < later.builder.module.functions.length ∧
        (later.builder.module.function thunk).name = name ∧
        later.Fulfils state.builder.module.functions.length
          (lowered later.table boundaryLevels signature.result) := by
  have adds := preserves_onBuilder ready (Builder.builds_onModule
    ready.builder (Module.runs_addFunction ready.builder.sound name found
      linkage))
  obtain ⟨function, id, functions, -, sameType, noBlocks⟩ :=
    Module.addFunction_append missing type linkage
  have isLast := Module.function_append functions
    (Module.addFunction name type linkage state.builder.module).1
  rw [if_pos id] at isLast
  have signed := ((TypeTable.has_of_signature found).signature_eq
    adds.follows.grows).trans found
  have result := adds.holds.builder.sound.results _ adds.good signature
    ((congrArg _ ((congrArg Function.type isLast).trans sameType)).trans
      signed)
  refine ⟨adds.holds, adds.follows, adds.good,
    Module.name_addFunction state.builder.module name type linkage, ?_⟩
  exact .of_append functions noBlocks
    ((congrArg Function.result isLast).symm.trans result)

/-- A thunk is declared and then filled. -/
theorem addThunk_apply {name : String} {type : TypeId} {thunk : FunctionId}
    {later : EmitState} {surroundings : Environment}
    (declares : (liftM (Module.addFunction name type .unlisted) :
      Emission FunctionId) surroundings state = (thunk, later))
    (environment : GlobalId) (target : FunctionId)
    (signature : TypeTable.Signature) :
    (addThunk name type environment target signature surroundings state).2 =
      ((do
        nameParameters thunk signature.parameters.length
        elsewhere (emitThunk thunk environment target signature) :
        Emission Unit) surroundings later).2 := by
  have gives (last : EmitState) :
      (pure thunk : Emission FunctionId) surroundings last = (thunk, last) :=
    rfl
  rw [addThunk, reader_bind_apply, declares]
  simp only [reader_bind_apply, gives]

/-- A function that is there is not added again. -/
theorem addFunction_of_found {name : String} {id : FunctionId}
    (found : state.builder.module.function? name = some id) (type : TypeId)
    (linkage : Linkage) (environment : Environment) :
    (liftM (Module.addFunction name type linkage) :
      Emission FunctionId) environment state = (id, state) := by
  have finds : Module.addFunction name type linkage state.builder.module =
      (id, state.builder.module) := by
    unfold Module.addFunction
    rw [stateM_get_bind, found]
    rfl
  have run : (liftM (Module.addFunction name type linkage) :
      Emission FunctionId) environment state =
      ((Module.addFunction name type linkage state.builder.module).1,
        { state with
          builder := { state.builder with
            module := (Module.addFunction name type linkage
              state.builder.module).2 } }) := rfl
  rw [run, finds]

/-- The thunk of a closure returns its result, if it is new. -/
theorem fulfils_addThunk (ready : state.Ready scene) {name : String}
    (named : IsThunkName name) {type : TypeId}
    {signature : TypeTable.Signature}
    (found : state.table.signature? type = some signature)
    {target : FunctionId}
    (promises : state.Promises target signature.result)
    (environment : GlobalId) :
    ∃ result, (addThunk name type environment target signature
      scene.environment state).2.Fulfils
        state.builder.module.functions.length result := by
  cases taken : state.builder.module.function? name with
  | some id =>
      -- the thunk is emitted into a function that was there
      have declares := addFunction_of_found taken type .unlisted
        scene.environment
      have same := sameNames_thunk id environment target signature
        scene.environment state
      rw [addThunk_apply declares]
      exact ⟨.void, .of_length_le (Nat.le_of_eq same.length_eq)⟩
  | none =>
      obtain ⟨laterReady, quiet, inside, isNamed, fulfils⟩ :=
        fulfils_addFunction ready taken found .unlisted
      have has := (ready.builder.sound.types.signature found).1
      have filled := fulfils_newThunk laterReady inside
        (isNamed.symm ▸ named) (has.mono quiet.grows)
        (promises.of_quiet ready quiet) fulfils environment
      rw [addThunk_apply (Prod.eta _).symm]
      exact ⟨_, filled.good⟩

/-! ## Closures -/

/-- The functions that a handler adds return their results. -/
def AddsFulfilled (count : Nat) (environment : Environment)
    (state : EmitState) (handler : Handler Result) : Prop :=
  (handler.run environment state).2.builder.module.Fulfils count

namespace AddsFulfilled

variable {handler : Handler Result} {next : Result → Handler Other}

theorem parse {Part : Type} {part : Except ProblemCause Part}
    {next : Part → Handler Result} {environment : Environment}
    (few : state.builder.module.functions.length = count)
    (rest : ∀ item, part = .ok item →
      AddsFulfilled count environment state (next item)) :
    AddsFulfilled count environment state
      ((liftM part : Handler Part) >>= next) := by
  cases part with
  | error cause =>
      exact (EmitState.Fulfils.of_length_le few.le :
        state.Fulfils count .void).fulfils
  | ok item => exact rest item rfl

theorem look {look : Emission Result} {seen : Result}
    {environment : Environment}
    (looks : look environment state = (seen, state))
    (rest : AddsFulfilled count environment state (next seen)) :
    AddsFulfilled count environment state
      ((liftM look : Handler Result) >>= next) := by
  have run : ((liftM look : Handler Result) >>= next).run environment state =
      (next (look environment state).1).run environment
        (look environment state).2 := rfl
  rw [AddsFulfilled, run, looks]
  exact rest

/-- A handler that adds no functions comes first. -/
theorem step {gives : TypeTable → Result → Prop}
    {good : EmitState → Result → Prop}
    (few : state.builder.module.functions.length = count)
    (ready : state.Ready scene)
    (handles : Handles scene (fun _ => True) handler gives)
    (ends : Ends scene.environment state handler good)
    (adds : Tries (AddsOnly (fun _ => False) False) [] handler)
    (rest : ∀ result later,
      later.builder.module.functions.length = count → later.Ready scene →
      state.Quiet later → good later result →
        AddsFulfilled count scene.environment later (next result)) :
    AddsFulfilled count scene.environment state (handler >>= next) := by
  have handled := handles state ready trivial
  have same := (adds scene.environment state).module.names.resolve_left id
  have laterFew : (handler.run scene.environment
      state).2.builder.module.functions.length = count :=
    same.length_eq.trans few
  rw [AddsFulfilled]
  cases outcome : (handler.run scene.environment state).1 with
  | error cause =>
      rw [run_bind_of_error outcome]
      exact (EmitState.Fulfils.of_length_le laterFew.le :
        EmitState.Fulfils count .void _).fulfils
  | ok result =>
      rw [run_bind_of_ok outcome]
      exact rest result _ laterFew handled.holds handled.follows
        (ends result outcome)

/-- An emission comes first. -/
theorem quietly {emission : Emission Result}
    {good : EmitState → Result → Prop}
    (preserves : Preserves (EmitState.Ready scene) EmitState.Quiet state
      (emission scene.environment) good)
    (rest : ∀ result later, later.Ready scene → state.Quiet later →
      good later result →
        AddsFulfilled count scene.environment later (next result)) :
    AddsFulfilled count scene.environment state
      ((liftM emission : Handler Result) >>= next) :=
  rest _ _ preserves.holds preserves.follows preserves.good

end AddsFulfilled

/-- An emission that adds no functions. -/
theorem preserves_few {emission : Emission Result}
    {good : EmitState → Result → Prop}
    (preserves : Preserves (EmitState.Ready scene) EmitState.Quiet state
      (emission scene.environment) good)
    (adds : Does (AddsOnly (fun _ => False) False) [] emission) :
    Preserves (EmitState.Ready scene) EmitState.Quiet state
      (emission scene.environment) fun later result => good later result ∧
        later.builder.module.functions.length =
          state.builder.module.functions.length := by
  have same := (adds scene.environment state).module.names.resolve_left id
  exact ⟨preserves.holds, preserves.follows, preserves.good, same.length_eq⟩

/-- What is emitted for a closure whose target was checked. -/
theorem fulfils_closureThunk (ready : state.Ready scene) (number : Nat)
    (name : String) {captured : Value} (typed : captured.Typed state.table)
    {type pointerType : TypeId} (has : state.table.Has pointerType)
    {signature : TypeTable.Signature}
    (found : state.table.signature? type = some signature)
    {target : FunctionId}
    (promises : state.Promises target signature.result)
    (destination : String) :
    AddsFulfilled state.builder.module.functions.length scene.environment
      state (do
        let environment ← addEnvironment number captured.type
        Builder.store captured (← Builder.globalAddress environment)
        let thunk ← addThunk s!"__edn.closure.thunk.{name}.{number}" type
          environment target signature
        let value ← Builder.functionAddress thunk
        define destination value pointerType) := by
  have environments := emits_addEnvironment number captured.type state ready
    typed.has
  have keeps : Preserves (EmitState.Ready scene) EmitState.Quiet state
      (addEnvironment number captured.type scene.environment)
      fun later _ => later.builder.module.functions.length =
        state.builder.module.functions.length :=
    ⟨environments.holds, environments.follows,
      congrArg List.length (Module.functions_addGlobal _ _ _ _ _ _)⟩
  refine .quietly keeps fun environment first firstReady firstQuiet few => ?_
  refine .quietly (preserves_few (preserves_onBuilder firstReady
    (Builder.builds_globalAddress firstReady.builder environment))
    (adds_onBuilder (Builder.adds_globalAddress environment)))
    fun slot second secondReady secondQuiet both => ?_
  refine .quietly (preserves_few (preserves_onBuilder secondReady
    (Builder.builds_store secondReady.builder captured slot))
    (adds_onBuilder (Builder.adds_store captured slot)))
    fun _ third thirdReady thirdQuiet stores => ?_
  have quiet := (firstQuiet.trans secondQuiet).trans thirdQuiet
  have thirdFound := ((TypeTable.has_of_signature found).signature_eq
    quiet.grows).trans found
  have thunks := emits_addThunk (isThunkName_closure name number) type
    environment target signature third thirdReady thirdFound
  obtain ⟨result, fulfils⟩ := fulfils_addThunk thirdReady
    (isThunkName_closure name number) thirdFound
    (promises.of_quiet ready quiet) environment
  rw [stores.2, both.2, few] at fulfils
  have finishes : Preserves (EmitState.Ready scene) EmitState.Quiet third
      (addThunk s!"__edn.closure.thunk.{name}.{number}" type environment
        target signature scene.environment)
      fun later _ => later.Fulfils state.builder.module.functions.length
        result :=
    ⟨thunks.holds, thunks.follows, fulfils⟩
  refine .quietly finishes fun thunk last lastReady lastQuiet fulfilled => ?_
  have address := preserves_onBuilder lastReady
    (Builder.builds_functionAddress lastReady.builder thunk)
  have addresses : Preserves (EmitState.Ready scene) EmitState.Quiet last
      ((liftM (Builder.functionAddress thunk) : Emission Value)
        scene.environment)
      fun later value => value.Typed later.table ∧
        later.Fulfils state.builder.module.functions.length result :=
    ⟨address.holds, address.follows, address.good.1,
      fulfilled.step lastReady address.holds address.follows
        (adds_onBuilder (Builder.adds_functionAddress thunk)
          scene.environment last)⟩
  refine .quietly addresses fun value final finalReady finalQuiet gives => ?_
  have grows := ((quiet.trans lastQuiet).trans finalQuiet).grows
  have defines := handles_define destination value pointerType final
    finalReady ⟨gives.1, has.mono grows⟩
  exact (gives.2.step finalReady defines.holds defines.follows
    (adds_define destination value pointerType scene.environment
      final)).fulfils

/-- A target that can back a closure gives the result of the closure. -/
theorem promises_of_canBack {table : TypeTable}
    (grows : table.Grows state.table) {captured : TypeId} {name : String}
    {target : FunctionId}
    (found : state.builder.module.function? name = some target)
    {signature : TypeTable.Signature} {shape : String}
    (backs : canBack signature (table.signature?
      (state.builder.module.function target).type) captured shape =
        .ok true) :
    state.Promises target signature.result := by
  obtain ⟨backing, backingFound, same, -⟩ := canBack_eq_true backs
  exact ⟨Module.lt_of_function? found, backing,
    ((TypeTable.has_of_signature backingFound).signature_eq grows).trans
      backingFound, same⟩

/-- The thunk of a closure returns its result. -/
theorem fulfils_emitClosure (ready : state.Ready scene) (items : List Form) :
    AddsFulfilled state.builder.module.functions.length scene.environment
      state (emitClosure items) := by
  unfold emitClosure
  refine .parse rfl fun _ _ => .parse rfl fun destination _ =>
    .parse rfl fun typeForm _ => ?_
  have types : Handles scene (fun _ => True) (typeOf typeForm) _ :=
    handles_typeOf typeForm
  refine .step rfl ready types (types.ends ready trivial)
    (adds_typeOf typeForm) fun pointerType typed few typedReady _ has => ?_
  refine .parse few fun name _ => ?_
  have captures : Handles scene (fun _ => True) (capturedValue items 4 _) _ :=
    handles_capturedValue items 4 "(closure %d FnPtrT callee [%env])"
  refine .step few typedReady captures (captures.ends typedReady trivial)
    (adds_capturedValue items 4 _)
    fun captured middle middleFew middleReady middleQuiet holds => ?_
  refine .look rfl ?_
  dsimp only
  split
  · have rejects : Tries (AddsOnly (fun _ => False) False) []
        (rejectType "closure of type" pointerType : Handler Unit) :=
      .step (.lift (adds_spelling pointerType)) fun _ => .throw _
    have same := (rejects scene.environment middle).module.names.resolve_left
      id
    exact (EmitState.Fulfils.of_length_le
      (Nat.le_of_eq (same.length_eq.trans middleFew)) :
        EmitState.Fulfils _ .void _).fulfils
  next type signature closureFound =>
  obtain ⟨_, pointee, closureFound⟩ := Option.bind_eq_some_iff.mp closureFound
  obtain ⟨_, signatureFound, ⟨⟩⟩ := Option.map_eq_some_iff.mp closureFound
  have targeting : Handles scene (fun _ => True) (closureTarget name) _ :=
    handles_closureTarget name
  refine .step middleFew middleReady targeting
    (ends_closureTarget name scene.environment) (adds_closureTarget name)
    fun target last lastFew lastReady quiet found => ?_
  refine .look rfl (.parse lastFew fun backs read => ?_)
  split
  · exact (EmitState.Fulfils.of_length_le lastFew.le :
      EmitState.Fulfils _ .void last).fulfils
  next isBacked =>
  rw [Bool.not_eq_true, Bool.not_eq_false'] at isBacked
  have promises := promises_of_canBack quiet.grows found (isBacked ▸ read)
  refine .look rfl ?_
  let counting : Emission Unit :=
    modify fun state => { state with closureCount := last.closureCount + 1 }
  have counts : Emits scene (fun _ => True) counting _ :=
    emits_modify fun other => ⟨other.literals, last.closureCount + 1,
      other.problems, other.span, rfl⟩
  have counted : Preserves (EmitState.Ready scene) EmitState.Quiet last
      (counting scene.environment)
      fun later _ => later.builder = last.builder :=
    ⟨(counts last lastReady trivial).holds,
      (counts last lastReady trivial).follows, rfl⟩
  refine .quietly counted fun _ later laterReady laterQuiet same => ?_
  have grows := (quiet.trans laterQuiet).grows
  rw [← lastFew, ← same]
  exact fulfils_closureThunk laterReady last.closureCount name
    (holds.mono middleReady.builder.sound.types grows)
    (has.mono (middleQuiet.grows.trans grows))
    (((TypeTable.has_of_signature signatureFound).signature_eq grows).trans
      signatureFound)
    (promises.of_quiet lastReady laterQuiet) destination

/-! ## Emitted modules -/

/-- Returns are the ends of blocks. -/
theorem Ir.Block.Straight.terminator?_eq {block : Block}
    (straight : block.Straight) {instruction : Instruction}
    (member : instruction ∈ block.instructions)
    (ends : instruction.operation.isTerminator = true) :
    block.terminator? = some instruction.operation := by
  rcases straight.cases with ⟨-, none⟩ | ⟨body, last, split, -, found, others⟩
  · rw [none instruction member] at ends
    cases ends
  · rw [split, List.mem_append, List.mem_singleton] at member
    rcases member with early | rfl
    · rw [others instruction early] at ends
      cases ends
    · exact found

theorem Ir.Function.Sound.gives {id : FunctionId} {function : Function}
    (sound : function.Sound id) (ordinary : ¬IsThunkName function.name)
    {index : Nat} {value : Option Operand}
    (performs : function.Performs index (.ret value)) :
    function.result.Gives value := by
  obtain ⟨block, found, instruction, member, same⟩ := performs
  have inside := List.mem_of_getElem? found
  have ends := (sound.straight block inside).terminator?_eq member
    (by rw [same]; rfl)
  rw [same] at ends
  exact (sound.returns block inside value ends).resolve_left ordinary

/-- A function of an emitted module has the result type that it is declared
with.  It returns nothing only where that is no type at all, and if the type is
first-class, every value that it returns has that type.  The same is true of
the thunk that a closure adds, wherever the closure stands. -/
theorem emitted_returns (configuration : Configuration) (form : Form) :
    ((emitted configuration form).error = none →
      let module := (emitted configuration form).state.module
      ∀ (id : FunctionId) (function : Function),
        module.functions[id]? = some function →
        (∃ signature,
          module.types.signature? function.type = some signature ∧
          function.result =
            lowered module.types boundaryLevels signature.result) ∧
        (¬IsThunkName function.name → ∀ index value,
          function.Performs index (.ret value) →
            function.result.Gives value)) ∧
    ∀ scene state, EmitState.Ready scene state → ∀ items,
      let module := ((emitClosure items).run scene.environment
        state).2.builder.module
      ∀ id, state.builder.module.functions.length ≤ id →
        ∀ index value, (module.function id).Performs index (.ret value) →
          (module.function id).result.Gives value := by
  constructor
  · intro done module id function found
    have sound := (whole_emitted done).sound
    have same : module.function id = function := by
      rw [Module.function, found, Option.getD_some]
    have inside := (List.getElem?_eq_some_iff.mp found).1
    obtain ⟨signature, signed⟩ :=
      Option.isSome_iff_exists.mp (sound.functions id inside).1
    have result := sound.results id inside signature signed
    have body := sound.bodies id
    rw [same] at signed result body
    exact ⟨⟨signature, signed, result⟩, fun ordinary index value performs =>
      body.gives ordinary performs⟩
  · intro scene state ready items
    exact fulfils_emitClosure ready items

/-- A module with a function that returns a word. -/
def wordReturn : Form :=
  Form.list [Form.symbol "module",
    Form.keywordCall "fn" [("name", Form.symbol "f"),
      ("ret", Form.symbol "i32"),
      ("body", Form.vector [Form.list [Form.symbol "ret", Form.symbol "i32",
        .atom .empty (.int 7)]])]]

/-- The state after a word is named at the start of a body. -/
def afterWord : EmitState :=
  ((emitConstant [Form.symbol "const", Form.symbol "%x", Form.symbol "i32",
    .atom .empty (.int 5)]).run wordScene.environment
    (.opening wordModule 0)).2

/-- A closure over that word. -/
def wordClosure : List Form :=
  [Form.symbol "closure", Form.symbol "%c",
    Form.list [Form.symbol "ptr",
      Form.keywordCall "fn-type" [("ret", Form.symbol "i32")]],
    Form.symbol "f", Form.vector [Form.symbol "%x"]]

/-- What an instruction of a function returns, if it returns a value. -/
def Ir.Function.returned? (function : Function) (block instruction : Nat) :
    Option Operand := do
  let block ← function.blocks[block]?
  let instruction ← block.instructions[instruction]?
  match instruction.operation with
  | .ret value => value
  | _ => none

theorem Ir.Function.performs_of_returned? {function : Function}
    {block instruction : Nat}
    (returns : (function.returned? block instruction).isSome = true) :
    ∃ value, function.Performs block (.ret (some value)) := by
  obtain ⟨value, found⟩ := Option.isSome_iff_exists.mp returns
  obtain ⟨inner, blockFound, rest⟩ := Option.bind_eq_some_iff.mp found
  obtain ⟨last, lastFound, same⟩ := Option.bind_eq_some_iff.mp rest
  refine ⟨value, inner, blockFound, last, List.mem_of_getElem? lastFound, ?_⟩
  split at same
  · next operand operation =>
      rw [operation]
      exact congrArg _ same
  · cases same

theorem emitted_returns_wordReturn :
    (∃ function value,
      (emitted {} wordReturn).state.module.functions[0]? = some function ∧
      function.Performs 0 (.ret (some value)) ∧
      function.result.Gives (some value)) ∧
    ∃ value,
      let module := ((emitClosure wordClosure).run wordScene.environment
        afterWord).2.builder.module
      (module.function 1).Performs 0 (.ret (some value)) ∧
        (module.function 1).result.Gives (some value) := by
  constructor
  · have checked : (emitted {} wordReturn).state.module.functions[0]?.any
        (fun function => function.name = "f" &&
          (function.returned? 0 0).isSome) = true := by decide +kernel
    obtain ⟨function, found, both⟩ := (Option.any_eq_true _ _).mp checked
    rw [Bool.and_eq_true, decide_eq_true_eq] at both
    obtain ⟨value, performs⟩ := Function.performs_of_returned? both.2
    have ordinary : ¬IsThunkName function.name := by
      rw [both.1]
      unfold IsThunkName
      decide
    exact ⟨function, value, found, performs,
      ((emitted_returns {} wordReturn).1 (by decide +kernel) 0 function
        found).2 ordinary 0 _ performs⟩
  · have opening : (EmitState.opening wordModule 0).Ready wordScene :=
      EmitState.ready_opening sound_wordModule
        (by decide +kernel : 0 < wordModule.functions.length)
        (by decide +kernel) {} "f"
    have ready : afterWord.Ready wordScene :=
      (isQuiet_emitConstant _ wordScene _ opening trivial).holds
    have checked : ((((emitClosure wordClosure).run wordScene.environment
        afterWord).2.builder.module.function 1).returned? 0 2).isSome =
        true := by decide +kernel
    have few : afterWord.builder.module.functions.length ≤ 1 := by
      decide +kernel
    obtain ⟨value, performs⟩ := Function.performs_of_returned? checked
    exact ⟨value, performs, (emitted_returns {} wordReturn).2 wordScene
      afterWord ready wordClosure 1 few 0 _ performs⟩

/-- A module with a function without a result that returns a number. -/
def voidReturn : Form :=
  Form.list [Form.symbol "module",
    Form.keywordCall "fn" [("name", Form.symbol "f"),
      ("ret", Form.symbol "void"),
      ("body", Form.vector [Form.list [Form.symbol "ret",
        Form.symbol "void", .atom .empty (.int 0)]])]]

/-- A literal for no type at all is returned as an undefined byte. -/
theorem voidReturn_returns_byte :
    let emitted := emitted {} voidReturn
    emitted.error = none ∧ emitted.state.problems.isEmpty = true ∧
      ((emitted.state.module.function 0).result == .void) = true ∧
      ((emitted.state.module.function 0).returned? 0 0).isSome = true ∧
      emitted.state.module.lines =
        ["; ModuleID = 'edn'", "", "define void @f() \x7b", "entry:",
          "  ret i8 undef", "\x7d"] := by
  intro emitted
  refine ⟨?_, ?_, ?_, ?_, ?_⟩ <;> decide +kernel

end FormCompiler
