import FormCompiler.Emit.ModuleForm
import FormCompiler.Proofs.Bodies

/-!
# Emitted modules

What holds of one function holds of the whole module.  A module without
declarations is complete, declarations and types keep it so, and every body
that is emitted leaves it complete again.  Once the module is emitted, each
block of each function ends with its only terminator, all targets are blocks
of the same function, and the phi that a match with a result ends with has one
edge for each block that leads there.
-/

namespace FormCompiler

open Ir

variable {module later : Module} {state : ModuleState}

/-! ## Declared functions -/

theorem Ir.Module.isSome_function? (module : Module) (name : String) :
    (module.function? name).isSome = true ↔
      ∃ id < module.functions.length, (module.function id).name = name := by
  rw [Module.function?, List.findIdx?_isSome, List.any_eq_true]
  constructor
  · rintro ⟨function, member, same⟩
    obtain ⟨id, inside, rfl⟩ := List.mem_iff_getElem.mp member
    refine ⟨id, inside, ?_⟩
    rw [Module.function, List.getElem?_eq_getElem inside]
    exact of_decide_eq_true same
  · rintro ⟨id, inside, same⟩
    rw [Module.function, List.getElem?_eq_getElem inside] at same
    exact ⟨_, List.getElem_mem inside, decide_eq_true same⟩

theorem Ir.Module.name_of_function? {module : Module} {name : String}
    {id : FunctionId} (found : module.function? name = some id) :
    (module.function id).name = name := by
  obtain ⟨inside, same, -⟩ := List.findIdx?_eq_some_iff_getElem.mp found
  rw [Module.function, List.getElem?_eq_getElem inside, Option.getD_some]
  exact of_decide_eq_true same

theorem Ir.Module.Extends.isSome_function? {name : String}
    (extends_ : module.Extends later)
    (declared : (module.function? name).isSome = true) :
    (later.function? name).isSome = true := by
  rw [Module.isSome_function?] at declared ⊢
  obtain ⟨id, inside, same⟩ := declared
  exact ⟨id, Nat.lt_of_lt_of_le inside extends_.count,
    (extends_.functions id inside).1.trans same⟩

/-- A function is declared under its name. -/
theorem Ir.Module.isSome_function?_addFunction (module : Module)
    (name : String) (type : TypeId) (linkage : Linkage) :
    ((addFunction name type linkage module).2.function? name).isSome =
      true := by
  cases found : module.function? name with
  | some id =>
      rw [Module.addFunction_of_found found, found]
      rfl
  | none =>
      have last : ∃ (before : List Function) (added : Function),
          added.name = name ∧
          (addFunction name type linkage module).2.functions =
            before ++ [added] := by
        unfold addFunction
        rw [stateM_get_bind, found]
        exact ⟨_, _, rfl, rfl⟩
      obtain ⟨before, added, same, functions⟩ := last
      rw [Module.function?, List.findIdx?_isSome, functions]
      simp [same]

/-- The function of a header is declared, and its types are in the table. -/
structure FunctionHeader.Declared (module : Module)
    (header : FunctionHeader) : Prop where
  declared : (module.function? header.name).isSome = true
  type : module.types.Has header.type
  parameters : ∀ parameter ∈ header.parameters, module.types.Has parameter.2

theorem FunctionHeader.Declared.mono {header : FunctionHeader}
    (declared : header.Declared module) (extends_ : module.Extends later) :
    header.Declared later :=
  ⟨extends_.isSome_function? declared.declared,
    declared.type.mono extends_.types, fun parameter member =>
      (declared.parameters parameter member).mono extends_.types⟩

/-! ## Complete modules -/

namespace ModuleState

/-- Everything that was emitted so far is complete, and what is still to be
emitted is declared. -/
structure Whole (state : ModuleState) : Prop where
  sound : state.module.Sound
  finished : state.module.Finished
  layouts : state.layouts.Known state.module.types
  headers : ∀ header ∈ state.headers, header.Declared state.module
  matchEnds : ∀ join ∈ state.matchEnds,
    (state.module.block? join.1).isSome = true ∧ join.1.index ≠ 0 ∧
    state.module.types.Has join.2 ∧ Joined state.module [] join.1 join.2

def Extends (state later : ModuleState) : Prop :=
  state.module.Extends later.module

instance : Std.Refl Extends := ⟨fun state => Module.Extends.refl state.module⟩

instance : Trans Extends Extends Extends :=
  ⟨fun first second => Module.Extends.trans first second⟩

/-- An operation leaves a complete module complete. -/
abbrev Keeps {Result : Type} (state : ModuleState)
    (operation : ModuleEmission Result)
    (good : ModuleState → Result → Prop) : Prop :=
  Preserves Whole Extends state operation good

/-- Operations that leave bodies alone. -/
theorem Whole.still (whole : state.Whole) (sound : later.Sound)
    (still : state.module.Still later) :
    ({ state with module := later } : ModuleState).Whole := by
  have quiet := still.quiet
  refine ⟨sound, whole.finished.of_steady quiet.steady,
    whole.layouts.mono still.types,
    fun header member =>
      (whole.headers header member).mono still.toExtends, ?_⟩
  intro join member
  obtain ⟨known, notFirst, has, joined⟩ := whole.matchEnds join member
  exact ⟨quiet.steady.known known, notFirst, has.mono still.types,
    joined.mono quiet.develops whole.sound.types has notFirst
      fun _ => quiet.leads⟩

theorem Whole.addProblem (whole : state.Whole) (operation : String)
    (span : Option Span) (cause : ProblemCause) :
    (state.addProblem operation span cause).Whole :=
  ⟨whole.sound, whole.finished, whole.layouts, whole.headers,
    whole.matchEnds⟩

theorem keeps_addProblem (whole : state.Whole) (operation : String)
    (span : Option Span) (cause : ProblemCause) :
    state.Keeps (modify (·.addProblem operation span cause))
      fun _ _ => True :=
  Preserves.modify (whole.addProblem operation span cause)
    (Module.Extends.refl _) trivial

theorem keeps_onModule {Result : Type} (whole : state.Whole)
    {operation : StateM Module Result} {good : Module → Result → Prop}
    (runs : state.module.Runs operation good) :
    state.Keeps (onModule operation) fun later result =>
      good later.module result :=
  ⟨whole.still runs.holds runs.follows, runs.follows.toExtends, runs.good⟩

theorem keeps_reading {Result : Type} (whole : state.Whole)
    (operation : String) (span : Option Span) {reader : TypeReader Result}
    {good : TypeTable → Result → Prop}
    (reads : Reads state.module.types reader good) :
    state.Keeps (reading operation span reader) fun later result =>
      ∀ found, result = some found → good later.module.types found := by
  unfold reading
  apply (keeps_onModule whole
    (Module.runs_withTypes whole.sound reads)).bind
  intro later outcome whole _ found
  cases outcome with
  | ok result =>
      refine Preserves.pure whole ?_
      rintro _ ⟨⟩
      exact found result rfl
  | error cause =>
      apply (keeps_addProblem whole operation span cause).bind
      intro last _ whole _ _
      exact Preserves.pure whole nofun

end ModuleState

open ModuleState

/-! ## Declarations -/

theorem keeps_declareGlobal (whole : state.Whole) (form : Form) :
    state.Keeps (declareGlobal form) fun _ _ => True := by
  unfold declareGlobal
  dsimp only
  split
  · apply (keeps_reading whole _ _ (reads_type whole.sound.types _)).bind
    intro later type whole _ found
    cases type with
    | none => exact Preserves.pure whole trivial
    | some type =>
        apply Preserves.get_bind
        apply (keeps_onModule whole (Module.runs_addGlobal whole.sound _
          (found type rfl) _ _ _)).bind
        intro last _ whole _ _
        exact Preserves.pure whole trivial
  · exact keeps_addProblem whole _ _ _

variable {table : TypeTable}

theorem reads_parameter (closed : table.Closed) (index : Nat) (form : Form) :
    Reads table (readParameter index form) fun later parameter =>
      later.Has parameter.2 := by
  unfold readParameter
  split
  · have fails : Reads table
        (throw (.malformed functionShape) : TypeReader PUnit)
        fun _ _ => False := Attempts.throw closed _
    exact fails.bind fun _ _ _ _ absurd => absurd.elim
  · apply (reads_shaped closed _ _).bind
    intro later typeForm closed _ _
    apply (reads_type closed typeForm).bind
    intro last type closed _ has
    exact Attempts.pure closed has

theorem reads_parameters (closed : table.Closed) (index : Nat)
    (forms : List Form) :
    Reads table (readParameters index forms) fun later parameters =>
      ∀ parameter ∈ parameters, later.Has parameter.2 := by
  induction forms generalizing table index with
  | nil => exact Attempts.pure closed nofun
  | cons form forms ih =>
      unfold readParameters
      apply (reads_parameter closed index form).bind
      intro later parameter closed _ has
      apply (ih closed (index + 1)).bind
      intro last parameters closed grows rest
      exact Attempts.pure closed
        (List.forall_mem_cons.mpr ⟨has.mono grows, rest⟩)

/-- A header has a function type and parameters with types of the table. -/
theorem reads_header (closed : table.Closed) (form : Form) :
    Reads table (readHeader form) fun later header =>
      (∃ signature, later.signature? header.type = some signature ∧
        signature.parameters = header.parameters.map Prod.snd) ∧
      ∀ parameter ∈ header.parameters, later.Has parameter.2 := by
  have rest (table : TypeTable) (closed : table.Closed) (result : TypeId)
      (has : table.Has result) (name : String)
      (forms : List Form) (variadic : Bool) (body : Option (List Form)) :
      Reads table (do
        let parameters ← readParameters 0 forms
        let type ←
          TypeTable.function result (parameters.map Prod.snd) variadic
        pure (⟨name, type, parameters, body⟩ : FunctionHeader))
        fun later header =>
          (∃ signature, later.signature? header.type = some signature ∧
            signature.parameters = header.parameters.map Prod.snd) ∧
          ∀ parameter ∈ header.parameters, later.Has parameter.2 := by
    apply (reads_parameters closed 0 _).bind
    intro later parameters closed grows parametersHave
    have types : ∀ type ∈ parameters.map Prod.snd, later.Has type := by
      simpa using fun type name member => parametersHave (name, type) member
    apply (Attempts.lift (TypeTable.yields_function closed
      (has.mono grows) types _)).bind
    rintro last type closed grows ⟨-, kind⟩
    refine Attempts.pure closed ⟨?_, fun parameter member =>
      (parametersHave parameter member).mono grows⟩
    exact ⟨_, by rw [TypeTable.signature?, kind], rfl⟩
  unfold readHeader
  apply (reads_shaped closed _ _).bind
  intro table name closed _ _
  dsimp only
  generalize (if (KeywordArguments.ofForm form).flag "external" then none
    else (KeywordArguments.ofForm form).vector? "body") = body
  split
  · apply (reads_type closed _).bind
    intro later result closed _ has
    exact rest later closed result has name _ _ body
  · apply (Attempts.lift (TypeTable.yields_atomic closed rfl)).bind
    intro later result closed _ found
    exact rest later closed result found.1 name _ _ body

theorem keeps_declareHeader (whole : state.Whole) (form : Form) :
    state.Keeps (declareHeader form) fun _ _ => True := by
  unfold declareHeader
  apply (keeps_reading whole _ _ (reads_header whole.sound.types form)).bind
  intro later header whole _ found
  cases header with
  | none => exact Preserves.pure whole trivial
  | some header =>
      obtain ⟨⟨signature, signatureFound, -⟩, parameters⟩ := found header rfl
      have runs := Module.runs_addFunction whole.sound header.name
        signatureFound .external
      have added := keeps_onModule whole runs
      have declared : header.Declared (onModule (Module.addFunction
          header.name header.type .external) later).2.module :=
        ⟨Module.isSome_function?_addFunction _ _ _ _,
          (TypeTable.has_of_signature signatureFound).mono
            runs.follows.types, fun parameter member =>
            (parameters parameter member).mono runs.follows.types⟩
      refine ⟨?_, added.follows, trivial⟩
      refine ⟨added.holds.sound, added.holds.finished, added.holds.layouts,
        ?_, added.holds.matchEnds⟩
      intro other member
      rcases List.mem_append.mp member with old | new
      · exact added.holds.headers other old
      · rw [List.mem_singleton.mp new]
        exact declared

theorem keeps_declare (whole : state.Whole) (form : Form) :
    state.Keeps (declare form) fun _ _ => True := by
  unfold declare
  split
  · exact keeps_declareGlobal whole form
  · exact keeps_declareHeader whole form
  · split
    · exact Preserves.pure whole trivial
    · exact keeps_addProblem whole _ _ _

/-- The module once forms are declared. -/
def ModuleState.declaring (forms : List Form) (state : ModuleState) :
    ModuleState :=
  forms.foldl (fun state form => (declare form state).2) state

theorem ModuleState.Whole.declaring (whole : state.Whole)
    (forms : List Form) : (state.declaring forms).Whole := by
  induction forms generalizing state with
  | nil => exact whole
  | cons form forms ih => exact ih (keeps_declare whole form).holds

/-- Aggregates are laid out before any struct has a body. -/
theorem keeps_layOutModule (whole : state.Whole)
    (fresh : state.module.types.bodies = []) (forms : List Form) :
    state.Keeps (layOutModule forms) fun _ _ => True := by
  have known := layOut_known whole.sound.types forms
  have grows : state.module.types.Grows
      (layOut forms state.module.types).table := by
    refine ⟨known.holds, fun type fields found => ?_⟩
    rw [fresh] at found
    cases found
  have runs : state.module.Runs (Module.withTypes fun table =>
      ((), (layOut forms table).table)) fun _ _ => True :=
    (Module.runs_withTypes whole.sound
      (⟨known.closed, grows, trivial⟩ : TypeTable.Yields
        state.module.types _ fun _ _ => True)).forget
  have still := whole.still runs.holds runs.follows
  exact ⟨⟨still.sound, still.finished, known.layouts, still.headers,
    still.matchEnds⟩, runs.follows.toExtends, trivial⟩

/-! ## Functions -/

/-- A body may be emitted into a complete module. -/
theorem ModuleState.Whole.starts (whole : state.Whole)
    (environment : Environment) (same : environment.layouts = state.layouts)
    {function : FunctionId} (names : List String)
    (declared : function < state.module.functions.length) :
    Starts ⟨environment, function⟩ state.module
      { builder := { module := state.module, function }
        context := FunctionContext.ofMutableNames names
        literals := state.literals
        closureCount := state.closureCount
        matchEnds := state.matchEnds
        problems := state.problems } := by
  have inhabited : 0 < state.module.types.kinds.length := by
    obtain ⟨signature, found⟩ :=
      Option.isSome_iff_exists.mp (whole.sound.functions function declared).1
    exact Nat.lt_of_le_of_lt (Nat.zero_le _)
      (TypeTable.has_of_signature found)
  refine ⟨Module.Extends.refl _, Module.WorksIn.refl _ _,
    ⟨.ofMutableNames _ _, ?_, nofun, .nil, nofun, ?_, ?_⟩, whole.sound, whole.finished, inhabited, rfl, declared, rfl⟩
  · rw [same]
    exact whole.layouts
  · rintro block (⟨_, ⟨⟩, _⟩ | ⟨⟨⟩⟩ | ⟨⟨⟩⟩ | ⟨⟨⟩⟩)
  · intro join member
    obtain ⟨known, notFirst, has, joined⟩ := whole.matchEnds join member
    refine ⟨known, notFirst, has, ?_, .inl joined⟩
    rintro (⟨_, ⟨⟩, _⟩ | ⟨⟨⟩⟩ | ⟨⟨⟩⟩ | ⟨⟨⟩⟩)

/-- An error ends what is emitted. -/
theorem run_handler_bind {Result Other : Type} (first : ModuleHandler Result)
    (next : Result → ModuleHandler Other) (state : ModuleState) :
    (first >>= next).run state =
      match first.run state with
      | (.ok result, later) => (next result).run later
      | (.error error, later) => (.error error, later) := by
  have apply_bind : ∀ next : Except EmitError Result →
      ModuleEmission (Except EmitError Other), (first.run >>= next) state =
        next (first.run state).1 (first.run state).2 := fun _ => rfl
  rw [ExceptT.run_bind, apply_bind]
  obtain ⟨result, later⟩ := first.run state
  cases result <;> rfl

theorem run_liftExcept (result : Except EmitError Unit)
    (state : ModuleState) :
    (emitFunction.liftExcept result).run state = (result, state) := by
  cases result <;> rfl

/-- The state that the body of a function is emitted from. -/
def ModuleState.entering (state : ModuleState) (function : FunctionId)
    (header : FunctionHeader) (body : List Form) : EmitState :=
  { builder := { module := state.module, function }
    context := FunctionContext.ofMutableNames
      (mutableNames (header.parameters.map Prod.fst) body)
    literals := state.literals
    closureCount := state.closureCount
    matchEnds := state.matchEnds
    problems := state.problems }

/-- The environment of a function. -/
def ModuleState.around (state : ModuleState) (configuration : Configuration)
    (function : FunctionId) : Environment :=
  { configuration
    layouts := state.layouts
    functionName := (state.module.function function).name }

/-- The module once a body is emitted. -/
def ModuleState.leaving (state : ModuleState) (final : EmitState) :
    ModuleState :=
  { state with
    module := final.builder.module
    literals := final.literals
    closureCount := final.closureCount
    matchEnds := final.matchEnds
    problems := final.problems }

theorem run_emitFunction (configuration : Configuration)
    (header : FunctionHeader) (body : List Form) (state : ModuleState) :
    (emitFunction configuration header body).run state =
      match state.module.function? header.name with
      | none => (.error (.unknownFunction header.name), state)
      | some function =>
          let outcome := (emitBody function header body).run
            (state.around configuration function)
            (state.entering function header body)
          (outcome.1, state.leaving outcome.2) := by
  have read : (get : ModuleHandler ModuleState).run state =
      (.ok state, state) := rfl
  unfold emitFunction
  rw [run_handler_bind, read]
  dsimp only
  cases state.module.function? header.name with
  | none => rfl
  | some function => exact run_liftExcept _ _

/-- The body of a declared function is emitted completely, or the function
lacks a parameter. -/
theorem ModuleState.Whole.completed (whole : state.Whole)
    (configuration : Configuration) {header : FunctionHeader}
    (declared : header.Declared state.module) {function : FunctionId}
    (found : state.module.function? header.name = some function)
    (body : List Form) :
    let outcome := (emitBody function header body).run
      (state.around configuration function)
      (state.entering function header body)
    (outcome.1 = .ok () → Completed function state.module outcome.2) ∧
      (∀ error, outcome.1 = .error error →
        error = .missingEntry header.name) ∧
      state.module.Extends outcome.2.builder.module :=
  completed_emitBody (whole.starts (state.around configuration function) rfl
    (mutableNames (header.parameters.map Prod.fst) body)
    (Module.lt_of_function? found)) header body declared.parameters

/-- A function is emitted completely, or it lacks a parameter; the module grows
in either case. -/
theorem whole_emitFunction (whole : state.Whole)
    (configuration : Configuration) (header : FunctionHeader)
    (declared : header.Declared state.module) (body : List Form) :
    let outcome := (emitFunction configuration header body).run state
    (outcome.1 = .ok () → outcome.2.Whole) ∧
    (∀ error, outcome.1 = .error error →
      error = .missingEntry header.name) ∧
    state.Extends outcome.2 := by
  obtain ⟨function, found⟩ :=
    Option.isSome_iff_exists.mp declared.declared
  have emitted := whole.completed configuration declared found body
  rw [run_emitFunction, found]
  dsimp only at emitted ⊢
  generalize (emitBody function header body).run
    (state.around configuration function) _ = outcome at *
  obtain ⟨complete, missing, reached⟩ := emitted
  refine ⟨?_, missing, reached⟩
  intro done
  have completed := complete done
  exact ⟨completed.sound, completed.finished,
    whole.layouts.mono reached.types, fun header member =>
      (whole.headers header member).mono reached, completed.matchEnds⟩

/-- All bodies are emitted completely, or some function lacks a parameter; the
module grows in either case. -/
theorem whole_emitFunctions (whole : state.Whole)
    (configuration : Configuration) (headers : List FunctionHeader)
    (declared : ∀ header ∈ headers, header.Declared state.module) :
    let outcome := (emitFunctions configuration headers).run state
    (outcome.1 = .ok () → outcome.2.Whole) ∧
    (∀ error, outcome.1 = .error error →
      ∃ name, error = .missingEntry name) ∧
    state.Extends outcome.2 := by
  induction headers generalizing state with
  | nil => exact ⟨fun _ => whole, nofun, Std.Refl.refl state⟩
  | cons header headers ih =>
      obtain ⟨first, rest⟩ := List.forall_mem_cons.mp declared
      cases isBody : header.body with
      | none =>
          have run : (emitFunctions configuration (header :: headers)).run
              state = (emitFunctions configuration headers).run state := by
            rw [emitFunctions, isBody]
          rw [run]
          exact ih whole rest
      | some body =>
          have run : (emitFunctions configuration (header :: headers)).run
              state = (emitFunction configuration header body >>= fun _ =>
                emitFunctions configuration headers).run state := by
            rw [emitFunctions, isBody]
          obtain ⟨complete, missing, grows⟩ :=
            whole_emitFunction whole configuration header first body
          rw [run, run_handler_bind]
          generalize (emitFunction configuration header body).run state =
            outcome at *
          obtain ⟨result, later⟩ := outcome
          cases result with
          | error error =>
              refine ⟨nofun, ?_, grows⟩
              rintro _ ⟨⟩
              exact ⟨header.name, missing error rfl⟩
          | ok _ =>
              obtain ⟨done, failed, growsOn⟩ := ih (complete rfl)
                fun header member => (rest header member).mono grows
              exact ⟨done, failed, Trans.trans grows growsOn⟩

/-! ## Modules -/

theorem splitModule_error (items : List Form) {error : EmitError}
    (found : (splitModule items).2 = some error) :
    ∃ text, error = .malformedModule text := by
  fun_induction splitModule items with
  | case1 => cases found
  | case2 item rest _ parts other same ih => exact ih (same ▸ found)
  | case3 item key => exact ⟨_, (Option.some.inj found).symm⟩
  | case4 item key _ value rest parts other same ih => exact ih (same ▸ found)

/-- Settings only change the name of a module. -/
theorem applySettings_eq (module : Module)
    (settings : List (String × Form)) :
    ∃ name, applySettings module settings = module.setName name := by
  unfold applySettings
  induction settings generalizing module with
  | nil => exact ⟨module.name, rfl⟩
  | cons setting settings ih =>
      obtain ⟨key, value⟩ := setting
      simp only [List.foldl_cons] at ih ⊢
      cases value.name? with
      | none => exact ih module
      | some name =>
          by_cases isName : key = "id"
          · simp only [if_pos isName]
            obtain ⟨last, same⟩ := ih (module.setName name)
            exact ⟨last, same⟩
          · simp only [if_neg isName]
            exact ih module

/-- The module with its settings. -/
def ModuleState.setting (settings : List (String × Form))
    (state : ModuleState) : ModuleState :=
  { state with module := applySettings state.module settings }

theorem ModuleState.setting_eq (settings : List (String × Form))
    (state : ModuleState) : ∃ name, state.setting settings =
      { state with module := state.module.setName name } := by
  obtain ⟨name, same⟩ := applySettings_eq state.module settings
  exact ⟨name, by rw [setting, same]⟩

theorem ModuleState.Whole.setting (whole : state.Whole)
    (settings : List (String × Form)) : (state.setting settings).Whole := by
  obtain ⟨name, same⟩ := state.setting_eq settings
  rw [same]
  have runs : state.module.Runs (fun module => ((), module.setName name))
      fun _ _ => True :=
    Module.runs_of_same_functions whole.sound whole.sound.types
      (TypeTable.Grows.refl _) rfl rfl trivial
  exact whole.still runs.holds runs.follows

/-- The module with the routine that its handlers need, if it has bodies. -/
def ModuleState.preparing (configuration : Configuration)
    (state : ModuleState) : ModuleState :=
  match configuration.personality with
  | some personality =>
      if state.headers.any fun header => header.body.isSome then
        (onModule (declarePersonality personality) state).2
      else state
  | none => state

/-- What leaves a module as it should be does so before the bodies, too. -/
theorem ModuleState.preparing_cases {holds : ModuleState → Prop}
    (declared : holds state)
    (prepared : ∀ personality,
      holds (onModule (declarePersonality personality) state).2)
    (configuration : Configuration) :
    holds (state.preparing configuration) := by
  unfold preparing
  split
  · split
    · exact prepared _
    · exact declared
  · exact declared

/-- The module that bodies are emitted into. -/
def ModuleState.prepared (configuration : Configuration)
    (parts : ModuleParts) (state : ModuleState) : ModuleState :=
  ((layOutModule parts.declarations
    (state.setting parts.settings)).2.declaring
      parts.declarations).preparing configuration

theorem run_declarations_bind (forms : List Form) (next : ModuleHandler Unit)
    (state : ModuleState) :
    (do
      forms.forM fun form => (declare form : ModuleHandler Unit)
      next).run state = next.run (state.declaring forms) := by
  induction forms generalizing state with
  | nil => rfl
  | cons form forms ih =>
      rw [List.forM, bind_assoc]
      exact ih (declare form state).2

theorem run_personality_bind (configuration : Configuration)
    (state : ModuleState) :
    (do
      let headers := (← get).headers
      match configuration.personality with
      | some personality =>
          if headers.any fun header => header.body.isSome then
            let _ ← (onModule (declarePersonality personality) :
              ModuleEmission FunctionId)
      | none => pure ()
      emitFunctions configuration headers : ModuleHandler Unit).run state =
    (emitFunctions configuration (state.preparing configuration).headers).run
      (state.preparing configuration) := by
  unfold ModuleState.preparing
  cases configuration.personality with
  | none => rfl
  | some personality =>
      show (if state.headers.any fun header => header.body.isSome
        then _ else _ : ModuleHandler Unit).run state = _
      dsimp only
      split <;> rfl

/-- Bodies are emitted last, unless the module is malformed. -/
theorem run_emitModule (configuration : Configuration) (form : Form)
    (state : ModuleState) :
    let parts := (splitModule (form.list?.getD []).tail).1
    let prepared := state.prepared configuration parts
    let outcome := (emitModule configuration form).run state
    (∃ text, outcome = (.error (.malformedModule text), state)) ∨
      (∃ text, outcome = (.error (.malformedModule text),
        state.setting parts.settings)) ∨
      outcome = (emitFunctions configuration prepared.headers).run
        prepared := by
  have malformed := fun error => @splitModule_error
    (form.list?.getD []).tail error
  unfold emitModule
  generalize splitModule (form.list?.getD []).tail = split at malformed ⊢
  obtain ⟨parts, failure⟩ := split
  dsimp only
  split
  · exact .inl ⟨_, rfl⟩
  · cases failure with
    | some error =>
        obtain ⟨text, rfl⟩ := malformed error rfl
        exact .inr (.inl ⟨text, rfl⟩)
    | none =>
        exact .inr (.inr ((run_declarations_bind _ _ _).trans
          (run_personality_bind configuration _)))

theorem ModuleState.types_ofConfiguration (configuration : Configuration) :
    (ofConfiguration configuration).module.types = {} := by
  unfold ofConfiguration Module.setTriple
  split <;> rfl

theorem ModuleState.bodies_ofConfiguration (configuration : Configuration) :
    (ofConfiguration configuration).module.types.bodies = [] := by
  rw [types_ofConfiguration]

theorem ModuleState.whole_ofConfiguration (configuration : Configuration) :
    (ofConfiguration configuration).Whole := by
  have types := types_ofConfiguration configuration
  have functions : (ofConfiguration configuration).module.functions = [] := by
    unfold ofConfiguration Module.setTriple
    split <;> rfl
  have globals : (ofConfiguration configuration).module.globals = [] := by
    unfold ofConfiguration Module.setTriple
    split <;> rfl
  have empty (id : FunctionId) :
      (ofConfiguration configuration).module.function id = default := by
    rw [Module.function, functions]
    rfl
  refine ⟨⟨?_, ?_, ?_, ?_, ?_⟩, ?_, ⟨?_, ?_, ?_⟩, ?_, ?_⟩
  · rw [types]
    exact ⟨by simp, by simp⟩
  · simp [functions]
  · simp [globals]
  · intro id
    rw [empty]
    exact Function.sound_of_noBlocks rfl (List.forall_mem_nil _)
  · simp [functions]
  · intro id known
    rw [Module.block?, empty] at known
    cases known
  · rintro name layout ⟨⟩
  · rintro name layout ⟨⟩
  · rintro name layout ⟨⟩
  · exact List.forall_mem_nil _
  · exact List.forall_mem_nil _

theorem ModuleState.Whole.prepared (whole : state.Whole)
    (fresh : state.module.types.bodies = []) (configuration : Configuration)
    (parts : ModuleParts) : (state.prepared configuration parts).Whole := by
  have stillFresh :
      (state.setting parts.settings).module.types.bodies = [] := by
    obtain ⟨name, same⟩ := state.setting_eq parts.settings
    rw [same]
    exact fresh
  have laidOut := keeps_layOutModule (whole.setting parts.settings)
    stillFresh parts.declarations
  have declared := laidOut.holds.declaring parts.declarations
  exact preparing_cases declared (fun personality => (keeps_onModule declared
    (runs_declarePersonality declared.sound personality)).holds) _

/-- A module that is not malformed and whose functions have their parameters
is emitted completely. -/
theorem whole_emitModule (whole : state.Whole)
    (fresh : state.module.types.bodies = [])
    (configuration : Configuration) (form : Form) :
    let outcome := (emitModule configuration form).run state
    (outcome.1 = .ok () → outcome.2.Whole) ∧
    ∀ error, outcome.1 = .error error →
      (∃ text, error = .malformedModule text) ∨
        ∃ name, error = .missingEntry name := by
  rcases run_emitModule configuration form state with
    ⟨text, run⟩ | ⟨text, run⟩ | run
  · simp [run]
  · simp [run]
  · have prepared := whole.prepared fresh configuration
      (splitModule (form.list?.getD []).tail).1
    obtain ⟨complete, missing, -⟩ :=
      whole_emitFunctions prepared configuration _ prepared.headers
    simp only [run]
    exact ⟨complete, fun error found => .inr (missing error found)⟩

/-! ## What is emitted -/

theorem whole_emitted {configuration : Configuration} {form : Form}
    (done : (emitted configuration form).error = none) :
    (emitted configuration form).state.Whole := by
  have delivers := whole_emitModule (whole_ofConfiguration configuration)
    (bodies_ofConfiguration configuration) configuration form
  apply delivers.1
  unfold emitted at done
  generalize (emitModule configuration form).run
    (ofConfiguration configuration) = outcome at *
  obtain ⟨result, state⟩ := outcome
  cases result with
  | ok _ => rfl
  | error error => cases done

theorem emitted_error {configuration : Configuration} {form : Form}
    {error : EmitError}
    (failed : (emitted configuration form).error = some error) :
    (∃ text, error = .malformedModule text) ∨
      ∃ name, error = .missingEntry name := by
  have delivers := whole_emitModule (whole_ofConfiguration configuration)
    (bodies_ofConfiguration configuration) configuration form
  apply delivers.2
  unfold emitted at failed
  generalize (emitModule configuration form).run
    (ofConfiguration configuration) = outcome at *
  obtain ⟨result, state⟩ := outcome
  cases result with
  | ok _ => cases failed
  | error other => rw [Option.some.inj failed]

/-- Where every block has an end, that is its last instruction, and it stays
within the function. -/
theorem Ir.Module.Finished.block_ends (finished : module.Finished)
    (sound : module.Sound) {id : FunctionId} {function : Function}
    (found : module.functions[id]? = some function) {block : Block}
    (member : block ∈ function.blocks) :
    ∃ body last, block.instructions = body ++ [last] ∧
      last.operation.isTerminator = true ∧
      (∀ instruction ∈ body, instruction.operation.isTerminator = false) ∧
      ∀ target ∈ last.operation.targets,
        target.function = id ∧ target.index < function.blocks.length := by
  have same : module.function id = function := by
    rw [Module.function, found]
    rfl
  have body := sound.bodies id
  rw [same] at body
  obtain ⟨index, position⟩ := List.getElem?_of_mem member
  have located : module.block? ⟨id, index⟩ = some block := by
    rw [Module.block?_eq, same]
    exact position
  have ended := finished ⟨id, index⟩ (by rw [located]; rfl)
  rw [Module.terminator?, located, Option.bind_some] at ended
  rcases (body.straight block member).cases with ⟨isOpen, -⟩ |
    ⟨front, last, instructions, ends, terminator, straight⟩
  · rw [isOpen] at ended
    cases ended
  · exact ⟨front, last, instructions, ends, straight,
      body.targets block member last.operation terminator⟩

/-- Each block of an emitted module ends with its only terminator, whose
targets are blocks of the same function, and there is always a block to build
instructions in. -/
theorem emitted_block_ends (configuration : Configuration) (form : Form) :
    ((emitted configuration form).error = none →
      ∀ (id : FunctionId) (function : Function),
        (emitted configuration form).state.module.functions[id]? =
          some function →
        ∀ block ∈ function.blocks, ∃ body last,
          block.instructions = body ++ [last] ∧
          last.operation.isTerminator = true ∧
          (∀ instruction ∈ body,
            instruction.operation.isTerminator = false) ∧
          ∀ target ∈ last.operation.targets,
            target.function = id ∧ target.index < function.blocks.length) ∧
    (∀ name count, (emitted configuration form).error ≠
      some (.noInsertionPoint name count)) ∧
    ∀ name, (emitted configuration form).error ≠
      some (.unknownFunction name) := by
  refine ⟨?_, ?_, ?_⟩
  · intro done id function found block member
    have whole := whole_emitted done
    exact whole.finished.block_ends whole.sound found member
  · intro name count failed
    rcases emitted_error failed with ⟨_, ⟨⟩⟩ | ⟨_, ⟨⟩⟩
  · intro name failed
    rcases emitted_error failed with ⟨_, ⟨⟩⟩ | ⟨_, ⟨⟩⟩

/-- A module with one function that returns at once. -/
def returningModule : Form :=
  Form.list [Form.symbol "module",
    Form.keywordCall "fn" [("name", Form.symbol "f"),
      ("body", Form.vector [Form.list [Form.symbol "ret"]])]]

theorem emitted_block_ends_returningModule :
    ∃ function block, (emitted {} returningModule).state.module.functions =
      [function] ∧ function.blocks = [block] ∧
      ∃ body last, block.instructions = body ++ [last] ∧
        last.operation.isTerminator = true := by
  have done : (emitted {} returningModule).error = none := by decide +kernel
  have count : (emitted {} returningModule).state.module.functions.map
      (·.blocks.length) = [1] := by decide +kernel
  obtain ⟨function, functions, blocks⟩ := List.map_eq_singleton_iff.mp count
  obtain ⟨block, isBlock⟩ := List.length_eq_one_iff.mp blocks
  have found : (emitted {} returningModule).state.module.functions[0]? =
      some function := by rw [functions]; rfl
  obtain ⟨body, last, ends, terminator, -⟩ :=
    (emitted_block_ends {} returningModule).1 done 0 function found block
      (by rw [isBlock]; exact List.mem_singleton_self block)
  exact ⟨function, block, functions, isBlock, body, last, ends, terminator⟩

/-- The block that a match with a result ends at starts with a phi, which has
exactly one edge for each block whose terminator leads there, with a value of
the type of the result. -/
theorem emitted_matchEnd_phi (configuration : Configuration) (form : Form)
    (done : (emitted configuration form).error = none) (block : BlockId)
    (type : TypeId)
    (member : (block, type) ∈ (emitted configuration form).state.matchEnds)
    (firstClass : (phiType (emitted configuration form).state.module
      type).isFirstClass = true) :
    let module := (emitted configuration form).state.module
    ∃ inner phi edges, module.block? block = some inner ∧
      inner.instructions.head? = some phi ∧
      phi.operation = .phi (phiType module type) edges ∧
      (edges.map Prod.snd).Nodup ∧
      (∀ source, source ∈ edges.map Prod.snd ↔
        ∃ sourceBlock ending, module.block? source = some sourceBlock ∧
          sourceBlock.terminator? = some ending ∧ block ∈ ending.targets) ∧
      ∀ edge ∈ edges,
        (∃ value : Value, value.type = type ∧ edge.1 = value.operand) ∧
        ((lowered module.types boundaryLevels type).isFirstClass = true →
          edge.1.type = phiType module type) := by
  intro module
  obtain ⟨-, -, -, joined⟩ := (whole_emitted done).matchEnds _ member
  obtain ⟨register, edges, ⟨inner, phi, found, leads, -, operation⟩, covers,
    typed, -⟩ := joined firstClass
  refine ⟨inner, phi, edges, found, (Option.filter_eq_some_iff.mp leads).1,
    operation, covers.nodup, ?_, ?_⟩
  · intro source
    rw [covers.mem_iff]
    constructor
    · rintro ⟨ending, ends, member⟩
      obtain ⟨sourceBlock, sourceFound, ends⟩ :=
        Option.bind_eq_some_iff.mp ends
      exact ⟨sourceBlock, ending, sourceFound, ends, member⟩
    · rintro ⟨sourceBlock, ending, sourceFound, ends, member⟩
      refine ⟨ending, ?_, member⟩
      rw [Module.terminator?]
      exact Option.bind_eq_some_iff.mpr ⟨sourceBlock, sourceFound, ends⟩
  · intro edge member
    obtain ⟨value, rfl, valueTyped, same⟩ := typed edge member
    exact ⟨⟨value, rfl, same⟩, fun first => by
      rw [same]
      exact valueTyped.operand_lowered first⟩

/-- A module with a sum of one variant and a match on it that is true or
undefined. -/
def matchingModule : Form :=
  Form.list [Form.symbol "module",
    Form.keywordCall "sum" [("name", Form.symbol "Opt"),
      ("variants", Form.vector
        [Form.keywordCall "variant" [("name", Form.symbol "None")]])],
    Form.keywordCall "fn" [("name", Form.symbol "f"),
      ("params", Form.vector [Form.list [Form.symbol "param",
        Form.list [Form.symbol "ptr", Form.symbol "Opt"],
        Form.symbol "%o"]]),
      ("body", Form.vector [Form.list [Form.symbol "match",
        Form.symbol "%r", Form.symbol "i1", Form.symbol "Opt",
        Form.symbol "%o", Form.keyword "cases",
        Form.vector [Form.list [Form.symbol "case", Form.symbol "None",
          Form.vector [Form.list [Form.symbol "const", Form.symbol "%z",
            Form.symbol "i1", Form.bool true],
            Form.keyword "value", Form.symbol "%z"]]]]])]]

theorem emitted_matchEnd_phi_matchingModule :
    let module := (emitted {} matchingModule).state.module
    ∃ inner phi edges, module.block? ⟨0, 3⟩ = some inner ∧
      inner.instructions.head? = some phi ∧
      phi.operation = .phi (phiType module ⟨7⟩) edges ∧
      (edges.map Prod.snd).Nodup ∧
      ∀ source, source ∈ edges.map Prod.snd ↔
        ∃ sourceBlock ending, module.block? source = some sourceBlock ∧
          sourceBlock.terminator? = some ending ∧
          (⟨0, 3⟩ : BlockId) ∈ ending.targets := by
  have ends : (emitted {} matchingModule).state.matchEnds =
      [(⟨0, 3⟩, ⟨7⟩)] := by decide +kernel
  obtain ⟨inner, phi, edges, found, first, operation, nodup, covers, -⟩ :=
    emitted_matchEnd_phi {} matchingModule (by decide +kernel) ⟨0, 3⟩ ⟨7⟩
      (by rw [ends]; exact List.mem_singleton_self _) (by decide +kernel)
  exact ⟨inner, phi, edges, found, first, operation, nodup, covers⟩

end FormCompiler
