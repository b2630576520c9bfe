import FormCompiler.Proofs.EmittedModules
import FormCompiler.Proofs.FunctionRuns
import FormCompiler.Proofs.LocatedProblems

/-!
# Modules that run

The functions of a module are declared first, without code, and take what
their headers say.  Then the bodies are emitted one after another.  The code
of one body goes to its own function only, so a function that was emitted from
straight-line code still gives back what the interpreter gives once the whole
module is emitted, whatever the other functions do.
-/

namespace FormCompiler

open Ir

variable {module later : Module} {state : ModuleState}
  {header : FunctionHeader} {function : FunctionId}

/-! ## Functions that are added -/

namespace Ir.Module

/-- A function is found where it was. -/
theorem Extends.function? {name : String} (extends_ : module.Extends later)
    (found : module.function? name = some function) :
    later.function? name = some function := by
  refine function?_of_names ?_ found
  rw [List.prefix_iff_getElem?]
  intro id inside
  rw [List.length_map] at inside
  have known := Nat.lt_of_lt_of_le inside extends_.count
  have named := (extends_.functions id inside).1
  rw [Module.function, Module.function, List.getElem?_eq_getElem known,
    List.getElem?_eq_getElem inside] at named
  rw [List.getElem?_map, List.getElem?_eq_getElem known, List.getElem_map]
  exact congrArg some named

/-- The value of a parameter that is no token is the argument at its
position. -/
theorem pushParameters_getElem? (table : TypeTable) (function : FunctionId)
    {parameters : List (TypeId × IrType)} {position : Nat} {type : TypeId}
    {irType : IrType} (found : parameters[position]? = some (type, irType))
    (notToken : table.isToken type = false) (index : Nat) (module : Module) :
    ∃ value,
      (pushParameters table function index parameters module).1[position]? =
        some value ∧
      value.type = type ∧
      value.content =
        .firstClass (.argument function (index + position) irType) := by
  induction parameters generalizing index position module with
  | nil => cases found
  | cons parameter parameters ih =>
      cases position with
      | zero =>
          cases found
          refine ⟨_, rfl, rfl, ?_⟩
          show (if table.isToken type then _ else _ : Content) = _
          rw [notToken]
          rfl
      | succ position =>
          obtain ⟨value, at_, typed, content⟩ :=
            ih found (index + 1) _
          refine ⟨value, at_, typed, ?_⟩
          rw [content, Nat.add_right_comm]
          rfl

/-- A new function takes what its type says. -/
theorem parameters_addFunction {name : String} {type : TypeId}
    {signature : TypeTable.Signature} (missing : module.function? name = none)
    (found : module.types.signature? type = some signature)
    (linkage : Linkage) :
    ∃ (added : Function) (middle : Module),
      (addFunction name type linkage module).2.functions =
        module.functions ++ [added] ∧
      added.parameters = (pushParameters module.types module.functions.length
        0 (signature.parameters.map fun type =>
          (type, lowered module.types boundaryLevels type)) middle).1 := by
  have pushed (parameters : List (TypeId × IrType)) (middle : Module)
      (same : middle.functions = module.functions) :
      (pushParameters module.types module.functions.length 0 parameters
        middle).2.functions = module.functions := by
    rw [pushParameters_eq]
    exact same
  have lowers : (lower type module).1 = .function
      (lowered module.types boundaryLevels signature.result)
      (signature.parameters.map (lowered module.types boundaryLevels))
      signature.variadic :=
    (lowerWithin_fst module.types loweringLevels type module.structs).trans
      (lowered_function found 64)
  have same : (lower type module).2.functions = module.functions := rfl
  unfold addFunction
  rw [stateM_get_bind, missing]
  dsimp only
  rw [stateM_bind_apply]
  generalize lower type module = lowering at lowers same
  obtain ⟨irType, middle⟩ := lowering
  dsimp only at lowers same ⊢
  subst lowers
  dsimp only
  rw [stateM_bind_apply]
  have kept : (reserveSymbol name middle).2.functions = middle.functions := rfl
  generalize reserveSymbol name middle = reserving at kept
  rw [found, ← List.map_prod_left_eq_zip]
  exact ⟨_, _, congrArg (· ++ [_]) (pushed _ _ (kept.trans same)), rfl⟩

end Ir.Module

/-! ## Functions without code -/

/-- The function of a header has no code yet, and takes the integers that the
header says. -/
structure FunctionHeader.Awaits (header : FunctionHeader) (module : Module)
    (function : FunctionId) : Prop where
  found : module.function? header.name = some function
  typed : (module.function function).type = header.type
  noCode : (module.function function).blocks = []
  has : ∀ parameter ∈ header.parameters, module.types.Has parameter.2
  takes : ∀ (index : Nat) (parameter : String × TypeId) (bits : Nat),
    header.parameters[index]? = some parameter →
    module.types.kind parameter.2 = .int bits →
    ∃ value, (module.function function).parameters[index]? = some value ∧
      value.type = parameter.2 ∧
      value.content = .firstClass (.argument function index (.int bits))

theorem FunctionHeader.Awaits.mono (awaits : header.Awaits module function)
    (extends_ : module.Extends later)
    (noCode : (later.function function).blocks = []) :
    header.Awaits later function := by
  have inside := Module.lt_of_function? awaits.found
  obtain ⟨-, type, parameters⟩ := extends_.functions function inside
  refine ⟨extends_.function? awaits.found, type.trans awaits.typed, noCode,
    fun parameter member => (awaits.has parameter member).mono extends_.types,
    fun index parameter bits found kind => ?_⟩
  have has := awaits.has parameter (List.mem_of_getElem? found)
  rw [has.kind_eq extends_.types] at kind
  rw [parameters]
  exact awaits.takes index parameter bits found kind

/-- A function that is declared has no code. -/
theorem FunctionHeader.awaits_addFunction (sound : module.Sound)
    (missing : module.function? header.name = none)
    {signature : TypeTable.Signature}
    (found : module.types.signature? header.type = some signature)
    (same : signature.parameters = header.parameters.map Prod.snd)
    (linkage : Linkage) :
    header.Awaits
      (Module.addFunction header.name header.type linkage module).2
      module.functions.length := by
  obtain ⟨added, -, functions, named, typed, noCode⟩ :=
    Module.addFunction_append missing header.type linkage
  obtain ⟨again, middle, sameFunctions, parameters⟩ :=
    Module.parameters_addFunction missing found linkage
  obtain rfl : again = added :=
    List.singleton_inj.mp
      (List.append_cancel_left (sameFunctions.symm.trans functions))
  have grows := (Module.runs_addFunction sound header.name found
    linkage).follows.types
  have has (parameter : String × TypeId)
      (member : parameter ∈ header.parameters) :
      module.types.Has parameter.2 := by
    refine (sound.types.signature found).2 _ ?_
    rw [same]
    exact List.mem_map_of_mem member
  have here : (Module.addFunction header.name header.type linkage
      module).2.function module.functions.length = again := by
    rw [Module.function, functions, List.getElem?_concat_length]
    rfl
  refine ⟨?_, by rw [here, typed], by rw [here, noCode],
    fun parameter member => (has parameter member).mono grows,
    fun index parameter bits at_ kind => ?_⟩
  · rw [Module.function?] at missing ⊢
    rw [functions, List.findIdx?_append, missing]
    simp [List.findIdx?_cons, named]
  · have known := has parameter (List.mem_of_getElem? at_)
    rw [known.kind_eq grows] at kind
    have lowers : lowered module.types boundaryLevels parameter.2 =
        .int bits := by
      show lowered module.types (63 + 1) parameter.2 = _
      simp only [lowered, kind]
    have notToken : module.types.isToken parameter.2 = false := by
      rw [TypeTable.isToken, kind]
      rfl
    have lowered_at : (signature.parameters.map fun type =>
        (type, lowered module.types boundaryLevels type))[index]? =
          some (parameter.2, .int bits) := by
      rw [same, List.map_map, List.getElem?_map, at_, ← lowers]
      rfl
    obtain ⟨value, isValue, valueType, content⟩ :=
      Module.pushParameters_getElem? module.types module.functions.length
        lowered_at notToken 0 middle
    rw [Nat.zero_add] at content
    exact ⟨value, by rw [here, parameters, isValue], valueType, content⟩

/-! ## Declarations -/

namespace ModuleState

variable {next : ModuleState}

/-- Every function with a header of its own is without code. -/
def AllAwait (state : ModuleState) : Prop :=
  ∀ header ∈ state.headers,
    (state.headers.map FunctionHeader.name).count header.name = 1 →
    ∃ function, header.Awaits state.module function

/-- Every function is declared by a header, and has no code. -/
structure Blank (state : ModuleState) : Prop where
  names : ∀ name, (state.module.function? name).isSome = true →
    name ∈ state.headers.map FunctionHeader.name
  noCode : ∀ function, (state.module.function function).blocks = []
  awaits : state.AllAwait

/-- What leaves functions alone leaves them without code. -/
theorem Blank.mono (blank : state.Blank)
    (extends_ : state.module.Extends next.module)
    (functions : next.module.functions = state.module.functions)
    (headers : next.headers = state.headers) : next.Blank := by
  have noCode (function : FunctionId) :
      (next.module.function function).blocks = [] := by
    rw [Module.function, functions]
    exact blank.noCode function
  refine ⟨fun name => ?_, noCode, fun header member once => ?_⟩
  · rw [Module.function?, functions, headers]
    exact blank.names name
  · rw [headers] at member once
    obtain ⟨function, awaits⟩ := blank.awaits header member once
    exact ⟨function, awaits.mono extends_ (noCode function)⟩

/-- A declared function is one more without code. -/
theorem Blank.addHeader (blank : state.Blank) (whole : state.Whole)
    {signature : TypeTable.Signature}
    (found : state.module.types.signature? header.type = some signature)
    (same : signature.parameters = header.parameters.map Prod.snd) :
    let added := (onModule (Module.addFunction header.name header.type
      .external) state).2
    ({ added with headers := added.headers ++ [header] } :
      ModuleState).Blank := by
  intro added
  have runs := Module.runs_addFunction whole.sound header.name found .external
  have noCode (function : FunctionId) :
      (added.module.function function).blocks = [] :=
    (runs.follows.bodies function).1.trans (blank.noCode function)
  have known : added.headers = state.headers := rfl
  refine ⟨fun name isSome => ?_, noCode, fun other member once => ?_⟩
  · rw [known, List.map_append, List.mem_append]
    by_cases isNew : name = header.name
    · exact .inr (List.mem_singleton.mpr isNew)
    · refine .inl (blank.names name ?_)
      rw [Module.isSome_function?] at isSome ⊢
      obtain ⟨id, inside, named⟩ := isSome
      cases missing : state.module.function? header.name with
      | some function =>
          have stays : added.module = state.module :=
            congrArg Prod.snd (Module.addFunction_of_found missing _ _)
          rw [stays] at inside named
          exact ⟨id, inside, named⟩
      | none =>
          obtain ⟨function, -, functions, called, -⟩ :=
            Module.addFunction_append missing header.type .external
          have grown : added.module.functions =
              state.module.functions ++ [function] := functions
          rw [grown, List.length_append] at inside
          rw [Module.function, grown] at named
          by_cases old : id < state.module.functions.length
          · rw [List.getElem?_append_left old] at named
            exact ⟨id, old, named⟩
          · obtain rfl : id = state.module.functions.length := by
              simp only [List.length_singleton] at inside
              omega
            rw [List.getElem?_concat_length] at named
            exact absurd (named.symm.trans called) isNew
  · rw [known, List.map_append, List.count_append] at once
    rw [known, List.mem_append, List.mem_singleton] at member
    rcases member with old | rfl
    · have earlier : 0 < (state.headers.map FunctionHeader.name).count
          other.name := List.count_pos_iff.mpr (List.mem_map_of_mem old)
      obtain ⟨function, awaits⟩ := blank.awaits other old (by omega)
      exact ⟨function,
        awaits.mono runs.follows.toExtends (noCode function)⟩
    · have new : other.name ∉ state.headers.map FunctionHeader.name := by
        rw [← List.count_eq_zero]
        simpa using once
      have missing : state.module.function? other.name = none := by
        by_contra isSome
        exact new (blank.names _ (Option.isSome_iff_ne_none.mpr isSome))
      exact ⟨_, FunctionHeader.awaits_addFunction whole.sound missing found
        same .external⟩

theorem blank_ofConfiguration (configuration : Configuration) :
    (ofConfiguration configuration).Blank := by
  have functions : (ofConfiguration configuration).module.functions = [] := by
    unfold ofConfiguration Module.setTriple
    split <;> rfl
  refine ⟨fun name isSome => ?_, fun function => ?_, List.forall_mem_nil _⟩
  · rw [Module.function?, functions] at isSome
    cases isSome
  · rw [Module.function, functions]
    rfl

theorem Blank.declareHeader (blank : state.Blank) (whole : state.Whole)
    (form : Form) : (FormCompiler.declareHeader form state).2.Blank := by
  obtain ⟨problems, reads⟩ :=
    reading_eq "fn" form.span? (readHeader form) state
  have keeps := keeps_reading whole "fn" form.span?
    (reads_header whole.sound.types form)
  have readBlank : (reading "fn" form.span? (readHeader form)
      state).2.Blank := by
    refine blank.mono keeps.follows ?_ ?_
    all_goals rw [reads]
  unfold FormCompiler.declareHeader
  rw [stateM_bind_apply]
  have good := keeps.good
  have readWhole := keeps.holds
  generalize reading "fn" form.span? (readHeader form) state = outcome at *
  obtain ⟨result, later⟩ := outcome
  cases result with
  | none => exact readBlank
  | some header =>
      obtain ⟨⟨signature, found, same⟩, -⟩ := good header rfl
      exact readBlank.addHeader readWhole found same

theorem blank_declare (form : Form) :
    Relates (fun state later => state.Whole → state.Blank → later.Blank)
      (declare form) := by
  unfold declare
  split
  · intro state whole blank
    have globals := (keeps_declareGlobal whole form).follows
    obtain ⟨module, problems, functions, -,
      ⟨-, same⟩ | ⟨name, _, type, -, -, -, same⟩⟩ :=
        declareGlobal_cases form state
    · refine blank.mono globals ?_ ?_
      all_goals rw [same]
      exact functions
    · refine blank.mono globals ?_ ?_
      all_goals rw [same]
      exact (Module.functions_addGlobal _ _ _ _ _ _).trans functions
  · exact fun state whole blank => blank.declareHeader whole form
  · split
    all_goals
      exact fun state _ blank => blank.mono (Module.Extends.refl _) rfl rfl

theorem Blank.declaring (blank : state.Blank) (whole : state.Whole)
    (forms : List Form) : (state.declaring forms).Blank := by
  induction forms generalizing state with
  | nil => exact blank
  | cons form forms ih =>
      exact ih (blank_declare form state whole blank)
        (keeps_declare whole form).holds

/-- Before the bodies are emitted, every function waits for its code. -/
theorem awaits_prepared (whole : state.Whole)
    (fresh : state.module.types.bodies = []) (blank : state.Blank)
    (configuration : Configuration) (parts : ModuleParts) :
    (state.prepared configuration parts).AllAwait := by
  obtain ⟨name, settings⟩ := state.setting_eq parts.settings
  have settled : (state.setting parts.settings).Blank := by
    refine blank.mono ?_ ?_ ?_
    all_goals rw [settings]
    · exact ⟨.refl _, Nat.le_refl _, fun _ _ => ⟨rfl, rfl, rfl⟩,
        List.prefix_refl _⟩
    · rfl
  have stillFresh : (state.setting parts.settings).module.types.bodies =
      [] := by
    rw [settings]
    exact fresh
  have keeps := keeps_layOutModule (whole.setting parts.settings) stillFresh
    parts.declarations
  have laidOut : (layOutModule parts.declarations
      (state.setting parts.settings)).2.Blank :=
    settled.mono keeps.follows rfl rfl
  have declared := laidOut.declaring keeps.holds parts.declarations
  have declaredWhole := keeps.holds.declaring parts.declarations
  refine preparing_cases declared.awaits
    (fun personality header member once => ?_) configuration
  obtain ⟨function, awaits⟩ := declared.awaits header member once
  have still := (runs_declarePersonality declaredWhole.sound
    personality).follows
  exact ⟨function, awaits.mono still.toExtends
    ((still.bodies function).1.trans (declared.noCode function))⟩

end ModuleState

/-! ## Bodies of other functions -/

/-- Emitting the body of another function leaves a function alone. -/
theorem ModuleState.Whole.leaves_emitFunction (whole : state.Whole)
    (configuration : Configuration) {other : FunctionHeader}
    (declared : other.Declared state.module) {name : String}
    (found : state.module.function? name = some function)
    (ordinary : ¬IsThunkName name) (apart : other.name ≠ name)
    (body : List Form) :
    let outcome := (emitFunction configuration other body).run state
    outcome.1 = .ok () → state.module.Leaves function outcome.2.module := by
  obtain ⟨home, isHome⟩ := Option.isSome_iff_exists.mp declared.declared
  rw [run_emitFunction, isHome]
  dsimp only
  intro done
  have completed :=
    (whole.completed configuration declared isHome body).1 done
  refine completed.works function (Module.lt_of_function? found) ?_ ?_
  · rintro rfl
    exact apart ((Module.name_of_function? isHome).symm.trans
      (Module.name_of_function? found))
  · rw [Module.name_of_function? found]
    exact ordinary

theorem run_emitFunctions_cons (configuration : Configuration)
    (header : FunctionHeader) (headers : List FunctionHeader)
    (state : ModuleState) :
    (emitFunctions configuration (header :: headers)).run state =
      match header.body with
      | none => (emitFunctions configuration headers).run state
      | some body =>
          match (emitFunction configuration header body).run state with
          | (.ok _, later) => (emitFunctions configuration headers).run later
          | (.error error, later) => (.error error, later) := by
  rw [emitFunctions]
  cases header.body with
  | none => rfl
  | some body =>
      dsimp only
      rw [run_handler_bind]
      obtain ⟨result, later⟩ :=
        (emitFunction configuration header body).run state
      cases result <;> rfl

/-- Bodies are emitted in order, until one cannot be completed. -/
theorem run_emitFunctions_append (configuration : Configuration)
    (before after : List FunctionHeader) (state : ModuleState) :
    (emitFunctions configuration (before ++ after)).run state =
      match (emitFunctions configuration before).run state with
      | (.ok _, later) => (emitFunctions configuration after).run later
      | (.error error, later) => (.error error, later) := by
  induction before generalizing state with
  | nil => rfl
  | cons header before ih =>
      rw [List.cons_append, run_emitFunctions_cons, run_emitFunctions_cons]
      cases header.body with
      | none => exact ih state
      | some body =>
          dsimp only
          obtain ⟨result, later⟩ :=
            (emitFunction configuration header body).run state
          cases result with
          | error error => rfl
          | ok _ => exact ih later

theorem ModuleState.Whole.leaves_emitFunctions (whole : state.Whole)
    (configuration : Configuration) {headers : List FunctionHeader}
    (declared : ∀ header ∈ headers, header.Declared state.module)
    {name : String} (found : state.module.function? name = some function)
    (ordinary : ¬IsThunkName name)
    (apart : ∀ header ∈ headers, header.name ≠ name) :
    let outcome := (emitFunctions configuration headers).run state
    outcome.1 = .ok () → state.module.Leaves function outcome.2.module := by
  induction headers generalizing state with
  | nil => exact fun _ => .of_blocks rfl
  | cons header headers ih =>
      rw [List.forall_mem_cons] at declared apart
      rw [run_emitFunctions_cons]
      cases header.body with
      | none => exact ih whole declared.2 found apart.2
      | some body =>
          dsimp only
          obtain ⟨complete, -, grows⟩ :=
            whole_emitFunction whole configuration header declared.1 body
          have leaves := whole.leaves_emitFunction configuration declared.1
            found ordinary apart.1 body
          generalize (emitFunction configuration header body).run state =
            outcome at *
          obtain ⟨result, later⟩ := outcome
          cases result with
          | error error => exact nofun
          | ok _ =>
              intro done
              refine (leaves rfl).trans (ih (complete rfl) ?_
                (Module.Extends.function? grows found) apart.2 done)
              exact fun header member => (declared.2 header member).mono grows

/-! ## Problems of bodies -/

/-- Every problem with a body names the function. -/
theorem emitBody_adds_problems (environment : Environment) (state : EmitState)
    (fresh : ∀ move, state.context.moved move = state.context)
    (function : FunctionId) (header : FunctionHeader) (body : List Form) :
    ∃ problems,
      ((emitBody function header body).run environment state).2.problems =
        state.problems ++ problems ∧
      ∀ problem ∈ problems, problem.function = environment.functionName := by
  have again (move : Move) (keeps : move.KeepsForms) :
      Repeats move id (emitBody function header body)
        (emitBody function header body) := by
    have repeats : Repeats move id (emitBody function header body)
        (emitBody function (header.moved move) (body.map (Form.moved move))) :=
      repeats_emitBody function header body
    rwa [List.map_congr_left fun form _ => keeps.form form, List.map_id']
      at repeats
  have early : (Move.after state.problems).KeepsForms := rfl
  have stays := again (.othersRenamed environment.functionName) rfl
    environment { state with problems := [] }
  have start : EmitState.moved (.othersRenamed environment.functionName)
      { state with problems := [] } =
      { state with problems := [] } := by
    unfold EmitState.moved
    rw [fresh]
    rfl
  have around : environment.moved
      (.othersRenamed environment.functionName) = environment := by
    unfold Environment.moved
    rw [show (Move.othersRenamed environment.functionName).name
      environment.functionName = _ from Move.otherName_self _]
  rw [start, around] at stays
  have fixed := moved_of_map_eq
    (congrArg (fun outcome => outcome.2.problems) stays)
  exact ⟨_, (again _ early).problems_eq environment, fun problem member =>
    Move.eq_of_otherName (congrArg Problem.function (fixed problem member))⟩

theorem emitFunction_adds_problems (configuration : Configuration)
    (header : FunctionHeader) (body : List Form) (state : ModuleState) :
    ∃ problems,
      ((emitFunction configuration header body).run state).2.problems =
        state.problems ++ problems ∧
      ∀ problem ∈ problems, problem.function = header.name := by
  rw [run_emitFunction]
  cases found : state.module.function? header.name with
  | none => exact ⟨[], (List.append_nil _).symm, nofun⟩
  | some function =>
      obtain ⟨problems, grown, named⟩ := emitBody_adds_problems
        (state.around configuration function)
        (state.entering function header body) (fun _ => rfl) function header
        body
      exact ⟨problems, grown, fun problem member =>
        (named problem member).trans (Module.name_of_function? found)⟩

/-- Problems stay. -/
theorem emitFunctions_keeps_problems (configuration : Configuration)
    (headers : List FunctionHeader) (state : ModuleState) :
    state.problems <+:
      ((emitFunctions configuration headers).run state).2.problems := by
  induction headers generalizing state with
  | nil => exact List.prefix_refl _
  | cons header headers ih =>
      rw [run_emitFunctions_cons]
      cases header.body with
      | none => exact ih state
      | some body =>
          dsimp only
          obtain ⟨problems, grown, -⟩ :=
            emitFunction_adds_problems configuration header body state
          generalize (emitFunction configuration header body).run state =
            outcome at grown
          obtain ⟨result, later⟩ := outcome
          have first : state.problems <+: later.problems :=
            ⟨problems, grown.symm⟩
          cases result with
          | error error => exact first
          | ok _ => exact first.trans (ih later)

/-! ## Code that returns -/

namespace Ir

variable {arguments : List Quantity}

theorem Machine.isPhi_of_step {machine : Machine} {instruction : Instruction}
    (steps : machine.step arguments instruction ≠ .stuck) :
    instruction.operation.isPhi = false := by
  obtain ⟨register, name, operation⟩ := instruction
  cases operation with
  | phi => exact absurd rfl steps
  | _ => rfl

/-- A step that returns is the end of a block. -/
theorem Machine.isTerminator_of_step {machine : Machine}
    {instruction : Instruction} {value : Option Quantity}
    (returns : machine.step arguments instruction = .returns value) :
    instruction.operation.isTerminator = true := by
  obtain ⟨register, name, operation⟩ := instruction
  cases operation with
  | ret => rfl
  | load | store | binary =>
      simp only [step] at returns
      split at returns <;> cases returns
  | _ => cases returns

/-- Straight code that returns has no phis. -/
theorem Machine.isPhi_of_execute {code : List Instruction}
    {machine : Machine} {value : Option Quantity}
    (straight : ∀ instruction ∈ code.dropLast,
      instruction.operation.isTerminator = false)
    (returns : execute arguments code machine = .returns value) :
    ∀ instruction ∈ code, instruction.operation.isPhi = false := by
  induction code generalizing machine with
  | nil => exact List.forall_mem_nil _
  | cons instruction code ih =>
      rw [execute] at returns
      have isLast (nonempty : code ≠ []) :
          instruction.operation.isTerminator = false ∧
            ∀ other ∈ code.dropLast,
              other.operation.isTerminator = false := by
        rwa [List.dropLast_cons_of_ne_nil nonempty, List.forall_mem_cons]
          at straight
      rw [List.forall_mem_cons]
      cases steps : machine.step arguments instruction with
      | goesOn later =>
          rw [steps] at returns
          have notStuck : machine.step arguments instruction ≠ .stuck := by
            rw [steps]
            intro stuck
            cases stuck
          have notPhi := isPhi_of_step notStuck
          by_cases ends : code = []
          · rw [ends] at returns
            cases returns
          · exact ⟨notPhi, ih (isLast ends).2 returns⟩
      | returns other =>
          have notStuck : machine.step arguments instruction ≠ .stuck := by
            rw [steps]
            intro stuck
            cases stuck
          refine ⟨isPhi_of_step notStuck, ?_⟩
          by_cases ends : code = []
          · rw [ends]
            exact List.forall_mem_nil _
          · cases (isLast ends).1.symm.trans (isTerminator_of_step steps)
      | stuck =>
          rw [steps] at returns
          cases returns

/-- A function that is left alone gives back what it gave. -/
theorem Module.Leaves.call? {value : Option Quantity}
    (leaves : module.Leaves function later) (sound : module.Sound)
    (called : (module.function function).call? arguments = some value) :
    (later.function function).call? arguments = some value := by
  have straight := (sound.bodies function).straight
  obtain ⟨-, kept⟩ := leaves
  unfold Function.call? at called ⊢
  cases blocks : (module.function function).blocks with
  | nil =>
      rw [blocks] at called
      cases called
  | cons entry rest =>
      rw [blocks] at called straight kept
      dsimp only at called
      cases run : Machine.execute arguments entry.instructions {} with
      | returns other =>
          have stays := kept 0 entry rfl (Machine.isPhi_of_execute
            (straight entry (List.mem_cons_self ..)) run)
          cases others : (later.function function).blocks with
          | nil =>
              rw [others] at stays
              cases stays
          | cons first more =>
              rw [others] at stays
              cases stays
              dsimp only
              rw [run] at called ⊢
              exact called
      | goesOn | stuck =>
          rw [run] at called
          cases called

end Ir

/-! ## Functions of a module -/

section Calls

variable {arguments : List Quantity} {body : List Statement}
  {forms : List Form}

/-- An argument is an integer of the width of its parameter. -/
def TypeTable.Admits (table : TypeTable) (parameter : String × TypeId)
    (argument : Quantity) : Prop :=
  ∃ bits value, table.kind parameter.2 = .int bits ∧
    argument = .int bits value

theorem TypeTable.forall₂_admits_iff {table later : TypeTable}
    (grows : table.Grows later) {parameters : List (String × TypeId)}
    (has : ∀ parameter ∈ parameters, table.Has parameter.2) :
    List.Forall₂ later.Admits parameters arguments ↔
      List.Forall₂ table.Admits parameters arguments := by
  induction parameters generalizing arguments with
  | nil => rw [List.forall₂_nil_left_iff, List.forall₂_nil_left_iff]
  | cons parameter parameters ih =>
      rw [List.forall_mem_cons] at has
      cases arguments with
      | nil => exact ⟨nofun, nofun⟩
      | cons argument arguments =>
          rw [List.forall₂_cons, List.forall₂_cons, ih has.2, Admits, Admits,
            has.1.kind_eq grows]

theorem TypeTable.represents_int {table : TypeTable} {type : TypeId}
    {bits : Nat} (has : table.Has type) (kind : table.kind type = .int bits) :
    Represents table type (.int bits) := by
  refine ⟨has, ?_, rfl⟩
  show lowered table (64 + 1) type = _
  simp only [lowered, kind]

/-- A function is called with the arguments of its header. -/
theorem FunctionHeader.Awaits.passesFrom {builder : Builder}
    (awaits : header.Awaits builder.module builder.function)
    (admits : List.Forall₂ builder.module.types.Admits header.parameters
      arguments) :
    builder.PassesFrom arguments 0 header.parameters arguments := by
  have suffix {index : Nat} {parameters : List (String × TypeId)}
      {quantities : List Quantity}
      (each : List.Forall₂ builder.module.types.Admits parameters quantities)
      (first : header.parameters.drop index = parameters)
      (second : arguments.drop index = quantities) :
      builder.PassesFrom arguments index parameters quantities := by
    induction each generalizing index with
    | nil => exact .done
    | @cons parameter quantity _ _ admitted _ ih =>
        obtain ⟨bits, number, kind, rfl⟩ := admitted
        have here : header.parameters[index]? = some parameter := by
          rw [← List.head?_drop, first]
          rfl
        have passed : arguments[index]? = some (.int bits number) := by
          rw [← List.head?_drop, second]
          rfl
        obtain ⟨value, found, typed, content⟩ :=
          awaits.takes index parameter bits here kind
        have has := awaits.has parameter (List.mem_of_getElem? here)
        have operand : value.operand =
            .argument builder.function index (.int bits) := by
          rw [Value.operand, content]
        refine .next ⟨value, found, typed, ?_, ?_, ?_⟩ (ih ?_ ?_)
        · rw [operand, content]
        · rw [operand, typed]
          exact TypeTable.represents_int has kind
        · rw [operand]
          exact passed
        · rw [← List.drop_drop, first]
          rfl
        · rw [← List.drop_drop, second]
          rfl
  exact suffix admits rfl rfl

variable (forms) in
/-- A body is emitted from a function without code. -/
theorem FunctionHeader.Awaits.opens
    (awaits : header.Awaits state.module function)
    (sound : state.module.Sound) (configuration : Configuration) :
    let start := (state.entering function header forms).marked
      (state.around configuration function) function
    start.Opens (mutableNames (header.parameters.map Prod.fst) forms) ∧
      state.module.Still start.builder.module ∧
      start.builder.function = function ∧
      start.problems = state.problems := by
  have enters (marked : Module) (still : state.module.Still marked)
      (closed : marked.types.Closed) :
      ({ state.entering function header forms with
        builder := { module := marked, function } } : EmitState).Opens
          (mutableNames (header.parameters.map Prod.fst) forms) :=
    ⟨closed, Nat.lt_of_lt_of_le (Module.lt_of_function? awaits.found)
      still.count, (still.bodies function).1.trans awaits.noCode, rfl, rfl,
      rfl⟩
  unfold EmitState.marked
  split
  · next personality _ =>
      have declared := runs_declarePersonality sound personality
      have chosen := Module.runs_setPersonality declared.holds function
        (declarePersonality personality state.module).1
      have marks := Module.runs_addAttributes chosen.holds function
        [.unwindTable]
      have still := declared.follows.trans
        (chosen.follows.trans marks.follows)
      exact ⟨enters _ still marks.holds.types, still, rfl, rfl⟩
  · exact ⟨enters _ (.refl _) sound.types, .refl _, rfl, rfl⟩

/-- A function whose body is emitted without a problem gives back what the
interpreter gives. -/
theorem FunctionHeader.Awaits.call?
    (awaits : header.Awaits state.module function)
    (sound : state.module.Sound) (configuration : Configuration)
    {signature : TypeTable.Signature}
    (found : state.module.types.signature? header.type = some signature)
    (written : List.Forall₂ Statement.Written body forms)
    (distinct : (header.parameters.map Prod.fst).Nodup)
    (admits : List.Forall₂ state.module.types.Admits header.parameters
      arguments) :
    let outcome := (emitFunction configuration header forms).run state
    outcome.2.problems = state.problems → ∃ value,
      meaning (header.parameters.map Prod.fst)
          (zeroResult state.module.types signature.result) body arguments =
        some value ∧
      (outcome.2.module.function function).call? arguments = some value := by
  rw [run_emitFunction, awaits.found]
  dsimp only
  rw [run_emitBody]
  obtain ⟨opens, still, inside, problems⟩ :=
    awaits.opens forms sound configuration
  generalize (state.entering function header forms).marked
    (state.around configuration function) function = start at *
  have has := (sound.types.signature found).1
  have later := awaits.mono still.toExtends
    ((still.bodies function).1.trans awaits.noCode)
  rw [← inside] at later
  intro kept
  have passes := later.passesFrom
    ((TypeTable.forall₂_admits_iff still.types awaits.has).mpr admits)
  have gives : GivesBack start.builder
      (zeroResult state.module.types signature.result) := by
    refine ⟨signature, ?_, (zeroResult_eq sound.types still.types has).symm⟩
    rw [Builder.currentFunction, later.typed,
      (TypeTable.has_of_signature found).signature_eq still.types, found]
  have calls := opens.call? (state.around configuration function) written
    distinct passes gives
  rw [inside] at calls
  obtain ⟨-, value, means, called⟩ := calls (kept.trans problems.symm)
  exact ⟨value, means, called⟩

/-- The headers stay the same while bodies are emitted. -/
theorem headers_emitFunctions (configuration : Configuration)
    (headers : List FunctionHeader) (state : ModuleState) :
    ((emitFunctions configuration headers).run state).2.headers =
      state.headers := by
  induction headers generalizing state with
  | nil => rfl
  | cons header headers ih =>
      rw [run_emitFunctions_cons]
      cases header.body with
      | none => exact ih state
      | some body =>
          have first : ((emitFunction configuration header body).run
              state).2.headers = state.headers := by
            rw [run_emitFunction]
            split <;> rfl
          dsimp only
          generalize (emitFunction configuration header body).run state =
            outcome at first
          obtain ⟨result, later⟩ := outcome
          cases result with
          | error error => exact first
          | ok _ => exact (ih later).trans first

theorem resultType_eq {table : TypeTable} {type : TypeId}
    {signature : TypeTable.Signature}
    (found : table.signature? type = some signature) :
    resultType table type = signature.result := by
  rw [resultType, found]

/-- Of several functions emitted in order, one that waits for its code gives
back what the interpreter gives once all are emitted. -/
theorem ModuleState.Whole.call?_emitFunctions (whole : state.Whole)
    (configuration : Configuration) {before after : List FunctionHeader}
    (awaits : header.Awaits state.module function)
    (declared : ∀ other ∈ before ++ header :: after,
      other.Declared state.module)
    (apart : ∀ other ∈ before ++ after, other.name ≠ header.name)
    (ordinary : ¬IsThunkName header.name) (isBody : header.body = some forms)
    (written : List.Forall₂ Statement.Written body forms)
    (distinct : (header.parameters.map Prod.fst).Nodup)
    (admits : List.Forall₂ state.module.types.Admits header.parameters
      arguments) :
    let outcome := (emitFunctions configuration
      (before ++ header :: after)).run state
    outcome.1 = .ok () →
      (∀ problem ∈ outcome.2.problems, problem.function ≠ header.name) →
      ∃ value, meaning (header.parameters.map Prod.fst)
          (zeroResult outcome.2.module.types
            (resultType outcome.2.module.types header.type)) body arguments =
          some value ∧
        (outcome.2.module.function function).call? arguments = some value := by
  rw [List.forall_mem_append] at declared apart
  rw [List.forall_mem_cons] at declared
  rw [run_emitFunctions_append]
  obtain ⟨complete, -, grows⟩ :=
    whole_emitFunctions whole configuration before declared.1
  have leaves := whole.leaves_emitFunctions configuration declared.1
    awaits.found ordinary apart.1
  generalize (emitFunctions configuration before).run state = first at *
  obtain ⟨result, begun⟩ := first
  cases result with
  | error error => exact nofun
  | ok _ =>
  have whole := complete rfl
  have empty : (begun.module.function function).blocks = [] := by
    rw [← List.length_eq_zero_iff, (leaves rfl).1, awaits.noCode]
    rfl
  have begunAwaits := awaits.mono grows empty
  have here := declared.2.1.mono grows
  dsimp only
  rw [run_emitFunctions_cons, isBody]
  dsimp only
  obtain ⟨complete, -, growsOn⟩ :=
    whole_emitFunction whole configuration header here forms
  obtain ⟨problems, grown, named⟩ :=
    emitFunction_adds_problems configuration header forms begun
  obtain ⟨signature, found⟩ : ∃ signature,
      begun.module.types.signature? header.type = some signature := by
    have inside := Module.lt_of_function? begunAwaits.found
    rw [← begunAwaits.typed]
    exact Option.isSome_iff_exists.mp (whole.sound.functions _ inside).1
  have calls := begunAwaits.call? whole.sound configuration found written
    distinct ((TypeTable.forall₂_admits_iff grows.types awaits.has).mpr admits)
  generalize (emitFunction configuration header forms).run begun = second at *
  obtain ⟨result, middle⟩ := second
  cases result with
  | error error => exact nofun
  | ok _ =>
  have middleWhole := complete rfl
  have rest := whole_emitFunctions middleWhole configuration after
    fun other member =>
      ((declared.2.2 other member).mono grows).mono growsOn
  have leavesOn := middleWhole.leaves_emitFunctions configuration
    (fun other member =>
      ((declared.2.2 other member).mono grows).mono growsOn)
    (Module.Extends.function? growsOn begunAwaits.found) ordinary apart.2
  have kept := emitFunctions_keeps_problems configuration after middle
  dsimp only
  generalize (emitFunctions configuration after).run middle = last at *
  obtain ⟨result, final⟩ := last
  rintro rfl quiet
  -- A problem with the body would still be there in the end.
  have none : problems = [] := by
    rw [List.eq_nil_iff_forall_not_mem]
    intro problem member
    refine quiet problem (kept.subset ?_) (named problem member)
    rw [grown]
    exact List.mem_append_right _ member
  rw [none, List.append_nil] at grown
  obtain ⟨value, means, called⟩ := calls grown
  have toEnd := growsOn.types.trans rest.2.2.types
  have known := TypeTable.has_of_signature found
  refine ⟨value, ?_, (leavesOn rfl).call? middleWhole.sound called⟩
  rw [resultType_eq ((known.signature_eq toEnd).trans found),
    zeroResult_eq whole.sound.types toEnd
      (whole.sound.types.signature found).1]
  exact means

end Calls

/-- An emitted module was prepared, and then its bodies were emitted. -/
theorem run_of_emitted {configuration : Configuration} {form : Form}
    (done : (emitted configuration form).error = none) :
    let parts := (splitModule (form.list?.getD []).tail).1
    let prepared := (ModuleState.ofConfiguration configuration).prepared
      configuration parts
    (emitFunctions configuration prepared.headers).run prepared =
      (.ok (), (emitted configuration form).state) := by
  have runs := run_emitModule configuration form
    (.ofConfiguration configuration)
  unfold emitted at done ⊢
  generalize (emitModule configuration form).run
    (ModuleState.ofConfiguration configuration) = outcome at *
  obtain ⟨result, state⟩ := outcome
  cases result with
  | error error => cases done
  | ok _ =>
      obtain ⟨_, ⟨⟩⟩ | ⟨_, ⟨⟩⟩ | run := runs
      exact run.symm

/-- The headers of an emitted module are what some of its forms declare. -/
theorem isOf_of_emitted {configuration : Configuration} {form : Form}
    (done : (emitted configuration form).error = none) :
    ∃ functions : List Form, functions.Sublist
        (splitModule (form.list?.getD []).tail).1.declarations ∧
      List.Forall₂ FunctionHeader.IsOf
        (emitted configuration form).state.headers functions := by
  have run := run_of_emitted done
  dsimp only at run
  obtain ⟨functions, among, declared⟩ := ModuleState.announces_prepared
    (show (ModuleState.ofConfiguration configuration).headers = [] from rfl)
    configuration (splitModule (form.list?.getD []).tail).1
  generalize (ModuleState.ofConfiguration configuration).prepared
    configuration (splitModule (form.list?.getD []).tail).1 = prepared at *
  have stay := headers_emitFunctions configuration prepared.headers prepared
  rw [run] at stay
  exact ⟨functions, among, stay ▸ declared⟩

theorem isOf_of_length {configuration : Configuration} {form : Form}
    (done : (emitted configuration form).error = none)
    (count : (emitted configuration form).state.headers.length =
      (splitModule (form.list?.getD []).tail).1.declarations.length) :
    List.Forall₂ FunctionHeader.IsOf
      (emitted configuration form).state.headers
      (splitModule (form.list?.getD []).tail).1.declarations := by
  obtain ⟨functions, among, declared⟩ := isOf_of_emitted done
  rwa [← among.eq_of_length (declared.length_eq.symm.trans count)]

/-- A header that takes its place from a form has the body of the form. -/
theorem FunctionHeader.IsOf.body_eq {form : Form} {body : List Form}
    (isOf : header.IsOf form) (isSome : header.body.isSome = true)
    (written : (KeywordArguments.ofForm form).vector? "body" = some body) :
    header.body = some body := by
  obtain ⟨other, found⟩ := Option.isSome_iff_exists.mp isSome
  rw [found, ← isOf.body other found, written]

/-- Straight-line code means what the interpreter says.

In a module that is emitted, take a function that shares its name with no
other declared function and with no thunk of a closure, whose parameters are
integers with distinct names, and whose body consists of straight-line
statements in nested scopes.  If no problem names the function, then for all
arguments of the right widths its code returns what the interpreter of
statements returns. -/
theorem emitted_calls_give_meaning (configuration : Configuration)
    (form : Form) (done : (emitted configuration form).error = none)
    (header : FunctionHeader)
    (member : header ∈ (emitted configuration form).state.headers)
    (once : ((emitted configuration form).state.headers.map
      FunctionHeader.name).count header.name = 1)
    (ordinary : ¬IsThunkName header.name)
    (forms : List Form) (isBody : header.body = some forms)
    (body : List Statement)
    (written : List.Forall₂ Statement.Written body forms)
    (distinct : (header.parameters.map Prod.fst).Nodup)
    (quiet : ∀ problem ∈ (emitted configuration form).state.problems,
      problem.function ≠ header.name)
    (arguments : List Quantity)
    (admits : List.Forall₂
      (emitted configuration form).state.module.types.Admits
      header.parameters arguments) :
    let module := (emitted configuration form).state.module
    ∃ function value, module.function? header.name = some function ∧
      meaning (header.parameters.map Prod.fst)
          (zeroResult module.types (resultType module.types header.type))
          body arguments = some value ∧
      (module.function function).call? arguments = some value := by
  have run := run_of_emitted done
  dsimp only at run
  generalize (splitModule (form.list?.getD []).tail).1 = parts at run
  have fresh := ModuleState.whole_ofConfiguration configuration
  have bodies := ModuleState.bodies_ofConfiguration configuration
  have whole := fresh.prepared bodies configuration parts
  have awaits := ModuleState.awaits_prepared fresh bodies
    (ModuleState.blank_ofConfiguration configuration) configuration parts
  generalize (ModuleState.ofConfiguration configuration).prepared
    configuration parts = prepared at *
  generalize (emitted configuration form).state = final at *
  have stay :=
    headers_emitFunctions configuration prepared.headers prepared
  obtain ⟨-, -, grows⟩ := whole_emitFunctions whole configuration
    prepared.headers whole.headers
  rw [run] at stay grows
  dsimp only at stay grows
  rw [stay] at member once
  obtain ⟨function, waits⟩ := awaits header member once
  rw [TypeTable.forall₂_admits_iff grows.types waits.has] at admits
  have declared := whole.headers
  obtain ⟨before, after, split⟩ := List.append_of_mem member
  rw [split] at run once declared
  have apart : ∀ other ∈ before ++ after, other.name ≠ header.name := by
    intro other inside same
    have absent : ((before ++ after).map FunctionHeader.name).count
        header.name = 0 := by
      simp only [List.map_append, List.map_cons, List.count_append,
        List.count_cons_self] at once ⊢
      omega
    exact List.count_eq_zero.mp absent (same ▸ List.mem_map_of_mem inside)
  have calls := whole.call?_emitFunctions configuration waits declared apart
    ordinary isBody written distinct admits
  rw [run] at calls
  obtain ⟨value, means, called⟩ := calls rfl quiet
  exact ⟨function, value, Module.Extends.function? grows waits.found, means,
    called⟩

/-- A variable is increased in a scope of its own. -/
def increasingBody : List Form :=
  [Form.list [Form.symbol "as", Form.symbol "%v", Form.symbol "i32",
      .atom .empty (.int 3)],
    Form.list [Form.symbol "block", Form.vector
      [Form.list [Form.symbol "add", Form.symbol "%t", Form.symbol "i32",
          Form.symbol "%v", Form.symbol "%x"],
        Form.list [Form.symbol "assign", Form.symbol "%v",
          Form.symbol "%t"]]],
    Form.list [Form.symbol "ret", Form.symbol "i32", Form.symbol "%v"]]

def increasingStatements : List Statement :=
  [.declare "v" (.int 32) (.int 3),
    .block [] [.compute .add "t" 32 (.name "v") (.name "x"),
      .assign "v" "t"],
    .ret (.int 32) (.name "v")]

def increasingModule : Form :=
  Form.list [Form.symbol "module",
    Form.keywordCall "fn" [("name", Form.symbol "f"),
      ("ret", Form.symbol "i32"),
      ("params", Form.vector [Form.list [Form.symbol "param",
        Form.symbol "i32", Form.symbol "%x"]]),
      ("body", Form.vector increasingBody)]]

theorem isType_i32 : IsType (Form.symbol "i32") (.int 32) :=
  .symbol (show _ = some "i32" from rfl) (by decide)

theorem written_increasingBody :
    List.Forall₂ Statement.Written increasingStatements increasingBody := by
  have heads (head : String) (items : List Form) :
      (Form.list (Form.symbol head :: items)).Heads head items :=
    ⟨.empty, .empty, rfl⟩
  have three : IntLiteral.Written (.int 3) (.atom .empty (.int 3)) :=
    .int (show _ = some (3 : Int64) from rfl)
  refine .cons (.declare (heads "as" _) rfl isType_i32 three)
    (.cons (.block (heads "block" _) (.plain rfl) .nil (.cons (.compute
      (heads "add" _) rfl isType_i32 (.name rfl) (.name rfl)) (.cons (.assign
        (heads "assign" _) rfl rfl) .nil)))
      (.cons (.ret (heads "ret" _) isType_i32 (.name rfl)) .nil))

theorem emitted_calls_give_meaning_increasingModule :
    let module := (emitted {} increasingModule).state.module
    ∃ function value, module.function? "f" = some function ∧
      meaning ["x"] (some (.int 32 0)) increasingStatements [.int 32 4] =
        some value ∧
      value = some (.int 32 7) ∧
      (module.function function).call? [.int 32 4] = some value := by
  obtain ⟨done, shapes, silent, word⟩ :
      (emitted {} increasingModule).error = none ∧
      (emitted {} increasingModule).state.headers.map (fun header =>
        (header.name, header.parameters, header.body.isSome)) =
          [("f", [("x", ⟨0⟩)], true)] ∧
      (emitted {} increasingModule).state.problems = [] ∧
      (emitted {} increasingModule).state.module.types.kind ⟨0⟩ =
        .int 32 := by
    decide +kernel
  obtain ⟨header, headers, same⟩ := List.map_eq_singleton_iff.mp shapes
  rw [Prod.mk.injEq, Prod.mk.injEq] at same
  obtain ⟨named, parameters, isSome⟩ := same
  have member : header ∈ (emitted {} increasingModule).state.headers := by
    rw [headers]
    exact List.mem_singleton_self header
  have declared := isOf_of_length done (by rw [headers]; rfl)
  rw [headers] at declared
  have isBody : header.body = some increasingBody := by
    obtain _ | ⟨isOf, -⟩ := declared
    exact isOf.body_eq isSome rfl
  have ordinary : ¬IsThunkName header.name := by
    rw [named]
    unfold IsThunkName
    decide
  obtain ⟨function, value, found, means, called⟩ :=
    emitted_calls_give_meaning {} increasingModule done header member
      (by rw [headers]; simp) ordinary increasingBody isBody
      increasingStatements written_increasingBody
      (by rw [parameters]; decide) (by rw [silent]; nofun) [.int 32 4]
      (by rw [parameters]; exact .cons ⟨32, 4, word, rfl⟩ .nil)
  rw [parameters] at means
  rw [named] at found
  cases means
  exact ⟨function, _, found, rfl, rfl, called⟩

/-! ## Functions with the name of another one -/

/-- A body that returns a number. -/
def returningBody (value : Int64) : List Form :=
  [Form.list [Form.symbol "ret", Form.symbol "i32",
    .atom .empty (.int value)]]

def returningStatements (value : Int64) : List Statement :=
  [.ret (.int 32) (.numeral (.int value.toInt))]

theorem written_returningBody (value : Int64) :
    List.Forall₂ Statement.Written (returningStatements value)
      (returningBody value) :=
  .cons (.ret ⟨.empty, .empty, rfl⟩ isType_i32
    (.numeral (.int (show _ = some value from rfl)))) .nil

/-- A function without parameters that returns a number. -/
def returningFunction (name : String) (value : Int64) : Form :=
  Form.keywordCall "fn" [("name", Form.symbol name),
    ("ret", Form.symbol "i32"), ("body", Form.vector (returningBody value))]

/-- Two functions of one name. -/
def doubledModule : Form :=
  Form.list [Form.symbol "module", returningFunction "f" 1,
    returningFunction "f" 2]

/-- A function with the name of the thunk of a closure. -/
def thunkNamedModule : Form :=
  Form.list [Form.symbol "module",
    Form.keywordCall "fn" [("name", Form.symbol "g"),
      ("ret", Form.symbol "i32"),
      ("params", Form.vector [Form.list [Form.symbol "param",
        Form.symbol "i32", Form.symbol "%e"]]),
      ("body", Form.vector [Form.list [Form.symbol "ret",
        Form.symbol "i32", Form.symbol "%e"]])],
    Form.keywordCall "fn" [("name", Form.symbol "h"),
      ("params", Form.vector [Form.list [Form.symbol "param",
        Form.symbol "i32", Form.symbol "%x"]]),
      ("body", Form.vector [Form.list [Form.symbol "closure",
        Form.symbol "%c", Form.list [Form.symbol "ptr",
          Form.keywordCall "fn-type" [("params", Form.vector []),
            ("ret", Form.symbol "i32")]],
        Form.symbol "g", Form.vector [Form.symbol "%x"]]])],
    returningFunction "__edn.closure.thunk.g.0" 7]

/-- Of two functions of one name, the code of the first runs in place of the
second.  The code of a thunk, which starts with the value of a global, runs in
place of a function that has its name. -/
theorem calls_of_shared_names :
    ((emitted {} doubledModule).error = none ∧
      (emitted {} doubledModule).state.problems = [] ∧
      let module := (emitted {} doubledModule).state.module
      ∃ header ∈ (emitted {} doubledModule).state.headers,
        header.body = some (returningBody 2) ∧ header.parameters = [] ∧
        module.function? header.name = some 0 ∧
        (∀ fallback, meaning [] fallback (returningStatements 2) [] =
          some (some (.int 32 2))) ∧
        (module.function 0).call? [] = some (some (.int 32 1))) ∧
    ((emitted {} thunkNamedModule).error = none ∧
      (emitted {} thunkNamedModule).state.problems = [] ∧
      let module := (emitted {} thunkNamedModule).state.module
      ∃ header ∈ (emitted {} thunkNamedModule).state.headers,
        header.body = some (returningBody 7) ∧ header.parameters = [] ∧
        module.function? header.name = some 2 ∧
        (∀ fallback, meaning [] fallback (returningStatements 7) [] =
          some (some (.int 32 7))) ∧
        (module.function 2).call? [] = none) := by
  obtain ⟨doubled, fine, two, first, returned⟩ :
      (emitted {} doubledModule).error = none ∧
      (emitted {} doubledModule).state.problems = [] ∧
      (emitted {} doubledModule).state.headers.map (fun header =>
        (header.name, header.parameters.length, header.body.isSome)) =
          [("f", 0, true), ("f", 0, true)] ∧
      (emitted {} doubledModule).state.module.function? "f" = some 0 ∧
      ((emitted {} doubledModule).state.module.function 0).call? [] =
        some (some (.int 32 1)) := by
    decide +kernel
  obtain ⟨thunkNamed, alsoFine, three, third, stuck⟩ :
      (emitted {} thunkNamedModule).error = none ∧
      (emitted {} thunkNamedModule).state.problems = [] ∧
      (emitted {} thunkNamedModule).state.headers.map (fun header =>
        (header.name, header.parameters.length, header.body.isSome)) =
          [("g", 1, true), ("h", 1, true),
            ("__edn.closure.thunk.g.0", 0, true)] ∧
      (emitted {} thunkNamedModule).state.module.function?
        "__edn.closure.thunk.g.0" = some 2 ∧
      ((emitted {} thunkNamedModule).state.module.function 2).call? [] =
        none := by
    decide +kernel
  refine ⟨⟨doubled, fine, ?_⟩, thunkNamed, alsoFine, ?_⟩
  · have declared := isOf_of_length doubled
      (((List.length_map _).symm.trans (congrArg List.length two)).trans rfl)
    generalize (emitted {} doubledModule).state.headers = headers at *
    obtain _ | ⟨-, _ | ⟨isOf, _ | _⟩⟩ := declared
    simp only [List.map_cons, List.cons.injEq, Prod.mk.injEq] at two
    obtain ⟨-, ⟨named, parameters, isSome⟩, -⟩ := two
    rw [← named] at first
    exact ⟨_, by simp, isOf.body_eq isSome rfl,
      List.length_eq_zero_iff.mp parameters, first, fun _ => rfl, returned⟩
  · have declared := isOf_of_length thunkNamed
      (((List.length_map _).symm.trans (congrArg List.length three)).trans
        rfl)
    generalize (emitted {} thunkNamedModule).state.headers = headers at *
    obtain _ | ⟨-, _ | ⟨-, _ | ⟨isOf, _ | _⟩⟩⟩ := declared
    simp only [List.map_cons, List.cons.injEq, Prod.mk.injEq] at three
    obtain ⟨-, -, ⟨named, parameters, isSome⟩, -⟩ := three
    rw [← named] at third
    exact ⟨_, by simp, isOf.body_eq isSome rfl,
      List.length_eq_zero_iff.mp parameters, third, fun _ => rfl, stuck⟩

end FormCompiler
