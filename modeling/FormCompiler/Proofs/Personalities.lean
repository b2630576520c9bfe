import FormCompiler.Ir.Printer
import FormCompiler.Proofs.EmittedModules
import FormCompiler.Proofs.FunctionEffects

/-!
# Personalities of emitted modules

A module is emitted under one personality or none.  Declarations add no code,
a function names its personality before its body is emitted, and the body
keeps the module guarded.  So whatever a module is emitted from, exceptions
are handled by the instructions of its personality only, calls unwind to pads
of their own function, nothing else leads to a pad, and the functions that
have bodies are marked for unwinding exactly where there is a personality.
-/

namespace FormCompiler

open Ir

/-! ## Functions with the same code -/

namespace Ir.Module

variable {module later : Module} {personality : Option Personality}

/-- No function changes its blocks. -/
def SameCode (module later : Module) : Prop :=
  ∀ id, (later.function id).blocks = (module.function id).blocks

theorem SameCode.performs (same : module.SameCode later) (id : BlockId)
    (operation : Operation) :
    later.Performs id operation ↔ module.Performs id operation := by
  rw [Performs, Performs, Function.Performs, Function.Performs,
    same id.function]

theorem SameCode.isPad (same : module.SameCode later) (id : BlockId) :
    later.IsPad id ↔ module.IsPad id := by
  simp only [IsPad, same.performs]

theorem SameCode.isCleanup (same : module.SameCode later) (id : BlockId) :
    later.IsCleanup id ↔ module.IsCleanup id := by
  simp only [IsCleanup, same.performs]

theorem SameCode.respects (same : module.SameCode later) :
    module.Respects later := by
  refine ⟨fun id => (same.isPad id).mpr, fun id isTarget => ⟨?_, ?_⟩⟩
  · rw [block?_eq, same id.function, ← block?_eq]
    exact isTarget.1
  · rw [same.isPad]
    exact isTarget.2

theorem SameCode.guarded (same : module.SameCode later)
    (guarded : module.Guarded personality) : later.Guarded personality :=
  fun id operation performs =>
    (guarded id operation ((same.performs id operation).mp performs)).mono
      same.respects

end Ir.Module

/-! ## Marking functions -/

/-- A function has a routine that unwinds it and an unwind table. -/
def Ir.Function.IsMarked (function : Function) : Prop :=
  function.unwinding.1.isSome = true ∧ function.unwinding.2 = true

namespace Ir.Module

variable {module later last : Module} {personality : Personality}

/-- Functions stay where they are, and marked ones stay marked. -/
structure Continues (module later : Module) : Prop where
  names : module.functions.map Function.name <+:
    later.functions.map Function.name
  marks : ∀ id, (module.function id).IsMarked → (later.function id).IsMarked

theorem Continues.refl (module : Module) : module.Continues module :=
  ⟨List.prefix_refl _, fun _ marked => marked⟩

theorem Continues.trans (first : module.Continues later)
    (second : later.Continues last) : module.Continues last :=
  ⟨first.names.trans second.names,
    fun id marked => second.marks id (first.marks id marked)⟩

/-- A function is found where it was. -/
theorem Continues.function? (continues : module.Continues later)
    {name : String} {id : FunctionId}
    (found : module.function? name = some id) :
    later.function? name = some id :=
  function?_of_names continues.names found

theorem Continues.of_unwinding
    (names : module.functions.map Function.name <+:
      later.functions.map Function.name)
    (unwinding : ∀ id,
      (later.function id).unwinding = (module.function id).unwinding) :
    module.Continues later := by
  refine ⟨names, fun id marked => ?_⟩
  rw [Function.IsMarked, unwinding id]
  exact marked

theorem Flows.continues {added : List (BlockId × Operation)}
    (flows : module.Flows added later) : module.Continues later :=
  .of_unwinding flows.names fun id => (flows.functions id).unwinding

theorem computes_declarePersonality (personality : Personality) :
    Computes (declarePersonality personality) := by
  refine .bind (computes_of_functions_eq fun _ => rfl) fun word => ?_
  refine .bind (computes_of_functions_eq fun _ => rfl) fun type => ?_
  exact computes_addFunction _ type .external

/-- What marking a function does. -/
structure Marks (function : FunctionId) (module later : Module) : Prop where
  flows : ∃ declared, module.Flows [] declared ∧ declared.SameCode later
  continues : module.Continues later
  marked : function < module.functions.length →
    (later.function function).IsMarked

/-- The function once it names a routine and has an unwind table. -/
def markedWith (routine : FunctionId) (function : Function) : Function :=
  { function with
    personality := some routine
    attributes := function.attributes ++ Attribute.all.filter fun added =>
      [Attribute.unwindTable].contains added &&
        !function.attributes.contains added }

theorem isMarked_markedWith (routine : FunctionId) (function : Function) :
    (markedWith routine function).IsMarked := by
  refine ⟨rfl, ?_⟩
  cases found : function.attributes.contains .unwindTable <;>
    simp_all [Function.unwinding, markedWith, Attribute.all]

theorem function_mark (routine function : FunctionId) (module : Module)
    (id : FunctionId) :
    (addAttributes function [.unwindTable]
        (setPersonality function routine module).2).2.function id =
      if id = function ∧ function < module.functions.length then
        markedWith routine (module.function id)
      else module.function id := by
  have length : (setPersonality function routine module).2.functions.length =
      module.functions.length :=
    List.length_modify _ _ _
  unfold addAttributes
  rw [function_modifyFunction, length]
  unfold setPersonality
  rw [function_modifyFunction]
  split <;> rfl

theorem names_mark (routine function : FunctionId) (module : Module) :
    (addAttributes function [.unwindTable]
        (setPersonality function routine module).2).2.functions.map
          Function.name = module.functions.map Function.name := by
  have named : (setPersonality function routine module).2.functions.map
      Function.name = module.functions.map Function.name := by
    refine map_modify_eq ?_ module.functions function
    exact fun _ => rfl
  refine Eq.trans (map_modify_eq ?_ _ function) named
  exact fun _ => rfl

theorem marks_marked (personality : Personality) (function : FunctionId)
    (module : Module) :
    module.Marks function (module.marked personality function) := by
  have flows := computes_declarePersonality personality module
  unfold marked
  generalize declarePersonality personality module = outcome at flows ⊢
  obtain ⟨routine, declared⟩ := outcome
  have changes := function_mark routine function declared
  refine ⟨⟨declared, flows, fun id => ?_⟩, flows.continues.trans ⟨?_, ?_⟩, ?_⟩
  · rw [changes]
    split <;> rfl
  · exact (names_mark _ _ _).symm ▸ List.prefix_refl _
  · intro id marked
    rw [changes]
    split
    · exact isMarked_markedWith routine _
    · exact marked
  · intro known
    rw [changes, if_pos ⟨rfl, known.trans_le flows.count⟩]
    exact isMarked_markedWith routine _

end Ir.Module

/-! ## Bodies -/

namespace EmitState

variable {environment : Environment} {function : FunctionId}
  {state : EmitState}

/-- Nothing was emitted into the current function yet. -/
structure Begins (environment : Environment) (function : FunctionId)
    (state : EmitState) : Prop where
  module : state.builder.module.Guarded environment.configuration.personality
  inside : state.builder.function = function
  known : function < state.builder.module.functions.length
  block : state.builder.block = none
  loops : state.context.loops = []
  targets : state.unwindTargets = {}

theorem marked_cases (environment : Environment) (function : FunctionId)
    (state : EmitState) :
    environment.configuration.personality = none ∧
        state.marked environment function = state ∨
      ∃ later, environment.configuration.personality.isSome = true ∧
        state.builder.module.Marks function later ∧
        state.marked environment function =
          { state with builder := { state.builder with module := later } } := by
  unfold marked
  cases environment.configuration.personality with
  | none => exact .inl ⟨rfl, rfl⟩
  | some personality =>
      exact .inr ⟨_, rfl, Module.marks_marked personality function _, rfl⟩

theorem Begins.guarded (begins : state.Begins environment function) :
    state.Guarded environment := by
  refine ⟨begins.module, begins.inside ▸ begins.known, ?_, ?_, ?_⟩
  · rw [begins.block]
    nofun
  · rw [begins.loops]
    exact List.forall_mem_nil _
  · rw [begins.targets]
    exact List.forall_mem_nil _

theorem Begins.guarded_marked (begins : state.Begins environment function) :
    (state.marked environment function).Guarded environment := by
  rcases marked_cases environment function state with
    ⟨-, same⟩ | ⟨later, -, marks, same⟩
  · rw [same]
    exact begins.guarded
  · rw [same]
    obtain ⟨declared, flows, sameCode⟩ := marks.flows
    have guarded : later.Guarded environment.configuration.personality :=
      sameCode.guarded (begins.module.flows flows (flows.respects (by simp))
        (by simp))
    have known : function < later.functions.length :=
      begins.known.trans_le (by simpa using marks.continues.names.length_le)
    refine Begins.guarded ⟨guarded, begins.inside, known, begins.block,
      begins.loops, begins.targets⟩

end EmitState

/-- What emitting a body does to the module. -/
structure BodyEffect (environment : Environment) (function : FunctionId)
    (state later : EmitState) : Prop where
  guarded : later.builder.module.Guarded environment.configuration.personality
  continues : state.builder.module.Continues later.builder.module
  marked : environment.configuration.personality.isSome = true →
    (later.builder.module.function function).IsMarked
  unmarked : environment.configuration.personality = none → ∀ id,
    (later.builder.module.function id).unwinding =
      (state.builder.module.function id).unwinding

theorem bodyEffect_emitBody (header : FunctionHeader) (body : List Form)
    {environment : Environment} {function : FunctionId} {state : EmitState}
    (begins : state.Begins environment function) :
    BodyEffect environment function state
      ((emitBody function header body).run environment state).2 := by
  rw [run_emitBody]
  have keeps := keeps_emitCode function header body environment
    (state.marked environment function)
  have guarded := keeps.guarded begins.guarded_marked (List.forall_mem_nil _)
  have follows := keeps.follows
  generalize ((emitCode function header body).run environment
    (state.marked environment function)).2 = last at guarded follows ⊢
  have unwinding := follows.unwinding
  have rest : (state.marked environment function).builder.module.Continues
      last.builder.module := .of_unwinding follows.names unwinding
  rcases EmitState.marked_cases environment function state with
    ⟨none, same⟩ | ⟨later, isSome, marks, same⟩
  · rw [same] at rest unwinding
    exact ⟨guarded.module, rest, fun some => absurd some (by simp [none]),
      fun _ => unwinding⟩
  · rw [same] at rest
    refine ⟨guarded.module, marks.continues.trans rest, fun _ => ?_,
      fun none => absurd isSome (by simp [none])⟩
    exact rest.marks function (marks.marked begins.known)

/-- One block at most is added to the module that cleans up. -/
theorem cleanup_unique (environment : Environment) (function : FunctionId)
    (header : FunctionHeader) (body : List Form) (state : EmitState)
    {id other : BlockId} :
    let later := ((emitBody function header body).run environment state).2
    (later.builder.module.IsCleanup id ∧
      ¬state.builder.module.IsCleanup id) →
    (later.builder.module.IsCleanup other ∧
      ¬state.builder.module.IsCleanup other) → id = other := by
  rw [run_emitBody]
  have follows := (keeps_emitCode function header body environment
    (state.marked environment function)).follows
  generalize ((emitCode function header body).run environment
    (state.marked environment function)).2 = last at follows
  have old (id : BlockId) :
      (state.marked environment function).builder.module.IsCleanup id →
        state.builder.module.IsCleanup id := by
    rcases EmitState.marked_cases environment function state with
      ⟨-, same⟩ | ⟨later, -, marks, same⟩
    · rw [same]
      exact fun cleanup => cleanup
    · rw [same]
      obtain ⟨declared, flows, sameCode⟩ := marks.flows
      intro cleanup
      have before := (sameCode.isCleanup id).mp cleanup
      simpa using flows.isCleanup before
  rintro later ⟨cleanup, new⟩ ⟨otherCleanup, otherNew⟩
  have first := (follows.cleanups id cleanup).resolve_left
    fun before => new (old id before)
  have second := (follows.cleanups other otherCleanup).resolve_left
    fun before => otherNew (old other before)
  exact Option.some.inj (first.2.symm.trans second.2)

/-! ## Declarations -/

namespace ModuleState

variable {configuration : Configuration} {state later : ModuleState}

/-- The module is guarded, and without a personality no function is
marked. -/
structure Guards (configuration : Configuration) (state : ModuleState) :
    Prop where
  module : state.module.Guarded configuration.personality
  unmarked : configuration.personality = none → ∀ id,
    (state.module.function id).unwinding = (none, false)

/-- Functions may be added that have no code. -/
def Declares (state later : ModuleState) : Prop :=
  state.module.Flows [] later.module

instance : Std.Refl Declares := ⟨fun state => .refl state.module⟩

instance : Trans Declares Declares Declares :=
  ⟨fun first second => Module.Flows.trans first second⟩

theorem Guards.declares (guards : state.Guards configuration)
    (declares : state.Declares later) : later.Guards configuration := by
  refine ⟨guards.module.flows declares (declares.respects (by simp))
    (by simp), fun none id => ?_⟩
  exact (declares.functions id).unwinding.trans (guards.unmarked none id)

theorem guards_ofConfiguration (configuration : Configuration) :
    (ofConfiguration configuration).Guards configuration := by
  have functions : (ofConfiguration configuration).module.functions = [] := by
    unfold ofConfiguration Module.setTriple
    split <;> rfl
  have missing (id : FunctionId) :
      (ofConfiguration configuration).module.function id = default := by
    rw [Module.function, functions]
    rfl
  refine ⟨?_, fun _ id => ?_⟩
  · rintro id operation ⟨block, found, -⟩
    rw [missing] at found
    cases found
  · rw [missing]
    rfl

theorem declares_onModule {Result : Type} {operation : StateM Module Result}
    (computes : Module.Computes operation) :
    Relates Declares (onModule operation) :=
  fun state => computes state.module

/-- Everything but the functions of the module may change. -/
theorem declares_modify {change : ModuleState → ModuleState}
    (same : ∀ state,
      (change state).module.functions = state.module.functions) :
    Relates Declares (modify change) :=
  fun state => .of_functions_eq (same state)

theorem declares_reading {Result : Type} (operation : String)
    (span : Option Span) (reader : TypeReader Result) :
    Relates Declares (reading operation span reader) := by
  refine .bind (declares_onModule
    (Module.computes_of_functions_eq fun _ => rfl)) fun outcome => ?_
  split
  · exact .pure _
  · exact .bind (declares_modify fun _ => rfl) fun _ => .pure none

theorem declares_declareGlobal (form : Form) :
    Relates Declares (declareGlobal form) := by
  unfold declareGlobal
  dsimp only
  split
  · refine .bind (declares_reading _ _ _) fun type => ?_
    split
    · exact .pure ()
    · refine .get_bind fun seen => ?_
      exact .bind (declares_onModule (Module.computes_addGlobal _ _ _ _ _))
        fun _ => .pure ()
  · exact declares_modify fun _ => rfl

theorem declares_declareHeader (form : Form) :
    Relates Declares (declareHeader form) := by
  refine .bind (declares_reading _ _ _) fun header => ?_
  split
  · exact .pure ()
  · exact .bind (declares_onModule (Module.computes_addFunction _ _ _))
      fun _ => declares_modify fun _ => rfl

theorem declares_declare (form : Form) : Relates Declares (declare form) := by
  unfold declare
  split
  · exact declares_declareGlobal form
  · exact declares_declareHeader form
  · exact .ite (.pure ()) (declares_modify fun _ => rfl)

end ModuleState

/-! ## Functions of a module -/

section Functions

variable {configuration : Configuration} {state : ModuleState}

/-- A function is there, and it is marked if there is a personality. -/
def ModuleState.HasMarked (configuration : Configuration)
    (state : ModuleState) (name : String) : Prop :=
  ∃ id, state.module.function? name = some id ∧
    (configuration.personality.isSome = true →
      (state.module.function id).IsMarked)

/-- Functions stay where they are, and no more are to be emitted. -/
structure ModuleState.GoesOn (state later : ModuleState) : Prop where
  module : state.module.Continues later.module
  headers : later.headers = state.headers

instance : Std.Refl ModuleState.GoesOn :=
  ⟨fun state => ⟨.refl state.module, rfl⟩⟩

instance : Trans ModuleState.GoesOn ModuleState.GoesOn ModuleState.GoesOn :=
  ⟨fun first second => ⟨first.module.trans second.module,
    second.headers.trans first.headers⟩⟩

theorem ModuleState.HasMarked.mono {later : ModuleState} {name : String}
    (has : state.HasMarked configuration name) (goesOn : state.GoesOn later) :
    later.HasMarked configuration name := by
  obtain ⟨id, found, marked⟩ := has
  exact ⟨id, goesOn.module.function? found, fun isSome =>
    goesOn.module.marks id (marked isSome)⟩

theorem attempts_emitFunction (guards : state.Guards configuration)
    (header : FunctionHeader) (body : List Form) :
    Attempts (ModuleState.Guards configuration) ModuleState.GoesOn state
      (emitFunction configuration header body)
      fun later _ => later.HasMarked configuration header.name := by
  cases found : state.module.function? header.name with
  | none =>
      have run : (emitFunction configuration header body).run state =
          (.error (.unknownFunction header.name), state) := by
        rw [run_emitFunction, found]
      refine ⟨?_, ?_, ?_⟩
      · rw [run]
        exact guards
      · rw [run]
        exact Std.Refl.refl state
      · rw [run]
        rintro _ ⟨⟩
  | some function =>
      have begins : (state.entering function header body).Begins
          (state.around configuration function) function :=
        ⟨guards.module, rfl, Module.lt_of_function? found, rfl, rfl, rfl⟩
      have effect := bodyEffect_emitBody header body begins
      have run : (emitFunction configuration header body).run state =
          let outcome := (emitBody function header body).run
            (state.around configuration function)
            (state.entering function header body)
          (outcome.1, state.leaving outcome.2) := by
        rw [run_emitFunction, found]
      generalize (emitBody function header body).run
        (state.around configuration function)
        (state.entering function header body) = outcome at effect run
      have goesOn : state.GoesOn (state.leaving outcome.2) :=
        ⟨effect.continues, rfl⟩
      refine ⟨?_, ?_, ?_⟩
      · rw [run]
        refine ⟨effect.guarded, fun none id => ?_⟩
        exact (effect.unmarked none id).trans (guards.unmarked none id)
      · rw [run]
        exact goesOn
      · rw [run]
        rintro _ -
        exact ⟨function, goesOn.module.function? found, effect.marked⟩

/-- All functions with bodies are marked if there is a personality. -/
theorem attempts_emitFunctions (guards : state.Guards configuration)
    (headers : List FunctionHeader) :
    Attempts (ModuleState.Guards configuration) ModuleState.GoesOn state
      (emitFunctions configuration headers)
      fun later _ => ∀ header ∈ headers, header.body.isSome = true →
        later.HasMarked configuration header.name := by
  induction headers generalizing state with
  | nil => exact .pure guards (List.forall_mem_nil _)
  | cons header headers ih =>
      unfold emitFunctions
      cases isBody : header.body with
      | none =>
          refine (ih guards).weaken fun later _ rest => ?_
          exact List.forall_mem_cons.mpr
            ⟨fun isSome => absurd isSome (by simp [isBody]), rest⟩
      | some body =>
          refine (attempts_emitFunction guards header body).bind
            fun later _ laterGuards _ has => ?_
          refine Preserves.imp (ih laterGuards)
            fun last _ _ goesOn rest result done => ?_
          exact List.forall_mem_cons.mpr
            ⟨fun _ => has.mono goesOn, rest result done⟩

end Functions

/-! ## Modules -/

namespace ModuleState

variable {configuration : Configuration} {state : ModuleState}

/-- Every function with a body is there, and marked if there is a
personality. -/
def AllMarked (configuration : Configuration) (state : ModuleState) : Prop :=
  ∀ header ∈ state.headers, header.body.isSome = true →
    state.HasMarked configuration header.name

theorem Guards.setting (guards : state.Guards configuration)
    (settings : List (String × Form)) :
    (state.setting settings).Guards configuration := by
  refine guards.declares (declares_modify (fun state => ?_) state)
  obtain ⟨name, same⟩ := state.setting_eq settings
  rw [same]
  rfl

theorem Guards.declaring (guards : state.Guards configuration)
    (forms : List Form) : (state.declaring forms).Guards configuration := by
  induction forms generalizing state with
  | nil => exact guards
  | cons form forms ih => exact ih (guards.declares (declares_declare form _))

theorem Guards.prepared (guards : state.Guards configuration)
    (parts : ModuleParts) :
    (state.prepared configuration parts).Guards configuration := by
  have laysOut : Relates Declares (layOutModule parts.declarations) :=
    declares_modify fun _ => rfl
  have declared := ((guards.setting parts.settings).declares
    (laysOut _)).declaring parts.declarations
  exact preparing_cases declared (fun personality => declared.declares
    (declares_onModule (Module.computes_declarePersonality personality) _)) _

/-- A module stays guarded, and all its functions are marked unless it
fails. -/
theorem guards_emitModule (guards : state.Guards configuration)
    (form : Form) :
    let outcome := (emitModule configuration form).run state
    outcome.2.Guards configuration ∧
      (outcome.1 = .ok () → outcome.2.AllMarked configuration) := by
  rcases run_emitModule configuration form state with
    ⟨text, run⟩ | ⟨text, run⟩ | run
  · rw [run]
    exact ⟨guards, nofun⟩
  · rw [run]
    exact ⟨guards.setting _, nofun⟩
  · have prepared := guards.prepared (splitModule (form.list?.getD []).tail).1
    have attempts := attempts_emitFunctions prepared
      (state.prepared configuration
        (splitModule (form.list?.getD []).tail).1).headers
    rw [run]
    refine ⟨attempts.holds, fun done => ?_⟩
    rw [AllMarked, attempts.follows.headers]
    exact attempts.good () done

/-- What emitting a module leaves, whether it fails or not. -/
theorem guards_emitted (configuration : Configuration) (form : Form) :
    (emitted configuration form).state.Guards configuration :=
  (guards_emitModule (guards_ofConfiguration configuration) form).1

theorem allMarked_emitted {configuration : Configuration} {form : Form}
    (done : (emitted configuration form).error = none) :
    (emitted configuration form).state.AllMarked configuration := by
  have emits := guards_emitModule (guards_ofConfiguration configuration) form
  apply emits.2
  unfold emitted at done
  generalize (emitModule configuration form).run
    (ofConfiguration configuration) = outcome at *
  obtain ⟨result, state⟩ := outcome
  cases result with
  | ok _ => rfl
  | error error => cases done

end ModuleState

/-- Exceptions are handled by the personality of a module.

Whatever is emitted, operations on exceptions are those of the personality; a
call that may unwind does so to a pad of its own function; and no branch, no
return from a handler and no call that returns leads to a pad.  Once a module
is emitted, the functions with bodies have a routine that unwinds them and an
unwind table exactly where there is a personality.  The emission of one body
adds one block at most that cleans up for its function. -/
theorem emitted_exceptions (configuration : Configuration) (form : Form) :
    let personality := configuration.personality
    let state := (emitted configuration form).state
    (∀ id operation, state.module.Performs id operation →
      operation.allowedUnder personality = true ∧
      (∀ target, operation.unwindsTo = some target →
        target.function = id.function ∧ state.module.IsPad target) ∧
      ∀ target ∈ operation.leadsTo, ¬state.module.IsPad target) ∧
    ((emitted configuration form).error = none →
      ∀ header ∈ state.headers, header.body.isSome = true →
        ∃ id, state.module.function? header.name = some id ∧
          (state.module.function id).personality.isSome =
            personality.isSome ∧
          (state.module.function id).attributes.contains .unwindTable =
            personality.isSome) ∧
    ∀ environment function header body start,
      let later := ((emitBody function header body).run environment start).2
      ∀ id other,
        later.builder.module.IsCleanup id →
        ¬start.builder.module.IsCleanup id →
        later.builder.module.IsCleanup other →
        ¬start.builder.module.IsCleanup other → id = other := by
  intro personality state
  have guards := ModuleState.guards_emitted configuration form
  refine ⟨?_, ?_, ?_⟩
  · intro id operation performs
    obtain ⟨allowed, unwinds, leads⟩ := guards.module id operation performs
    exact ⟨allowed, unwinds, fun target member => (leads target member).2⟩
  · intro done header member isBody
    obtain ⟨id, found, marked⟩ :=
      ModuleState.allMarked_emitted done header member isBody
    refine ⟨id, found, ?_⟩
    cases isSome : personality with
    | none =>
        have unmarked := guards.unmarked isSome id
        exact ⟨congrArg (·.1.isSome) unmarked, congrArg (·.2) unmarked⟩
    | some _ => exact marked (Option.isSome_of_eq_some isSome)
  · intro environment function header body start later id other cleanup new
      otherCleanup otherNew
    exact cleanup_unique environment function header body start
      ⟨cleanup, new⟩ ⟨otherCleanup, otherNew⟩

/-! ## Calls through pointers -/

/-- Calls through pointers and of closures do not unwind to a handler, under
any personality and whatever handlers are around them: nothing that unwinds
is added to the module. -/
theorem indirect_calls_add_no_unwinding (environment : Environment)
    (state : EmitState) (items : List Form) :
    ∀ handler ∈ [emitCallIndirect items, emitCallClosure items],
      let later := (handler.run environment state).2
      ∀ id operation, operation.unwindsTo.isSome = true →
        later.builder.module.Performs id operation →
        state.builder.module.Performs id operation := by
  intro handler member later id operation unwinds performs
  have flows : state.builder.module.Flows [] later.builder.module := by
    rcases List.mem_cons.mp member with rfl | member
    · exact (tries_emitCallIndirect items environment state).builder.module
    · cases List.mem_singleton.mp member
      exact (tries_emitCallClosure items environment state).builder.module
  have notPlain : operation.isPlain = false := by
    cases operation <;> simp_all [Operation.unwindsTo, Operation.isPlain]
  exact (flows.new notPlain performs).resolve_right List.not_mem_nil

/-- A call with a landing pad around it. -/
theorem callIndirect_adds_no_unwinding :
    let environment : Environment :=
      ⟨{ wantsItanium := true, exceptionsEnabled := true }, {}, "f"⟩
    let state : EmitState :=
      { builder := { module := { name := "edn" }, function := 0 }
        unwindTargets := { landingPads := [⟨0, 0⟩] } }
    let later := ((emitCallIndirect [Form.symbol "call-indirect",
      Form.symbol "%r", Form.symbol "i32", Form.symbol "%f"]).run
        environment state).2
    environment.configuration.personality = some .itanium ∧
      ∀ id operation, operation.unwindsTo.isSome = true →
        later.builder.module.Performs id operation →
        state.builder.module.Performs id operation :=
  ⟨rfl, indirect_calls_add_no_unwinding _ _ _ _ List.mem_cons_self⟩

/-- A module whose only function calls its parameter in the body of a
`try`. -/
def guardedIndirectCall : Form :=
  Form.list [Form.symbol "module",
    Form.keywordCall "fn" [("name", Form.symbol "f"),
      ("ret", Form.symbol "i32"),
      ("params", Form.vector [Form.list [Form.symbol "param",
        Form.list [Form.symbol "ptr",
          Form.keywordCall "fn-type" [("params", Form.vector []),
            ("ret", Form.symbol "i32")]],
        Form.symbol "%f"]]),
      ("body", Form.vector [
        Form.keywordCall "try" [
          ("body", Form.vector [Form.list [Form.symbol "call-indirect",
            Form.symbol "%r", Form.symbol "i32", Form.symbol "%f"]]),
          ("catch", Form.vector [])]])]]

/-- The call is in the body of the `try`, and it does not unwind to the
landing pad that is there. -/
theorem guardedIndirectCall_is_no_invoke :
    let configuration : Configuration :=
      { wantsItanium := true, exceptionsEnabled := true }
    let emitted := emitted configuration guardedIndirectCall
    configuration.personality = some .itanium ∧ emitted.error = none ∧
      emitted.state.problems.isEmpty = true ∧
      emitted.state.module.lines =
        ["; ModuleID = 'edn'", "",
          "define i32 @f(ptr %f) #\x7buwtable(2)\x7d " ++
            "personality ptr @__gxx_personality_v0 \x7b",
          "entry:", "  br label %try.body.0", "",
          "try.body.0:", "  %r = call i32 %f()", "  br label %try.end.0", "",
          "try.lpad.0:", "  %lpad = landingpad \x7b ptr, i32 \x7d",
          "          catch ptr null", "  br label %try.handler.0", "",
          "try.handler.0:", "  br label %try.end.0", "",
          "try.end.0:", "  ret i32 0", "\x7d", "",
          "declare i32 @__gxx_personality_v0(...)"] := by
  intro configuration emitted
  refine ⟨?_, ?_, ?_, ?_⟩ <;> decide +kernel

end FormCompiler
