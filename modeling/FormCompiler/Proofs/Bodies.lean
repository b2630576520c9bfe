import FormCompiler.Emit.Body
import FormCompiler.Proofs.Completion

/-!
# Bodies of functions

Every form owes nothing in the end that was not owed before, however deep it
nests, whether it is understood or not.  So when the body of a function has
been emitted and its last block has got a default return, every block has an
end, and when the edges of phis are added, every match is joined.
-/

namespace FormCompiler

open Ir

open EmitState (Stage IsTarget)

variable {scene : Scene} {origin state : EmitState} {owed : List BlockId}
  {known : EmitState → Prop} {emit : FormEmitter}

/-! ## Forms of any depth -/

theorem orderly_dispatch (advances : ∀ form, Advances scene (emit form))
    (opcode : Opcode) (items : List Form) :
    Orderly scene (dispatch emit opcode items) := by
  cases opcode with
  | conditional => exact orderly_emitConditional advances items
  | whileLoop => exact orderly_emitWhile advances items
  | forLoop => exact orderly_emitFor advances items
  | switch => exact orderly_emitSwitch advances items
  | sumMatch => exact orderly_emitMatch advances items
  | breakLoop => exact orderly_emitBreak items
  | continueLoop => exact orderly_emitContinue items
  | block => exact orderly_emitBlock advances items
  | ret => exact orderly_emitReturn items
  | panic => exact orderly_emitPanic
  | tryCatch => exact orderly_emitTry advances items
  | call => exact orderly_emitCall items
  | phi => exact (isQuiet_emitPhi items).orderly scene
  | constant => exact (isQuiet_emitConstant items).orderly scene
  | binary operator => exact (isQuiet_emitBinary operator items).orderly scene
  | comparison comparison =>
      exact (isQuiet_emitComparison comparison items).orderly scene
  | compareInt => exact (isQuiet_emitCompareInt items).orderly scene
  | compareFloat => exact (isQuiet_emitCompareFloat items).orderly scene
  | cast operator => exact (isQuiet_emitCast operator items).orderly scene
  | pointerAdd => exact (isQuiet_emitPointerOffset false items).orderly scene
  | pointerSub => exact (isQuiet_emitPointerOffset true items).orderly scene
  | pointerDiff => exact (isQuiet_emitPointerDiff items).orderly scene
  | localVariable => exact (isQuiet_emitVariable items).orderly scene
  | assign => exact (isQuiet_emitAssign items).orderly scene
  | alloca => exact (isQuiet_emitAlloca items).orderly scene
  | load => exact (isQuiet_emitLoad items).orderly scene
  | store => exact (isQuiet_emitStore items).orderly scene
  | loadGlobal => exact (isQuiet_emitLoadGlobal items).orderly scene
  | storeGlobal => exact (isQuiet_emitStoreGlobal items).orderly scene
  | index => exact (isQuiet_emitIndex items).orderly scene
  | arrayLiteral => exact (isQuiet_emitArrayLiteral items).orderly scene
  | structLiteral => exact (isQuiet_emitStructLiteral items).orderly scene
  | member => exact (isQuiet_emitMember items).orderly scene
  | memberAddress => exact (isQuiet_emitMemberAddress items).orderly scene
  | unionMember => exact (isQuiet_emitUnionMember items).orderly scene
  | address => exact (isQuiet_emitAddress items).orderly scene
  | dereference => exact (isQuiet_emitDereference items).orderly scene
  | functionPointer => exact (isQuiet_emitFunctionPointer items).orderly scene
  | callIndirect => exact (isQuiet_emitCallIndirect items).orderly scene
  | vaStart => exact (isQuiet_emitVaStart items).orderly scene
  | vaArg => exact (isQuiet_emitVaArg items).orderly scene
  | vaEnd => exact (isQuiet_emitVaEnd items).orderly scene
  | textLiteral => exact (isQuiet_emitTextLiteral items).orderly scene
  | bytesLiteral => exact (isQuiet_emitBytesLiteral items).orderly scene
  | closure => exact (isQuiet_emitClosure items).orderly scene
  | makeClosure => exact (isQuiet_emitMakeClosure items).orderly scene
  | callClosure => exact (isQuiet_emitCallClosure items).orderly scene
  | coroutine step =>
      exact (isQuiet_emitCoroutineStep step items).orderly scene
  | sumNew => exact (isQuiet_emitSumNew items).orderly scene
  | sumIs => exact (isQuiet_emitSumIs items).orderly scene
  | sumGet => exact (isQuiet_emitSumGet items).orderly scene

/-- Places and problems do not matter to control flow. -/
theorem EmitState.Stage.annotated (stage : Stage scene origin owed state)
    (problems : List Problem) (span : Option Span) :
    Stage scene origin owed { state with problems, span } := by
  obtain ⟨sound, placed, inside, atEnd, precedes, works, owes⟩ := stage
  refine ⟨⟨sound.context, sound.layouts, sound.pending, sound.apart,
    sound.coroutine, sound.escapes, ?_⟩, placed, inside, atEnd,
    ⟨⟨precedes.module, precedes.matchEnds⟩, precedes.escapes,
      precedes.leads⟩, works, ⟨owes.nodup, owes.mem_iff, owes.empty⟩⟩
  intro join member
  have settled := sound.matchEnds join member
  exact ⟨settled.known, settled.notFirst, settled.has, settled.aside,
    settled.settled⟩

theorem EmitState.Stage.report (stage : Stage scene origin owed state)
    (operation : String) (cause : ProblemCause) :
    Stage scene origin owed
      (FormCompiler.report operation cause scene.environment state).2 := by
  let problem : Problem :=
    ⟨scene.environment.functionName, operation, cause, state.span⟩
  exact stage.annotated (state.problems ++ [problem]) state.span

theorem advances_report (operation : String) (cause : ProblemCause) :
    Advances scene (report operation cause) :=
  fun _ _ writing => writing.stage.report operation cause

/-- A handler at the place of a form; where it gives up, that is a problem. -/
theorem Orderly.advances {handler : Handler Unit}
    (orderly : Orderly scene handler) (form : Form) :
    Advances scene (atPlaceOf form do
      match ← handler.run with
      | .ok _ => pure ()
      | .error cause => report (form.head?.getD "") cause) := by
  intro state owed writing
  have placed := writing.stage.annotated state.problems
    (form.span?.or state.span)
  have done := orderly state owed _ ⟨placed, writing.cursor, trivial⟩
  have run : ∀ inner : Emission Unit, (atPlaceOf form inner
      scene.environment state).2 =
      { (inner scene.environment
          { state with span := form.span?.or state.span }).2 with
        span := state.span } := fun _ => rfl
  rw [run, reader_bind_apply]
  generalize handler.run scene.environment
    { state with span := form.span?.or state.span } = outcome at *
  obtain ⟨result, later⟩ := outcome
  cases result with
  | ok _ => exact done.annotated later.problems state.span
  | error cause =>
      exact (done.report (form.head?.getD "") cause).annotated _ state.span

theorem advances_emitList (advances : ∀ form, Advances scene (emit form))
    (form : Form) (items : List Form) :
    Advances scene (emitList emit form items) := by
  apply Orderly.advances
  split
  · exact orderly_dispatch advances _ items
  · exact fun origin owed => .throw _

theorem advances_emitWithin (depth : Nat) (form : Form) :
    Advances scene (emitWithin depth form) := by
  induction depth generalizing form with
  | zero => exact advances_report _ _
  | succ depth ih =>
      unfold emitWithin
      split
      · exact advances_emitList ih form _
      · exact advances_report _ _

theorem advances_emitForm (form : Form) : Advances scene (emitForm form) :=
  advances_emitWithin form.height form

/-! ## The start of a body -/

/-- The body of a function is about to be emitted, and everything that was
emitted before is complete. -/
structure Starts (scene : Scene) (initial : Module) (state : EmitState) :
    Prop where
  reached : initial.Extends state.builder.module
  works : initial.WorksIn scene.home state.builder.module
  sound : state.Sound scene
  module : state.builder.module.Sound
  finished : state.builder.module.Finished
  inhabited : 0 < state.builder.module.types.kinds.length
  inside : state.builder.function = scene.home
  declared : scene.home < state.builder.module.functions.length
  attached : state.builder.detached = 0

variable {initial : Module}

theorem Starts.onModule {Result : Type} (starts : Starts scene initial state)
    {operation : StateM Module Result} {good : Module → Result → Prop}
    (runs : state.builder.module.Runs operation good) :
    Starts scene initial
      { state with builder := (Builder.onModule operation state.builder).2 } :=
  have still := runs.follows
  ⟨starts.reached.trans still.toExtends,
    starts.works.trans starts.reached (still.worksIn _),
    starts.sound.withBuilder starts.module.types still.quiet.develops
      fun _ _ _ => still.quiet.leads,
    runs.holds, starts.finished.of_steady still.quiet.steady,
    Nat.lt_of_lt_of_le starts.inhabited still.types.length_le,
    starts.inside, Nat.lt_of_lt_of_le starts.declared still.count,
    starts.attached⟩

theorem runs_declarePersonality {module : Module} (sound : module.Sound)
    (personality : Personality) :
    module.Runs (declarePersonality personality) fun _ _ => True := by
  apply (Module.runs_withTypes sound
    (TypeTable.yields_atomic sound.types rfl)).bind
  rintro later word laterSound _ ⟨has, -⟩
  apply (Module.runs_withTypes laterSound
    (TypeTable.yields_function laterSound.types has (by simp) true)).bind
  rintro last type lastSound _ ⟨-, kind⟩
  have found : last.types.signature? type = some ⟨word, [], true⟩ := by
    rw [TypeTable.signature?, kind]
  exact (Module.runs_addFunction lastSound _ found .external).forget

theorem Starts.markPersonality (starts : Starts scene initial state)
    (function : FunctionId) :
    Starts scene initial
      (FormCompiler.markPersonality function scene.environment state).2 := by
  have read : personality? scene.environment state =
      (scene.environment.configuration.personality, state) := rfl
  unfold FormCompiler.markPersonality
  rw [reader_bind_apply, read]
  cases scene.environment.configuration.personality with
  | none => exact starts
  | some personality =>
      have declared :=
        starts.onModule (runs_declarePersonality starts.module personality)
      have chosen := declared.onModule (Module.runs_setPersonality
        declared.module function
        (Builder.onModule (declarePersonality personality) state.builder).1)
      exact chosen.onModule
        (Module.runs_addAttributes chosen.module function [.unwindTable])

/-- The only block that has no end is the first one of the body. -/
theorem Starts.enter (starts : Starts scene initial state) :
    let entered := { state with
      builder := (Builder.appendBlock "entry" state.builder).2.atEnd
        (Builder.appendBlock "entry" state.builder).1 }
    Writing scene entered []
      (fun state => initial.Extends state.builder.module) entered ∧
      initial.WorksIn scene.home entered.builder.module := by
  have declared : state.builder.function <
      state.builder.module.functions.length := by
    rw [starts.inside]
    exact starts.declared
  have appended := Builder.appended_appendBlock starts.module declared
    (show nameBeforeNul "entry" ≠ "" by decide)
  obtain ⟨ready, isOpen⟩ := appended.ready starts.inhabited starts.attached
  refine ⟨?_, starts.works.trans starts.reached
    (starts.inside ▸ appended.worksIn)⟩
  refine ⟨⟨?_, ready.toPlaced, appended.function.trans starts.inside, rfl,
    EmitState.Precedes.refl _, Module.WorksIn.refl _ _,
    ⟨List.nodup_nil, ?_, nofun⟩⟩, isOpen,
    starts.reached.trans appended.module.toExtends⟩
  · exact starts.sound.withBuilder starts.module.types appended.module
      fun _ _ _ => appended.leads
  · intro id
    refine ⟨nofun, ?_⟩
    rintro ⟨⟨known, isOpen⟩, elsewhere⟩
    have other : id ≠ (Builder.appendBlock "entry" state.builder).1 := by
      rintro rfl
      exact elsewhere rfl
    have same := appended.others id other
    have earlier : (state.builder.module.block? id).isSome = true := by
      rw [← same]
      exact known
    have ended := starts.finished id earlier
    have nothing : ((Builder.appendBlock "entry"
        state.builder).2.module.block? id).bind Block.terminator? =
        none := isOpen
    rw [Module.terminator?, ← same, nothing] at ended
    cases ended

/-- Binds one parameter. -/
def bindParameter (name : String) (value : Value) (type : TypeId) :
    Emission Unit := do
  modifyContext (·.bind name value type)
  if (← context).isMutable name then
    let _ ← ensureSlot name type true

theorem emits_bindParameter (name : String) (value : Value) (type : TypeId) :
    Emits scene (fun table => value.Typed table ∧ table.Has type)
      (bindParameter name value type) fun _ _ => True := by
  have binds : Emits scene (fun table => value.Typed table ∧ table.Has type)
      (modifyContext (·.bind name value type)) fun _ _ => True :=
    emits_modifyContext (fun _ _ both context =>
      context.bind name both.1 both.2) fun _ => rfl
  refine .step binds (fun _ holds => holds) fun _ => ?_
  refine .look (fun _ => rfl) fun _ _ _ => ?_
  refine .ite (fun _ => ?_) fun _ => .pure fun _ _ => trivial
  refine .step (emits_ensureSlot name type true) (fun _ holds => holds.1.1.2)
    fun _ => ?_
  exact .pure fun _ _ => trivial

/-- One parameter ahead of the others. -/
theorem bindParameters_cons (function : FunctionId) (name parameter : String)
    (type : TypeId) (index : Nat) (parameters : List (String × TypeId))
    (environment : Environment) (state : EmitState) :
    (bindParameters function name index ((parameter, type) ::
      parameters)).run environment state =
    let renamed := (onBuilder (Builder.onModule
      (Module.setParameterName function index parameter)) environment state).2
    match (renamed.builder.module.function function).parameters[index]? with
    | none => (.error (EmitError.missingEntry name), renamed)
    | some value =>
        (bindParameters function name (index + 1) parameters).run environment
          (bindParameter parameter value type environment renamed).2 := by
  have run : (bindParameters function name index ((parameter, type) ::
      parameters)).run environment state =
      let renamed := (onBuilder (Builder.onModule
        (Module.setParameterName function index parameter)) environment
        state).2
      (match (renamed.builder.module.function
          function).parameters[index]? with
        | none => (throw (EmitError.missingEntry name) :
            ExceptT EmitError Emission Unit)
        | some value => do
            modifyContext (·.bind parameter value type)
            if (← context).isMutable parameter then
              let _ ← ensureSlot parameter type true
            bindParameters function name (index + 1)
              parameters).run environment renamed := rfl
  rw [run]
  dsimp only
  split
  · rfl
  · next value _ =>
      generalize (onBuilder _ environment state).2 = renamed
      show (if (renamed.context.bind parameter value type).isMutable
            parameter then _ else _ : ExceptT EmitError Emission Unit).run
          environment _ =
        (bindParameters function name (index + 1) parameters).run environment
          ((if (renamed.context.bind parameter value type).isMutable
            parameter then _ else _ : Emission Unit) environment _).2
      cases (renamed.context.bind parameter value type).isMutable parameter
      · rfl
      · rfl

/-- Parameters are bound one after the other; the only error is that the
function has no such parameter. -/
theorem writing_bindParameters [Enduring known] (name : String)
    (parameters : List (String × TypeId)) (index : Nat)
    (writing : Writing scene origin owed (fun state => known state ∧
      ∀ parameter ∈ parameters, state.table.Has parameter.2) state) :
    let outcome := (bindParameters scene.home name index parameters).run
      scene.environment state
    Writing scene origin owed known outcome.2 ∧
      ∀ error, outcome.1 = .error error → error = .missingEntry name := by
  induction parameters generalizing index state with
  | nil => exact ⟨writing.imp And.left, nofun⟩
  | cons parameter parameters ih =>
      obtain ⟨parameter, type⟩ := parameter
      have names : Emits scene (fun _ => True)
          (onBuilder (Builder.onModule
            (Module.setParameterName scene.home index parameter)))
          fun _ _ => True :=
        emits_onBuilder fun _ ready _ => (Builder.builds_onModule ready
          (Module.runs_setParameterName ready.sound scene.home index
            parameter)).forget
      have written := Proceeds.quietly names state writing
      rw [bindParameters_cons]
      generalize onBuilder (Builder.onModule
        (Module.setParameterName scene.home index parameter))
        scene.environment state = done at *
      obtain ⟨_, renamed⟩ := done
      dsimp only at *
      split
      · refine ⟨written.imp fun holds => holds.1.1, ?_⟩
        rintro error ⟨⟩
        rfl
      · next value found =>
          obtain ⟨_, -, blockKnown⟩ := written.stage.placed.cursor
          obtain ⟨_, blockFound⟩ := Option.isSome_iff_exists.mp blockKnown
          have declared := Module.lt_of_block? blockFound
          rw [written.stage.inside] at declared
          have typed : value.Typed renamed.table :=
            (written.stage.placed.sound.functions scene.home declared).2 value
              (List.mem_of_getElem? found)
          have has := List.forall_mem_cons.mp written.holds.1.2
          have both : Writing scene origin owed (fun state =>
              (value.Typed state.table ∧ state.table.Has type) ∧
              known state ∧
              ∀ parameter ∈ parameters, state.table.Has parameter.2)
              renamed :=
            written.imp fun holds => ⟨⟨typed, has.1⟩, holds.1.1, has.2⟩
          have bound := Proceeds.quiet
            (emits_bindParameter parameter value type)
            (fun _ holds => holds.1) renamed both
          exact ih (index + 1) (bound.imp fun holds => holds.1.2)

/-! ## The end of a body -/

/-- Everything that was emitted is complete. -/
structure Completed (home : FunctionId) (initial : Module)
    (state : EmitState) : Prop where
  reached : initial.Extends state.builder.module
  works : initial.WorksIn home state.builder.module
  sound : state.builder.module.Sound
  finished : state.builder.module.Finished
  matchEnds : ∀ join ∈ state.matchEnds,
    (state.builder.module.block? join.1).isSome = true ∧
    join.1.index ≠ 0 ∧ state.table.Has join.2 ∧
    Joined state.builder.module [] join.1 join.2

/-- Where nothing is owed an end and the current block has one, every block
has an end. -/
theorem At.finished (leaving : Leaving scene origin [] known state) :
    state.builder.module.Finished := by
  intro id blockKnown
  by_contra isOpen
  rw [Option.not_isSome_iff_eq_none] at isOpen
  have elsewhere : state.builder.block ≠ some id := by
    intro current
    have ended := leaving.cursor
    rw [Builder.isTerminated, current] at ended
    dsimp only at ended
    rw [Builder.isTerminatedBlock_eq, isOpen] at ended
    cases ended
  have owed := (leaving.stage.owes.mem_iff id).mpr
    ⟨⟨blockKnown, isOpen⟩, elsewhere⟩
  cases owed

theorem completed_completePhis
    (leaving : Leaving scene origin []
      (fun state => initial.Extends state.builder.module) state)
    (works : initial.WorksIn scene.home state.builder.module) :
    Completed scene.home initial (completePhis scene.environment state).2 ∧
      (completePhis scene.environment state).2.builder.detached = 0 := by
  obtain ⟨sound, placed, inside, atEnd, -, -, -⟩ := leaving.stage
  have completing : Completing scene { state with pendingPhis := [] } :=
    ⟨sound.bare, placed, inside, atEnd, leaving.finished⟩
  obtain ⟨final, steady, worksOn, matchEnds, joined⟩ :=
    completes_pending completing sound.pending sound.apart
  have run : (completePhis scene.environment state).2 =
      (state.pendingPhis.forM (fun phi =>
        phi.incoming.forM (addEdge phi)) scene.environment
        { state with pendingPhis := [] }).2 := rfl
  rw [run]
  refine ⟨⟨leaving.holds.trans steady.toExtends,
    works.trans leaving.holds worksOn, final.placed.sound,
    final.finished, ?_⟩, final.placed.attached⟩
  intro join member
  rw [matchEnds] at member
  have settled := sound.matchEnds join member
  exact ⟨steady.known settled.known, settled.notFirst,
    settled.has.mono steady.types,
    joined join.1 join.2 settled.has settled.notFirst settled.settled⟩

instance (initial : Module) :
    Enduring fun state => initial.Extends state.builder.module :=
  ⟨fun _ continues reached => reached.trans continues.module.toExtends⟩

/-- The instructions of a body, with the return that may be missing. -/
theorem proceeds_emitInstructions [Enduring known] (body : List Form) :
    Proceeds scene (Writing scene origin owed known)
      (do
        emitSequence emitForm body
        if !(← isTerminated) then buildDefaultReturn (← returnType))
      fun _ => Leaving scene origin owed known := by
  refine .bind ((Proceeds.sequence advances_emitForm body).given
    fun _ writing => writing.forget) fun _ => ?_
  refine .look (fun _ => rfl) fun ended => ?_
  cases ended with
  | true =>
      refine .pure ?_
      rintro state ⟨passing, ended⟩
      exact ⟨passing.stage, ended, passing.holds⟩
  | false =>
      refine .look (fun _ => rfl) fun type => ?_
      rintro state ⟨⟨passing, isOpen⟩, rfl⟩
      have writing : Writing scene origin owed (fun later =>
          known later ∧ later.Promises scene.home
            (resultType state.table state.builder.currentFunction.type))
          state :=
        ⟨passing.stage, isOpen, passing.holds, passing.stage.promises⟩
      exact (proceeds_buildDefaultReturn _ (fun _ holds => holds.2) state
        writing).imp And.left

/-- What may be missing at the end is done ahead of what is done in any
case. -/
theorem run_finishing (first : Emission Unit) (look : Emission TypeId)
    (ending : TypeId → Emission Unit) (rest : ExceptT EmitError Emission Unit)
    (environment : Environment) (state : EmitState) :
    (do
      first
      if !(← isTerminated) then ending (← look)
      rest : ExceptT EmitError Emission Unit).run environment state =
    rest.run environment ((do
      first
      if !(← isTerminated) then ending (← look) :
      Emission Unit) environment state).2 := by
  show (if !(first environment state).2.builder.isTerminated then _ else _ :
      ExceptT EmitError Emission Unit).run environment _ =
    rest.run environment
      ((if !(first environment state).2.builder.isTerminated then _ else _ :
        Emission Unit) environment _).2
  cases (first environment state).2.builder.isTerminated
  · rfl
  · rfl

/-- The body of a function is complete, or the function lacks a parameter; the
module grows in either case. -/
theorem completed_emitBody (starts : Starts scene initial state)
    (header : FunctionHeader) (body : List Form)
    (hasParameters : ∀ parameter ∈ header.parameters,
      initial.types.Has parameter.2) :
    let outcome := (emitBody scene.home header body).run scene.environment
      state
    (outcome.1 = .ok () → Completed scene.home initial outcome.2) ∧
      (∀ error, outcome.1 = .error error →
        error = .missingEntry header.name) ∧
      initial.Extends outcome.2.builder.module := by
  obtain ⟨entered, worksIn⟩ := (starts.markPersonality scene.home).enter
  have run : (emitBody scene.home header body).run scene.environment state =
      let marked := (markPersonality scene.home scene.environment state).2
      (bindParameters scene.home header.name 0 header.parameters >>=
        fun _ => do
          emitSequence emitForm body
          if !(← isTerminated) then buildDefaultReturn (← returnType)
          completePhis
          let detached := (← get).builder.detached
          if 0 < detached then
            throw (EmitError.noInsertionPoint header.name detached)).run
        scene.environment { marked with
          builder := (Builder.appendBlock "entry" marked.builder).2.atEnd
            (Builder.appendBlock "entry" marked.builder).1 } := rfl
  rw [run]
  generalize (markPersonality scene.home scene.environment state).2 =
    marked at *
  dsimp only at *
  have ready : Writing scene _ [] (fun state =>
      initial.Extends state.builder.module ∧
      ∀ parameter ∈ header.parameters, state.table.Has parameter.2) _ :=
    entered.imp fun reached => ⟨reached, fun parameter member =>
      (hasParameters parameter member).mono reached.types⟩
  obtain ⟨bound, missing⟩ := writing_bindParameters header.name
    header.parameters 0 ready
  rw [ExceptT.run_bind, reader_bind_apply]
  generalize (bindParameters scene.home header.name 0
    header.parameters).run scene.environment _ = outcome at *
  obtain ⟨result, later⟩ := outcome
  cases result with
  | error error => exact ⟨nofun, missing, bound.holds⟩
  | ok _ =>
      have leaving := proceeds_emitInstructions body later bound
      obtain ⟨completed, attached⟩ := completed_completePhis leaving
        (worksIn.trans entered.holds leaving.stage.works)
      have rest := run_finishing (emitSequence emitForm body) returnType
        buildDefaultReturn
        (do
          completePhis
          let detached := (← get).builder.detached
          if 0 < detached then
            throw (EmitError.noInsertionPoint header.name detached))
        scene.environment later
      generalize ((do
        emitSequence emitForm body
        if !(← isTerminated) then buildDefaultReturn (← returnType) :
        Emission Unit) scene.environment later).2 = last at *
      have ends : (do
          completePhis
          let detached := (← get).builder.detached
          if 0 < detached then
            throw (EmitError.noInsertionPoint header.name detached) :
          ExceptT EmitError Emission Unit).run scene.environment last =
          (.ok (), (completePhis scene.environment last).2) := by
        show (if 0 < (completePhis scene.environment
          last).2.builder.detached then _ else _ :
          ExceptT EmitError Emission Unit).run scene.environment _ = _
        rw [attached]
        rfl
      have finish : ∀ outcome : Except EmitError Unit × EmitState,
          outcome = (.ok (), (completePhis scene.environment last).2) →
          (outcome.1 = .ok () → Completed scene.home initial outcome.2) ∧
            (∀ error, outcome.1 = .error error →
              error = .missingEntry header.name) ∧
            initial.Extends outcome.2.builder.module := by
        rintro _ rfl
        exact ⟨fun _ => completed, nofun, completed.reached⟩
      exact finish _ (rest.trans ends)

end FormCompiler
