import FormCompiler.Proofs.BodyEffects

/-!
# What functions do

A function names its personality first.  Then parameters are bound, the body
is emitted from a new block on, and phis are completed; all this keeps the
module guarded and uses the names of the parameters and those that the body
shows.
-/

namespace FormCompiler

open Ir

/-! ## Parameters -/

/-- The uses of the name of a parameter. -/
def parameterUses (parameter : String × TypeId) : List NameUse :=
  [.bound parameter.1, .backed parameter.1]

theorem tries_bindParameters (function : FunctionId) (name : String)
    (index : Nat) (parameters : List (String × TypeId)) :
    Tries EmitState.Plainly (parameters.flatMap parameterUses)
      (bindParameters function name index parameters) := by
  induction parameters generalizing index with
  | nil => exact .pure ()
  | cons parameter parameters ih =>
      obtain ⟨parameter, type⟩ := parameter
      unfold bindParameters
      refine .step (.lift (does_onBuilder
        (Builder.computes_setParameterName function index _))) fun _ => ?_
      refine .step (.lift does_module) fun module => ?_
      dsimp only
      split
      · exact .throw _
      · next value _ =>
          show Tries EmitState.Plainly
            ([.bound parameter] ++
              ([.backed parameter] ++ parameters.flatMap parameterUses)) _
          refine .bind (.lift (does_bind parameter value type)) fun _ => ?_
          refine .look (fun _ _ => rfl) fun environment state => ?_
          split
          · next mutable =>
              have backed := (does_ensureSlot parameter type true environment
                state).asBacked mutable
              exact Graded.trans backed (ih (index + 1) environment _)
          · exact Graded.mono (List.sublist_append_right _ _).subperm
              (ih (index + 1) environment state)

/-! ## Bodies -/

/-- Completes the phis of a function that has an insertion point
everywhere. -/
def finishBody (name : String) : ExceptT EmitError Emission Unit := do
  completePhis
  let detached := (← get).builder.detached
  if 0 < detached then throw (.noInsertionPoint name detached)

/-- Emits the body of a function where the builder is. -/
def fillBody (function : FunctionId) (header : FunctionHeader)
    (body : List Form) : ExceptT EmitError Emission Unit := do
  bindParameters function header.name 0 header.parameters
  emitSequence emitForm body
  if !(← isTerminated) then buildDefaultReturn (← returnType)
  finishBody header.name

/-- Emits the body of a function whose personality is named. -/
def emitCode (function : FunctionId) (header : FunctionHeader)
    (body : List Form) : ExceptT EmitError Emission Unit := do
  let entry ← Builder.appendBlock "entry"
  Builder.positionAtEnd entry
  fillBody function header body

theorem emitBody_eq (function : FunctionId) (header : FunctionHeader)
    (body : List Form) :
    emitBody function header body = (do
      markPersonality function
      emitCode function header body) := by
  rfl

theorem tries_finishBody (name : String) :
    Tries EmitState.Plainly [] (finishBody name) := by
  refine .step (.lift does_completePhis) fun _ => ?_
  exact .step (.lift does_get) fun _ => .ite (.throw _) (.pure ())

theorem keeps_fillBody {marks : List Landmark} (function : FunctionId)
    (header : FunctionHeader) (body : List Form) :
    Tries (EmitState.Keeps marks)
      (header.parameters.flatMap parameterUses ++ body.flatMap formUses)
      (fillBody function header body) := by
  refine .bind (tries_bindParameters _ _ _ _).keeps fun _ => ?_
  refine .last (.lift (keeps_emitSequence keeps_emitForm body)) fun _ => ?_
  refine .step (.lift does_isTerminated.keeps) fun terminated => ?_
  have finishes : Tries (EmitState.Keeps marks) [] (finishBody header.name) :=
    (tries_finishBody header.name).keeps
  refine .ite ?_ finishes
  refine .step (.lift does_returnType.keeps) fun type => ?_
  exact .step (.lift (does_buildDefaultReturn type).keeps) fun _ => finishes

theorem keeps_emitCode (function : FunctionId) (header : FunctionHeader)
    (body : List Form) :
    Tries (EmitState.Keeps [])
      (header.parameters.flatMap parameterUses ++ body.flatMap formUses)
      (emitCode function header body) := by
  refine .append fun entry => ?_
  exact .step (.lift (keeps_positionAtEnd (by simp))) fun _ =>
    keeps_fillBody function header body

/-! ## Personalities -/

namespace Ir.Module

/-- A module in which a function names its personality. -/
def marked (personality : Personality) (function : FunctionId)
    (module : Module) : Module :=
  let (routine, declared) := declarePersonality personality module
  (addAttributes function [.unwindTable]
    (setPersonality function routine declared).2).2

end Ir.Module

/-- The state once a function names its personality, if there is one. -/
def EmitState.marked (environment : Environment) (function : FunctionId)
    (state : EmitState) : EmitState :=
  match environment.configuration.personality with
  | some personality =>
      { state with
        builder := { state.builder with
          module := state.builder.module.marked personality function } }
  | none => state

theorem markPersonality_apply (function : FunctionId)
    (environment : Environment) (state : EmitState) :
    markPersonality function environment state =
      ((), state.marked environment function) := by
  have asks : personality? environment state =
      (environment.configuration.personality, state) := rfl
  unfold markPersonality EmitState.marked
  rw [reader_bind_apply, asks]
  dsimp only
  cases environment.configuration.personality <;> rfl

theorem run_emitBody (function : FunctionId) (header : FunctionHeader)
    (body : List Form) (environment : Environment) (state : EmitState) :
    (emitBody function header body).run environment state =
      (emitCode function header body).run environment
        (state.marked environment function) := by
  have marks : (liftM (markPersonality function) :
      ExceptT EmitError Emission Unit).run environment state =
        (.ok (), state.marked environment function) := by
    show (Except.ok (markPersonality function environment state).1,
      (markPersonality function environment state).2) = _
    rw [markPersonality_apply]
  rw [emitBody_eq, run_bind_of_ok (congrArg Prod.fst marks), marks]

theorem uses_emitBody (function : FunctionId) (header : FunctionHeader)
    (body : List Form) :
    Tries EmitState.Uses
      (header.parameters.flatMap parameterUses ++ body.flatMap formUses)
      (emitBody function header body) := by
  intro environment state
  have context : (state.marked environment function).context =
      state.context := by
    unfold EmitState.marked
    split <;> rfl
  obtain ⟨used, fits, touches⟩ := (keeps_emitCode function header body
    environment (state.marked environment function)).uses
  rw [run_emitBody]
  exact ⟨used, fits, context ▸ touches⟩

end FormCompiler
