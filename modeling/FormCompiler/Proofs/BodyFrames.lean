import Mathlib
import FormCompiler.Proofs.InstructionFrames
import FormCompiler.Proofs.EmitStates
import FormCompiler.Proofs.Lowering

/-!
# Instructions with bodies

What a construct changes for its body is changed back after it, given that the
body leaves alone what it finds.  A detour to another block or another function
comes back the same way.  Forms nest, so by induction on the nesting every form
leaves its frame alone.
-/

open Std.Do

set_option mvcgen.warning false

namespace FormCompiler

open Ir

variable {Result : Type} {frame : EmitFrame}

/-! ## Detours -/

theorem Ir.Builder.function_restore (point : InsertPoint)
    (builder : Builder) :
    (restore point builder).2.function = point.function := by
  unfold restore
  rw [stateM_bind_apply]
  cases point.block with
  | none => rfl
  | some block => cases point.beforeTerminator <;> rfl

/-- Whatever function the builder works on in between, it comes back. -/
theorem framed_elsewhere {emission : Emission Result} (function : FunctionId)
    (away : ⦃framed frame⦄ emission ⦃⇓ _ => framed { frame with function }⦄) :
    ⦃framed frame⦄ elsewhere emission ⦃⇓ _ => framed frame⦄ := by
  intro environment state covers
  have home : state.builder.function = frame.function :=
    congrArg EmitFrame.function covers.1
  have gone : EmitFrame.Covers { frame with function }
      (emission environment state).2.frame := away environment state covers
  refine ⟨?_, gone.2⟩
  have back := Builder.function_restore
    ⟨state.builder.function, state.builder.block,
      state.builder.beforeTerminator⟩ (emission environment state).2.builder
  show EmitFrame.mk _ _ _ _ _ _ (Builder.restore _ _).2.function = _
  rw [back, home]
  exact congrArg (fun later : EmitFrame =>
    { later with function := frame.function }) gone.1

@[spec]
theorem framed_elsewhere_within {emission : Emission Result}
    (kept : ⦃framed frame⦄ emission ⦃⇓ _ => framed frame⦄) :
    ⦃framed frame⦄ elsewhere emission ⦃⇓ _ => framed frame⦄ :=
  framed_elsewhere frame.function kept

/-- What follows a switch of functions is emitted in the new one. -/
theorem framed_switchFunction {rest : Emission Result}
    (function : FunctionId)
    (kept : ∀ frame, ⦃framed frame⦄ rest ⦃⇓ _ => framed frame⦄) :
    ⦃framed frame⦄ (do
      Builder.switchFunction function
      rest : Emission Result)
      ⦃⇓ _ => framed { frame with function }⦄ := by
  rintro environment state ⟨same, cleanup⟩
  have switched : EmitFrame.Covers { frame with function }
      { state.frame with function } :=
    ⟨congrArg (fun later : EmitFrame => { later with function }) same, cleanup⟩
  exact kept { frame with function } environment
    { state with builder := (Builder.switchFunction function state.builder).2 }
    switched

attribute [local irreducible] onBuilder

@[spec]
theorem framed_addEnvironment (number : Nat) (type : TypeId) :
    ⦃framed frame⦄ addEnvironment number type ⦃⇓ _ => framed frame⦄ := by
  mvcgen [addEnvironment]

@[spec]
theorem framed_nameParameters (function : FunctionId) (count : Nat) :
    ⦃framed frame⦄ nameParameters function count ⦃⇓ _ => framed frame⦄ := by
  mvcgen [nameParameters]

@[spec]
theorem framed_callTarget (thunk : FunctionId) (environment : GlobalId)
    (target : FunctionId) (signature : TypeTable.Signature) :
    ⦃framed frame⦄ callTarget thunk environment target signature
      ⦃⇓ _ => framed frame⦄ := by
  mvcgen [callTarget]

@[spec]
theorem framed_returnResult (type : TypeId) (result : Option Value) :
    ⦃framed frame⦄ returnResult type result ⦃⇓ _ => framed frame⦄ := by
  mvcgen [returnResult]

@[spec]
theorem framed_emitThunk (thunk : FunctionId) (environment : GlobalId)
    (target : FunctionId) (signature : TypeTable.Signature) :
    ⦃framed frame⦄ emitThunk thunk environment target signature
      ⦃⇓ _ => framed { frame with function := thunk }⦄ := by
  unfold emitThunk
  apply framed_switchFunction
  intro inside
  mvcgen

@[spec]
theorem framed_addThunk (name : String) (type : TypeId)
    (environment : GlobalId) (target : FunctionId)
    (signature : TypeTable.Signature) :
    ⦃framed frame⦄ addThunk name type environment target signature
      ⦃⇓ _ => framed frame⦄ := by
  have away (thunk : FunctionId) := framed_elsewhere thunk
    (@framed_emitThunk frame thunk environment target signature)
  mvcgen [addThunk, away, -framed_elsewhere_within]

/-! ## Closures -/

@[spec]
theorem framed_capturedValue (items : List Form) (index : Nat)
    (shape : String) :
    ⦃framed frame⦄ capturedValue items index shape ⦃framedAnyhow frame⦄ := by
  mvcgen [capturedValue]

@[spec]
theorem framed_closureTarget (name : String) :
    ⦃framed frame⦄ closureTarget name ⦃framedAnyhow frame⦄ := by
  mvcgen [closureTarget]

@[spec]
theorem framed_emitClosure (items : List Form) :
    ⦃framed frame⦄ emitClosure items ⦃framedAnyhow frame⦄ := by
  mvcgen [emitClosure]

@[spec]
theorem framed_closureRecord (name : String) (captured : TypeId) :
    ⦃framed frame⦄ closureRecord name captured ⦃framedAnyhow frame⦄ := by
  mvcgen [closureRecord]

@[spec]
theorem framed_storeField (record : Value) (index : Nat) (name : String)
    (value : Value) :
    ⦃framed frame⦄ storeField record index name value
      ⦃⇓ _ => framed frame⦄ := by
  mvcgen [storeField]

@[spec]
theorem framed_emitMakeClosure (items : List Form) :
    ⦃framed frame⦄ emitMakeClosure items ⦃framedAnyhow frame⦄ := by
  mvcgen [emitMakeClosure]

@[spec]
theorem framed_loadField (record : Value) (index : Nat) (name : String) :
    ⦃framed frame⦄ loadField record index name ⦃⇓ _ => framed frame⦄ := by
  mvcgen [loadField]

@[spec]
theorem framed_emitCallClosure (items : List Form) :
    ⦃framed frame⦄ emitCallClosure items ⦃framedAnyhow frame⦄ := by
  mvcgen [emitCallClosure]

/-! ## Exceptions -/

@[spec]
theorem framed_resumingPad :
    ⦃framed frame⦄ resumingPad ⦃⇓ _ => framed frame⦄ := by
  mvcgen [resumingPad]

@[spec]
theorem framed_returningPad :
    ⦃framed frame⦄ returningPad ⦃⇓ _ => framed frame⦄ := by
  mvcgen [returningPad]

/-- A cleanup block is made only where there is none. -/
@[spec]
theorem framed_cleanupFunclet :
    ⦃framed frame⦄ cleanupFunclet ⦃⇓ _ => framed frame⦄ := by
  mvcgen [cleanupFunclet]
  rename_i before covers missing block around later kept final
  refine ⟨congrArg (fun later : EmitFrame =>
    { later with cleanup := some block }) kept.1, ?_⟩
  intro other found
  have made : before.unwindTargets.cleanup = some other :=
    covers.2 other found
  rw [missing] at made
  cases made

@[spec]
theorem framed_unwindTarget (personality : Personality) :
    ⦃framed frame⦄ unwindTarget personality ⦃⇓ _ => framed frame⦄ := by
  mvcgen [unwindTarget]

/-! ## Bodies -/

/-- A change of what is around is undone after the body that it is for. -/
theorem framed_bracket {body : Emission Unit}
    (enter : EmitState → EmitState) (leave : EmitState → EmitState → EmitState)
    (inside : EmitFrame)
    (enters : ∀ state, frame.Covers state.frame →
      inside.Covers (enter state).frame)
    (leaves : ∀ state later, frame.Covers state.frame →
      inside.Covers later.frame → frame.Covers (leave state later).frame)
    (kept : ∀ frame, ⦃framed frame⦄ body ⦃⇓ _ => framed frame⦄) :
    ⦃framed frame⦄ (do
      let state ← get
      set (enter state)
      body
      modify (leave state))
      ⦃⇓ _ => framed frame⦄ := by
  intro environment state covers
  have done := kept inside environment (enter state) (enters state covers)
  exact leaves state _ covers done

@[spec]
theorem framed_protectedBy (personality : Personality) (handler : BlockId)
    {body : Emission Unit}
    (kept : ∀ frame, ⦃framed frame⦄ body ⦃⇓ _ => framed frame⦄) :
    ⦃framed frame⦄ protectedBy personality handler body
      ⦃⇓ _ => framed frame⦄ := by
  cases personality with
  | itanium =>
      exact framed_bracket _ (fun _ later =>
        { later with
          unwindTargets :=
            { later.unwindTargets with
              landingPads := later.unwindTargets.landingPads.tail } })
        { frame with landingPads := handler :: frame.landingPads }
        (fun state covers => ⟨congrArg (fun later : EmitFrame =>
          { later with landingPads := handler :: later.landingPads })
          covers.1, covers.2⟩)
        (fun _ later _ covers => ⟨congrArg (fun later : EmitFrame =>
          { later with landingPads := later.landingPads.tail }) covers.1,
          covers.2⟩) kept
  | seh =>
      exact framed_bracket _ (fun _ later =>
        { later with
          unwindTargets :=
            { later.unwindTargets with
              dispatches := later.unwindTargets.dispatches.tail } })
        { frame with dispatches := handler :: frame.dispatches }
        (fun state covers => ⟨congrArg (fun later : EmitFrame =>
          { later with dispatches := handler :: later.dispatches })
          covers.1, covers.2⟩)
        (fun _ later _ covers => ⟨congrArg (fun later : EmitFrame =>
          { later with dispatches := later.dispatches.tail }) covers.1,
          covers.2⟩) kept

/-! ## Conditions -/

@[spec]
theorem framed_recompute (name : String) (form : Form) :
    ⦃framed frame⦄ recompute name form ⦃framedAnyhow frame⦄ := by
  mvcgen [recompute]

@[spec]
theorem framed_attempt {handler : Handler Result}
    (kept : ⦃framed frame⦄ handler ⦃framedAnyhow frame⦄) :
    ⦃framed frame⦄ attempt handler ⦃⇓ _ => framed frame⦄ := by
  mvcgen [attempt, kept]

@[spec]
theorem framed_recomputed (name : String) :
    ⦃framed frame⦄ recomputed name ⦃⇓ _ => framed frame⦄ := by
  mvcgen [recomputed]

@[spec]
theorem framed_conditionValue (name : String) :
    ⦃framed frame⦄ conditionValue name ⦃⇓ _ => framed frame⦄ := by
  mvcgen [conditionValue]

@[spec]
theorem framed_condition (form : Form) :
    ⦃framed frame⦄ condition form ⦃framedAnyhow frame⦄ := by
  mvcgen [condition]

@[spec]
theorem framed_branchOn (form : Form) (thenBlock elseBlock : BlockId) :
    ⦃framed frame⦄ branchOn form thenBlock elseBlock ⦃⇓ _ => framed frame⦄ := by
  mvcgen [branchOn]

@[spec]
theorem framed_fallThrough (next : BlockId) :
    ⦃framed frame⦄ fallThrough next ⦃⇓ _ => framed frame⦄ := by
  mvcgen [fallThrough]

/-! ## Parts of constructs -/

@[spec]
theorem framed_readLocal (shape : String) (form : Form) :
    ⦃framed frame⦄ readLocal shape form ⦃framedAnyhow frame⦄ := by
  mvcgen [readLocal]

@[spec]
theorem framed_readBinding (sum : String) (variant : Variant)
    (form : Form) :
    ⦃framed frame⦄ readBinding sum variant form ⦃framedAnyhow frame⦄ := by
  mvcgen [readBinding]

@[spec]
theorem framed_readCase (layout : SumLayout) (sum : String) (form : Form) :
    ⦃framed frame⦄ readCase layout sum form ⦃framedAnyhow frame⦄ := by
  mvcgen [readCase]

@[spec]
theorem framed_readCases (layout : SumLayout) (sum : String)
    (forms : List Form) :
    ⦃framed frame⦄ readCases layout sum forms ⦃framedAnyhow frame⦄ := by
  induction forms with
  | nil => mvcgen [readCases]
  | cons form forms ih => mvcgen [readCases, ih]

@[spec]
theorem framed_readDefault (form : Form) :
    ⦃framed frame⦄ readDefault form ⦃framedAnyhow frame⦄ := by
  mvcgen [readDefault]

@[spec]
theorem framed_readResult (items : List Form) :
    ⦃framed frame⦄ readResult items ⦃framedAnyhow frame⦄ := by
  mvcgen [readResult]

@[spec]
theorem framed_bindPayload (scrutinee : Value)
    (bindings : List PayloadBinding) :
    ⦃framed frame⦄ bindPayload scrutinee bindings ⦃framedAnyhow frame⦄ := by
  mvcgen [bindPayload]

@[spec]
theorem framed_armValue (type : TypeId) (name : Option String) :
    ⦃framed frame⦄ armValue type name ⦃⇓ _ => framed frame⦄ := by
  mvcgen [armValue]

@[spec]
theorem framed_placeArms (arms : List TaggedArm) (id : Nat) :
    ⦃framed frame⦄ placeArms arms id ⦃⇓ _ => framed frame⦄ := by
  mvcgen [placeArms, appendNumbered]

/-! ## Constructs -/

/-- Every form that is emitted leaves its frame alone. -/
def FormEmitter.Framed (emit : FormEmitter) : Prop :=
  ∀ frame form, ⦃framed frame⦄ emit form ⦃⇓ _ => framed frame⦄

theorem framed_inLoop (targets : LoopTargets) {body : Emission Unit}
    (kept : ∀ frame, ⦃framed frame⦄ body ⦃⇓ _ => framed frame⦄) :
    ⦃framed frame⦄ (do
      modifyContext (·.pushLoop targets)
      body
      modifyContext (·.popLoop))
      ⦃⇓ _ => framed frame⦄ :=
  framed_bracket
    (fun state => { state with context := state.context.pushLoop targets })
    (fun _ later => { later with context := later.context.popLoop })
    { frame with loops := targets :: frame.loops }
    (fun _ covers => ⟨congrArg (fun around : EmitFrame =>
      { around with loops := targets :: around.loops }) covers.1, covers.2⟩)
    (fun _ _ _ covers => ⟨congrArg (fun around : EmitFrame =>
      { around with loops := around.loops.tail }) covers.1, covers.2⟩)
    kept

@[spec]
theorem framed_inScope {body : Emission Unit}
    (kept : ∀ frame, ⦃framed frame⦄ body ⦃⇓ _ => framed frame⦄) :
    ⦃framed frame⦄ inScope body ⦃⇓ _ => framed frame⦄ :=
  framed_bracket
    (fun state => { state with context := state.context.enterScope })
    (fun state later =>
      { later with context := later.context.unwindTo state.context.depth })
    { frame with depth := frame.depth + 1 }
    (fun _ covers => ⟨congrArg (fun around : EmitFrame =>
      { around with depth := around.depth + 1 }) covers.1, covers.2⟩)
    (fun state later outside covers => by
      have same : state.context.depth = frame.depth :=
        congrArg EmitFrame.depth outside.1
      refine ⟨?_, covers.2⟩
      show EmitFrame.mk (later.context.unwindTo _).loops _ _ _
        state.context.depth _ _ = _
      rw [FunctionContext.loops_unwindTo, same]
      exact congrArg (fun around : EmitFrame =>
        { around with depth := frame.depth }) covers.1)
    kept

section Constructs

variable {emit : FormEmitter} (kept : FormEmitter.Framed emit)

include kept

@[spec]
theorem framed_emitSequence (forms : List Form) :
    ⦃framed frame⦄ emitSequence emit forms ⦃⇓ _ => framed frame⦄ := by
  have each := kept frame
  induction forms with
  | nil => mvcgen [emitSequence]
  | cons form forms ih => mvcgen [emitSequence, each, ih]

@[spec]
theorem framed_emitArm (block : BlockId) (body : List Form) (next : BlockId) :
    ⦃framed frame⦄ emitArm emit block body next ⦃⇓ _ => framed frame⦄ := by
  mvcgen [emitArm]

@[spec]
theorem framed_emitBranches (test : Value) (thenBody : List Form)
    (elseBody : Option (List Form)) :
    ⦃framed frame⦄ emitBranches emit test thenBody elseBody
      ⦃⇓ _ => framed frame⦄ := by
  cases elseBody <;> mvcgen [emitBranches]

@[spec]
theorem framed_emitConditional (items : List Form) :
    ⦃framed frame⦄ emitConditional emit items ⦃framedAnyhow frame⦄ := by
  mvcgen [emitConditional]

@[spec]
theorem framed_emitLoopBody (targets : LoopTargets) (block : BlockId)
    (body : List Form) (next : BlockId) :
    ⦃framed frame⦄ emitLoopBody emit targets block body next
      ⦃⇓ _ => framed frame⦄ :=
  framed_inLoop targets fun _ => framed_emitArm kept block body next

@[spec]
theorem framed_emitWhile (items : List Form) :
    ⦃framed frame⦄ emitWhile emit items ⦃framedAnyhow frame⦄ := by
  mvcgen [emitWhile]

@[spec]
theorem framed_emitForBlocks (id : Nat) (test : Option Form)
    (step body : List Form) :
    ⦃framed frame⦄ emitForBlocks emit id test step body
      ⦃⇓ _ => framed frame⦄ := by
  cases test <;> mvcgen [emitForBlocks]

@[spec]
theorem framed_emitFor (items : List Form) :
    ⦃framed frame⦄ emitFor emit items ⦃framedAnyhow frame⦄ := by
  mvcgen [emitFor]

@[spec]
theorem framed_emitCases (scrutinee : Value) (noMatch endBlock : BlockId)
    (cases : List PlacedCase) :
    ⦃framed frame⦄ emitCases emit scrutinee noMatch endBlock cases
      ⦃⇓ _ => framed frame⦄ := by
  induction cases with
  | nil => mvcgen [emitCases]
  | cons entry rest ih => mvcgen [emitCases, ih]

@[spec]
theorem framed_emitSwitchBlocks (scrutinee : Value)
    (cases : List (Int64 × List Form)) (default : Option (List Form)) :
    ⦃framed frame⦄ emitSwitchBlocks emit scrutinee cases default
      ⦃⇓ _ => framed frame⦄ := by
  cases default <;> mvcgen [emitSwitchBlocks, placeCase]

@[spec]
theorem framed_emitSwitch (items : List Form) :
    ⦃framed frame⦄ emitSwitch emit items ⦃framedAnyhow frame⦄ := by
  mvcgen [emitSwitch]

@[spec]
theorem framed_emitBlock (items : List Form) :
    ⦃framed frame⦄ emitBlock emit items ⦃framedAnyhow frame⦄ := by
  mvcgen [emitBlock]
  exact fun _ _ _ => kept

@[spec]
theorem framed_emitMatchArm (result : Option MatchResult)
    (endBlock : BlockId) (arm : Arm) :
    ⦃framed frame⦄ emitMatchArm emit result endBlock arm
      ⦃⇓ _ => framed frame⦄ := by
  mvcgen [emitMatchArm]

@[spec]
theorem framed_emitMatchCases (result : Option MatchResult)
    (scrutinee tag : Value) (noMatch endBlock : BlockId)
    (arms : List PlacedArm) :
    ⦃framed frame⦄ emitMatchCases emit result scrutinee tag noMatch endBlock
      arms ⦃⇓ _ => framed frame⦄ := by
  induction arms with
  | nil => mvcgen [emitMatchCases]
  | cons placed rest ih => mvcgen [emitMatchCases, ih]

@[spec]
theorem framed_emitMatchBlocks (result : Option MatchResult)
    (scrutinee tag : Value) (arms : List TaggedArm) (default : Option Arm) :
    ⦃framed frame⦄ emitMatchBlocks emit result scrutinee tag arms default
      ⦃⇓ _ => framed frame⦄ := by
  cases default with
  | some arm => mvcgen [emitMatchBlocks]
  | none =>
      unfold emitMatchBlocks
      refine framed_then framed_freshId fun id => ?_
      refine framed_then (framed_placeArms arms id) fun placed => ?_
      refine framed_then (by mvcgen) fun start => ?_
      refine framed_then (by mvcgen) fun endBlock => ?_
      refine framed_then (by mvcgen) fun _ => ?_
      refine framed_then (framed_emitMatchCases kept _ _ _ _ _ _)
        fun edges => ?_
      refine framed_then (by mvcgen) fun _ => ?_
      dsimp only
      split <;> mvcgen

@[spec]
theorem framed_emitMatch (items : List Form) :
    ⦃framed frame⦄ emitMatch emit items ⦃framedAnyhow frame⦄ := by
  mvcgen [emitMatch]

@[spec]
theorem framed_emitUnprotected (id : Nat) (bodyBlock : BlockId)
    (body handler : List Form) :
    ⦃framed frame⦄ emitUnprotected emit id bodyBlock body handler
      ⦃⇓ _ => framed frame⦄ := by
  mvcgen [emitUnprotected]

@[spec]
theorem framed_emitWithLandingPad (id : Nat) (bodyBlock : BlockId)
    (body handler : List Form) :
    ⦃framed frame⦄ emitWithLandingPad emit id bodyBlock body handler
      ⦃⇓ _ => framed frame⦄ := by
  mvcgen [emitWithLandingPad]
  exact fun _ _ _ => kept

@[spec]
theorem framed_emitWithFunclet (id : Nat) (bodyBlock : BlockId)
    (body handler : List Form) :
    ⦃framed frame⦄ emitWithFunclet emit id bodyBlock body handler
      ⦃⇓ _ => framed frame⦄ := by
  mvcgen [emitWithFunclet]
  exact fun _ _ _ => kept

@[spec]
theorem framed_emitTry (items : List Form) :
    ⦃framed frame⦄ emitTry emit items ⦃framedAnyhow frame⦄ := by
  mvcgen [emitTry]

end Constructs

/-! ## Leaving -/

@[spec]
theorem framed_emitBreak (items : List Form) :
    ⦃framed frame⦄ emitBreak items ⦃framedAnyhow frame⦄ := by
  mvcgen [emitBreak]

@[spec]
theorem framed_emitContinue (items : List Form) :
    ⦃framed frame⦄ emitContinue items ⦃framedAnyhow frame⦄ := by
  mvcgen [emitContinue]

@[spec]
theorem framed_declareNoReturn (name : String) (parameters : List TypeId) :
    ⦃framed frame⦄ declareNoReturn name parameters ⦃⇓ _ => framed frame⦄ := by
  mvcgen [declareNoReturn]

@[spec]
theorem framed_throwingCall (personality : Personality) :
    ⦃framed frame⦄ throwingCall personality ⦃⇓ _ => framed frame⦄ := by
  mvcgen [throwingCall]

@[spec]
theorem framed_emitTrap :
    ⦃framed frame⦄ emitTrap ⦃⇓ _ => framed frame⦄ := by
  mvcgen [emitTrap]

@[spec]
theorem framed_emitThrow (personality : Personality) :
    ⦃framed frame⦄ emitThrow personality ⦃⇓ _ => framed frame⦄ := by
  mvcgen [emitThrow]

@[spec]
theorem framed_emitPanic :
    ⦃framed frame⦄ emitPanic ⦃framedAnyhow frame⦄ := by
  mvcgen [emitPanic]

@[spec]
theorem framed_buildInvocation (callee : Value) (arguments : List Value)
    (name : String) :
    ⦃framed frame⦄ buildInvocation callee arguments name
      ⦃⇓ _ => framed frame⦄ := by
  mvcgen [buildInvocation]

@[spec]
theorem framed_emitCall (items : List Form) :
    ⦃framed frame⦄ emitCall items ⦃framedAnyhow frame⦄ := by
  mvcgen [emitCall]

/-! ## Forms -/

theorem framed_dispatch {emit : FormEmitter} (kept : emit.Framed)
    (opcode : Opcode) (items : List Form) :
    ⦃framed frame⦄ dispatch emit opcode items ⦃framedAnyhow frame⦄ := by
  cases opcode <;> mvcgen [dispatch]
  all_goals exact fun _ _ _ => kept

@[spec]
theorem framed_atPlaceOf (form : Form) {body : Emission Unit}
    (kept : ∀ frame, ⦃framed frame⦄ body ⦃⇓ _ => framed frame⦄) :
    ⦃framed frame⦄ atPlaceOf form body ⦃⇓ _ => framed frame⦄ :=
  framed_bracket
    (fun state => { state with span := form.span?.or state.span })
    (fun state later => { later with span := state.span })
    { frame with span := form.span?.or frame.span }
    (fun _ covers => ⟨congrArg (fun around : EmitFrame =>
      { around with span := form.span?.or around.span }) covers.1, covers.2⟩)
    (fun state later outside covers => by
      have same : state.span = frame.span := congrArg EmitFrame.span outside.1
      refine ⟨?_, covers.2⟩
      show EmitFrame.mk _ _ _ _ _ state.span _ = _
      rw [same]
      exact congrArg (fun around : EmitFrame =>
        { around with span := frame.span }) covers.1)
    kept

/-- A handler that gives up is reported. -/
theorem framed_handled {handler : Handler Unit} (head : String)
    (kept : ⦃framed frame⦄ handler ⦃framedAnyhow frame⦄) :
    ⦃framed frame⦄ (do
      match ← handler.run with
      | .ok _ => pure ()
      | .error cause => report head cause : Emission Unit)
      ⦃⇓ _ => framed frame⦄ := by
  mvcgen [kept]

theorem framed_emitList {emit : FormEmitter} (kept : emit.Framed)
    (form : Form) (items : List Form) :
    ⦃framed frame⦄ emitList emit form items ⦃⇓ _ => framed frame⦄ := by
  apply framed_atPlaceOf
  intro inside
  apply framed_handled
  cases form.head?.bind Opcode.ofHead? with
  | some opcode => exact framed_dispatch kept opcode items
  | none => mvcgen

theorem framed_emitWithin (depth : Nat) : (emitWithin depth).Framed := by
  induction depth with
  | zero => exact fun _ _ => framed_report _ _
  | succ depth ih =>
      intro frame form
      unfold emitWithin
      split
      · exact framed_emitList ih form _
      · exact framed_report _ _

theorem framed_emitForm : emitForm.Framed :=
  fun frame form => framed_emitWithin form.height frame form

/-- Whatever is around a form is still around it afterwards. -/
theorem frame_emitForm (form : Form) (environment : Environment)
    (state : EmitState) :
    state.frame.Covers (emitForm form environment state).2.frame :=
  framed_emitForm state.frame form environment state (.refl state.frame)

end FormCompiler
