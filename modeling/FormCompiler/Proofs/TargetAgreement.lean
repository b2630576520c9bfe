import Mathlib
import FormCompiler.Proofs.BodyFrames
import FormCompiler.Proofs.Detours
import FormCompiler.Proofs.LexicalTargets

/-!
# Stacks follow the source

A form that is emitted with the stacks and a form that is emitted in its
surroundings give the same code, as long as the tops of the stacks are what
encloses the form.  Every form leaves the stacks as they are, so what holds
ahead of a form holds ahead of the next one too, and loops and `try` change the
stacks and the surroundings of their bodies alike.
-/

open Std.Do

set_option mvcgen.warning false

namespace FormCompiler

open Ir

/-! ## Agreement -/

/-- The handlers on the stack of a personality. -/
def EmitFrame.handlers (frame : EmitFrame) : Personality → List BlockId
  | .itanium => frame.landingPads
  | .seh => frame.dispatches

/-- The tops of the stacks are what encloses a form. -/
structure Surroundings.Encloses (around : Surroundings)
    (environment : Environment) (frame : EmitFrame) : Prop where
  loop : frame.loops.head? = around.loop
  handler : ∀ personality,
    environment.configuration.personality = some personality →
      (frame.handlers personality).head? = around.handler

section Agreement

variable {Error Result Other : Type} {environment : Environment}
  {around : Surroundings}

theorem Surroundings.Encloses.of_covers {frame later : EmitFrame}
    (encloses : around.Encloses environment frame)
    (covers : frame.Covers later) : around.Encloses environment later := by
  rw [covers.1]
  refine ⟨encloses.loop, ?_⟩
  intro personality active
  rw [← encloses.handler personality active]
  cases personality <;> rfl

/-- Two emissions do the same wherever a form is enclosed as given. -/
def Agrees (environment : Environment) (around : Surroundings)
    (first second : Emission Result) : Prop :=
  ∀ state, around.Encloses environment state.frame →
    first environment state = second environment state

namespace Agrees

variable {first second : Emission Result}
  {next other : Result → Emission Other}

theorem refl (emission : Emission Result) :
    Agrees environment around emission emission :=
  fun _ _ => rfl

theorem bind (agrees : Agrees environment around first second)
    (kept : ∀ frame, ⦃framed frame⦄ first ⦃⇓ _ => framed frame⦄)
    (rest : ∀ result,
      Agrees environment around (next result) (other result)) :
    Agrees environment around (first >>= next) (second >>= other) := by
  intro state encloses
  rw [reader_bind_apply, reader_bind_apply, ← agrees state encloses]
  have covers := kept state.frame environment state (.refl state.frame)
  exact rest _ _ (encloses.of_covers covers)

/-- The same step ahead of what agrees. -/
theorem step (kept : ∀ frame, ⦃framed frame⦄ first ⦃⇓ _ => framed frame⦄)
    (rest : ∀ result,
      Agrees environment around (next result) (other result)) :
    Agrees environment around (first >>= next) (first >>= other) :=
  (refl first).bind kept rest

/-- The personality is the one that is configured. -/
theorem personality
    {next other : Option Personality → Emission Result}
    (rest : Agrees environment around
      (next environment.configuration.personality)
      (other environment.configuration.personality)) :
    Agrees environment around (personality? >>= next)
      (personality? >>= other) :=
  rest

/-- What is around is changed for a body, and then changed back. -/
theorem bracket {first second : Emission Unit} (outside inside : Surroundings)
    (enter : EmitState → EmitState) (leave : EmitState → EmitState → EmitState)
    (enters : ∀ state, outside.Encloses environment state.frame →
      inside.Encloses environment (enter state).frame)
    (agrees : Agrees environment inside first second) :
    Agrees environment outside
      (do let state ← get; set (enter state); first; modify (leave state))
      (do
        let state ← get; set (enter state); second; modify (leave state)) := by
  intro state encloses
  show (first >>= fun _ => modify (leave state) : Emission Unit) environment
      (enter state) =
    (second >>= fun _ => modify (leave state) : Emission Unit) environment
      (enter state)
  rw [reader_bind_apply, reader_bind_apply,
    agrees _ (enters state encloses)]

theorem inScope {first second : Emission Unit}
    (agrees : Agrees environment around first second) :
    Agrees environment around (inScope first) (inScope second) :=
  .bracket around around
    (fun state => { state with context := state.context.enterScope })
    (fun state later =>
      { later with context := later.context.unwindTo state.context.depth })
    (fun _ encloses => ⟨encloses.loop, encloses.handler⟩) agrees

end Agrees

/-- Two emissions that may fail do the same wherever a form is enclosed as
given. -/
def Concur (environment : Environment) (around : Surroundings)
    (first second : ExceptT Error Emission Result) : Prop :=
  Agrees environment around first.run second.run

theorem framed_run {frame : EmitFrame} {handler : ExceptT Error Emission Result}
    (kept : ⦃framed frame⦄ handler ⦃framedAnyhow frame⦄) :
    ⦃framed frame⦄ handler.run ⦃⇓ _ => framed frame⦄ := by
  mvcgen [kept]

namespace Concur

variable {first second : ExceptT Error Emission Result}
  {next other : Result → ExceptT Error Emission Other}

theorem refl (handler : ExceptT Error Emission Result) :
    Concur environment around handler handler :=
  Agrees.refl _

theorem lift {first second : Emission Result}
    (agrees : Agrees environment around first second) :
    Concur environment around (liftM first : ExceptT Error Emission Result)
      (liftM second) := by
  intro state encloses
  show (first >>= fun result => pure (.ok result) :
      Emission (Except Error Result)) environment state =
    (second >>= fun result => pure (.ok result)) environment state
  rw [reader_bind_apply, reader_bind_apply, agrees state encloses]

theorem bind (concur : Concur environment around first second)
    (kept : ∀ frame, ⦃framed frame⦄ first ⦃framedAnyhow frame⦄)
    (rest : ∀ result,
      Concur environment around (next result) (other result)) :
    Concur environment around (first >>= next) (second >>= other) := by
  unfold Concur
  rw [ExceptT.run_bind, ExceptT.run_bind]
  refine Agrees.bind concur (fun frame => framed_run (kept frame)) ?_
  intro outcome
  cases outcome with
  | error cause => exact .refl _
  | ok result => exact rest result

theorem step (kept : ∀ frame, ⦃framed frame⦄ first ⦃framedAnyhow frame⦄)
    (rest : ∀ result,
      Concur environment around (next result) (other result)) :
    Concur environment around (first >>= next) (first >>= other) :=
  (refl first).bind kept rest

/-- The personality is the one that is configured. -/
theorem personality
    {next other : Option Personality → ExceptT Error Emission Result}
    (rest : Concur environment around
      (next environment.configuration.personality)
      (other environment.configuration.personality)) :
    Concur environment around
      (do next (← personality?)) (do other (← personality?)) :=
  rest

theorem refusal {condition : Prop} [Decidable condition]
    {refuse : ExceptT Error Emission PUnit}
    {next other : PUnit → ExceptT Error Emission Result}
    (kept : ∀ frame, ⦃framed frame⦄ refuse ⦃framedAnyhow frame⦄)
    (rest : Concur environment around (next ()) (other ())) :
    Concur environment around
      (if condition then refuse >>= next else next ())
      (if condition then refuse >>= other else other ()) := by
  split
  · exact .step kept fun _ => rest
  · exact rest

end Concur

end Agreement

theorem block?_appendBlock (name : String) (environment : Environment)
    (state : EmitState) :
    state.builder.module.block?
      ((Builder.appendBlock name : Emission BlockId) environment state).1 =
      none :=
  List.getElem?_eq_none le_rfl

theorem emission_bind_pure_fst {Other : Type} (first : Emission Other)
    (block : BlockId) (environment : Environment) (state : EmitState) :
    ((first >>= fun _ => pure block : Emission BlockId) environment state).1 =
      block :=
  rfl

/-- A block that passes an exception on is a new one. -/
theorem block?_resumingPad (environment : Environment) (state : EmitState) :
    state.builder.module.block? (resumingPad environment state).1 = none := by
  have same : (freshId environment state).2.builder = state.builder := rfl
  unfold resumingPad
  rw [reader_bind_apply, reader_bind_apply, emission_bind_pure_fst,
    ← same]
  exact block?_appendBlock _ environment (freshId environment state).2

attribute [local irreducible] onBuilder

/-! ## Forms in the same surroundings -/

section Congruence

variable {environment : Environment} {around : Surroundings}
  {emit other : FormEmitter} (kept : emit.Framed)
  (agrees : ∀ form, Agrees environment around (emit form) (other form))

include kept agrees

theorem agrees_emitSequence (forms : List Form) :
    Agrees environment around (emitSequence emit forms)
      (emitSequence other forms) := by
  induction forms with
  | nil => exact .refl _
  | cons form forms ih =>
      unfold emitSequence
      refine .step (fun _ => by mvcgen) fun ended => ?_
      cases ended with
      | true => exact .refl _
      | false => exact .bind (agrees form) (fun _ => kept _ form) fun _ => ih

theorem agrees_emitArm (block : BlockId) (body : List Form) (next : BlockId) :
    Agrees environment around (emitArm emit block body next)
      (emitArm other block body next) := by
  unfold emitArm
  refine .step (fun _ => by mvcgen) fun _ => ?_
  exact .bind (agrees_emitSequence kept agrees body)
    (fun _ => framed_emitSequence kept body) fun _ => .refl _

theorem agrees_emitBranches (test : Value) (thenBody : List Form)
    (elseBody : Option (List Form)) :
    Agrees environment around (emitBranches emit test thenBody elseBody)
      (emitBranches other test thenBody elseBody) := by
  unfold emitBranches
  refine .step (fun _ => framed_freshId) fun id => ?_
  refine .step (fun _ => by mvcgen) fun thenBlock => ?_
  cases elseBody with
  | some elseBody =>
      refine .step (fun _ => by mvcgen) fun elseBlock => ?_
      refine .step (fun _ => by mvcgen) fun endBlock => ?_
      refine .step (fun _ => by mvcgen) fun _ => ?_
      refine .bind (agrees_emitArm kept agrees _ _ _)
        (fun _ => framed_emitArm kept _ _ _) fun _ => ?_
      exact .bind (agrees_emitArm kept agrees _ _ _)
        (fun _ => framed_emitArm kept _ _ _) fun _ => .refl _
  | none =>
      refine .step (fun _ => by mvcgen) fun endBlock => ?_
      refine .step (fun _ => by mvcgen) fun _ => ?_
      exact .bind (agrees_emitArm kept agrees _ _ _)
        (fun _ => framed_emitArm kept _ _ _) fun _ => .refl _

theorem concur_emitConditional (items : List Form) :
    Concur environment around (emitConditional emit items)
      (emitConditional other items) := by
  unfold emitConditional
  refine .refusal (fun _ => by mvcgen) ?_
  refine .step (fun _ => by mvcgen) fun thenBody => ?_
  refine .step (fun _ => by mvcgen) fun elseBody => ?_
  refine .step (fun _ => by mvcgen) fun form => ?_
  refine .step (fun _ => by mvcgen) fun test => ?_
  exact .lift (agrees_emitBranches kept agrees test thenBody elseBody)

theorem agrees_emitCases (scrutinee : Value) (noMatch endBlock : BlockId)
    (cases : List PlacedCase) :
    Agrees environment around
      (emitCases emit scrutinee noMatch endBlock cases)
      (emitCases other scrutinee noMatch endBlock cases) := by
  induction cases with
  | nil => exact .refl _
  | cons entry rest ih =>
      unfold emitCases
      refine .step (fun _ => by mvcgen) fun _ => ?_
      refine .step (fun _ => by mvcgen) fun expected => ?_
      refine .step (fun _ => by mvcgen) fun hit => ?_
      refine .step (fun _ => by mvcgen) fun _ => ?_
      exact .bind (agrees_emitArm kept agrees _ _ _)
        (fun _ => framed_emitArm kept _ _ _) fun _ => ih

theorem agrees_emitSwitchBlocks (scrutinee : Value)
    (cases : List (Int64 × List Form)) (default : Option (List Form)) :
    Agrees environment around (emitSwitchBlocks emit scrutinee cases default)
      (emitSwitchBlocks other scrutinee cases default) := by
  unfold emitSwitchBlocks
  refine .step (fun _ => framed_freshId) fun id => ?_
  refine .step (fun _ => by mvcgen [placeCase]) fun placed => ?_
  cases default with
  | some body =>
      refine .step (fun _ => by mvcgen) fun defaultBlock => ?_
      refine .step (fun _ => by mvcgen) fun endBlock => ?_
      refine .step (fun _ => by mvcgen) fun _ => ?_
      refine .bind (agrees_emitCases kept agrees _ _ _ placed)
        (fun _ => framed_emitCases kept _ _ _ placed) fun _ => ?_
      exact .bind (agrees_emitArm kept agrees _ _ _)
        (fun _ => framed_emitArm kept _ _ _) fun _ => .refl _
  | none =>
      refine .step (fun _ => by mvcgen) fun endBlock => ?_
      refine .step (fun _ => by mvcgen) fun _ => ?_
      exact .bind (agrees_emitCases kept agrees _ _ _ placed)
        (fun _ => framed_emitCases kept _ _ _ placed) fun _ => .refl _

theorem concur_emitSwitch (items : List Form) :
    Concur environment around (emitSwitch emit items)
      (emitSwitch other items) := by
  unfold emitSwitch
  refine .refusal (fun _ => by mvcgen) ?_
  refine .step (fun _ => by mvcgen) fun arguments => ?_
  refine .step (fun _ => by mvcgen) fun caseForms => ?_
  refine .step (fun _ => by mvcgen) fun cases => ?_
  refine .step (fun _ => by mvcgen) fun form => ?_
  refine .step (fun _ => by mvcgen) fun scrutinee => ?_
  refine .step (fun _ => by mvcgen) fun table => ?_
  have rest := agrees_emitSwitchBlocks kept agrees scrutinee cases
    (arguments.vector? "default")
  dsimp only
  split
  · refine .step (fun _ => by mvcgen) fun spelled => ?_
    exact .step (fun _ => by mvcgen) fun _ => .lift rest
  · exact .lift rest

theorem concur_emitBlock (items : List Form) :
    Concur environment around (emitBlock emit items)
      (emitBlock other items) := by
  unfold emitBlock
  refine .step (fun _ => by mvcgen) fun (locals, body) => ?_
  refine .step (fun _ => by mvcgen) fun declared => ?_
  refine .lift (.inScope ?_)
  refine .step (fun _ => by mvcgen) fun _ => ?_
  exact agrees_emitSequence kept agrees body

theorem agrees_emitMatchArm (result : Option MatchResult)
    (endBlock : BlockId) (arm : Arm) :
    Agrees environment around (emitMatchArm emit result endBlock arm)
      (emitMatchArm other result endBlock arm) :=
  .bind (agrees_emitSequence kept agrees arm.body)
    (fun _ => framed_emitSequence kept arm.body) fun _ => .refl _

theorem agrees_emitMatchCases (result : Option MatchResult)
    (scrutinee tag : Value) (noMatch endBlock : BlockId)
    (arms : List PlacedArm) :
    Agrees environment around
      (emitMatchCases emit result scrutinee tag noMatch endBlock arms)
      (emitMatchCases other result scrutinee tag noMatch endBlock arms) := by
  induction arms with
  | nil => exact .refl _
  | cons placed rest ih =>
      have arm := Agrees.bind
        (agrees_emitMatchArm kept agrees result endBlock placed.tagged.arm)
        (fun _ => framed_emitMatchArm kept result endBlock
          placed.tagged.arm)
        fun edges => Agrees.bind ih
          (fun _ => framed_emitMatchCases kept result scrutinee tag noMatch
            endBlock rest)
          fun later => Agrees.refl (pure (edges ++ later))
      unfold emitMatchCases
      refine .step (fun _ => by mvcgen) fun _ => ?_
      refine .step (fun _ => by mvcgen) fun expected => ?_
      refine .step (fun _ => by mvcgen) fun hit => ?_
      refine .step (fun _ => by mvcgen) fun _ => ?_
      refine .step (fun _ => by mvcgen) fun _ => ?_
      refine .step (fun _ => by mvcgen) fun bound => ?_
      cases bound with
      | ok _ => exact arm
      | error cause => exact .step (fun _ => by mvcgen) fun _ => arm

theorem agrees_emitMatchBlocks (result : Option MatchResult)
    (scrutinee tag : Value) (arms : List TaggedArm) (default : Option Arm) :
    Agrees environment around
      (emitMatchBlocks emit result scrutinee tag arms default)
      (emitMatchBlocks other result scrutinee tag arms default) := by
  unfold emitMatchBlocks
  refine .step (fun _ => framed_freshId) fun id => ?_
  refine .step (fun _ => framed_placeArms arms id) fun placed => ?_
  refine .step (fun _ => by mvcgen) fun start => ?_
  cases default with
  | some arm =>
      refine .step (fun _ => by mvcgen) fun defaultBlock => ?_
      refine .step (fun _ => by mvcgen) fun endBlock => ?_
      refine .step (fun _ => by mvcgen) fun _ => ?_
      refine .bind (agrees_emitMatchCases kept agrees _ _ _ _ _ placed)
        (fun _ => framed_emitMatchCases kept _ _ _ _ _ placed)
        fun edges => ?_
      refine .step (fun _ => by mvcgen) fun _ => ?_
      exact .bind (agrees_emitMatchArm kept agrees result endBlock arm)
        (fun _ => framed_emitMatchArm kept result endBlock arm)
        fun _ => .refl _
  | none =>
      refine .step (fun _ => by mvcgen) fun endBlock => ?_
      refine .step (fun _ => by mvcgen) fun _ => ?_
      exact .bind (agrees_emitMatchCases kept agrees _ _ _ _ _ placed)
        (fun _ => framed_emitMatchCases kept _ _ _ _ _ placed)
        fun _ => .refl _

theorem concur_emitMatch (items : List Form) :
    Concur environment around (emitMatch emit items)
      (emitMatch other items) := by
  unfold emitMatch
  refine .step (fun _ => by mvcgen) fun (result, rest) => ?_
  refine .step (fun _ => by mvcgen) fun sum => ?_
  refine .step (fun _ => by mvcgen) fun scrutineeForm => ?_
  refine .step (fun _ => by mvcgen) fun reader => ?_
  refine .step (fun _ => by mvcgen) fun layout => ?_
  refine .step (fun _ => by mvcgen) fun arms => ?_
  refine .step (fun _ => by mvcgen) fun default => ?_
  refine .step (fun _ => by mvcgen) fun scrutinee => ?_
  refine .step (fun _ => by mvcgen) fun tagField => ?_
  refine .step (fun _ => by mvcgen) fun tagAddress => ?_
  refine .step (fun _ => by mvcgen) fun tagLoad => ?_
  refine .step (fun _ => by mvcgen) fun tag => ?_
  exact .bind
    (.lift (agrees_emitMatchBlocks kept agrees result scrutinee tag arms
      default))
    (fun _ => by mvcgen) fun _ => .refl _

theorem agrees_emitUnprotected (id : Nat) (bodyBlock : BlockId)
    (body handler : List Form) :
    Agrees environment around
      (emitUnprotected emit id bodyBlock body handler)
      (emitUnprotected other id bodyBlock body handler) := by
  unfold emitUnprotected
  refine .step (fun _ => by mvcgen) fun endBlock => ?_
  refine .step (fun _ => by mvcgen) fun _ => ?_
  refine .step (fun _ => by mvcgen) fun _ => ?_
  refine .bind (agrees_emitSequence kept agrees body)
    (fun _ => framed_emitSequence kept body) fun _ => ?_
  exact .bind (agrees_emitSequence kept agrees handler)
    (fun _ => framed_emitSequence kept handler) fun _ => .refl _

end Congruence

/-! ## Loops and handlers -/

section Targets

variable {environment : Environment} {around : Surroundings}

theorem concur_emitBreak (items : List Form) :
    Concur environment around (emitBreak items)
      (Lexical.emitBreak around items) := by
  refine .step (fun _ => by mvcgen) fun _ => ?_
  intro state encloses
  rw [← encloses.loop]
  rfl

theorem concur_emitContinue (items : List Form) :
    Concur environment around (emitContinue items)
      (Lexical.emitContinue around items) := by
  refine .step (fun _ => by mvcgen) fun _ => ?_
  intro state encloses
  rw [← encloses.loop]
  rfl

theorem agrees_unwindTarget {personality : Personality}
    (active : environment.configuration.personality = some personality) :
    Agrees environment around (unwindTarget personality)
      (Lexical.unwindTarget around personality) := by
  intro state encloses
  have top := encloses.handler personality active
  unfold unwindTarget Lexical.unwindTarget
  rw [emission_get_bind, ← top]
  cases personality with
  | itanium =>
      dsimp only [EmitFrame.handlers, EmitState.frame]
      cases state.unwindTargets.landingPads <;> rfl
  | seh =>
      dsimp only [EmitFrame.handlers, EmitState.frame]
      cases state.unwindTargets.dispatches <;> rfl

theorem agrees_buildInvocation (callee : Value) (arguments : List Value)
    (name : String) :
    Agrees environment around (buildInvocation callee arguments name)
      (Lexical.buildInvocation around callee arguments name) := by
  unfold buildInvocation Lexical.buildInvocation
  refine .step (fun _ => by mvcgen) fun table => ?_
  split
  · exact .refl _
  · refine .personality ?_
    cases active : environment.configuration.personality with
    | none => exact .refl _
    | some personality =>
        exact .bind (agrees_unwindTarget active)
          (fun _ => framed_unwindTarget personality) fun _ => .refl _

theorem concur_emitCall (items : List Form) :
    Concur environment around (emitCall items)
      (Lexical.emitCall around items) := by
  unfold emitCall Lexical.emitCall
  refine .refusal (fun _ => by mvcgen) ?_
  refine .step (fun _ => by mvcgen) fun destination => ?_
  refine .step (fun _ => by mvcgen) fun resultForm => ?_
  refine .step (fun _ => by mvcgen) fun result => ?_
  refine .step (fun _ => by mvcgen) fun name => ?_
  refine .step (fun _ => by mvcgen) fun forms => ?_
  refine .step (fun _ => by mvcgen) fun (id, arguments) => ?_
  refine .step (fun _ => by mvcgen) fun table => ?_
  refine .step (fun _ => by mvcgen) fun declarations => ?_
  refine .step (fun _ => by mvcgen) fun _ => ?_
  refine .step (fun _ => by mvcgen) fun callee => ?_
  exact .bind (.lift (agrees_buildInvocation callee arguments destination))
    (fun _ => by mvcgen) fun _ => .refl _

theorem agrees_emitThrow {personality : Personality}
    (active : environment.configuration.personality = some personality) :
    Agrees environment around (emitThrow personality)
      (Lexical.emitThrow around personality) := by
  unfold emitThrow Lexical.emitThrow
  refine .step (fun _ => by mvcgen) fun (routine, arguments) => ?_
  exact .bind (agrees_unwindTarget active)
    (fun _ => framed_unwindTarget personality) fun _ => .refl _

theorem concur_emitPanic :
    Concur environment around emitPanic (Lexical.emitPanic around) := by
  unfold emitPanic Lexical.emitPanic
  refine .personality ?_
  cases active : environment.configuration.personality with
  | none => exact .refl _
  | some personality =>
      refine .step (fun _ => by mvcgen) fun reader => ?_
      split
      · exact .lift (agrees_emitThrow active)
      · exact .refl _

variable {emit : FormEmitter} {lexical : LexicalEmitter}

/-- The body of a loop is in the loop. -/
theorem agrees_emitLoopBody (targets : LoopTargets)
    (kept : emit.Framed)
    (agrees : ∀ form, Agrees environment (around.inLoop targets) (emit form)
      (lexical (around.inLoop targets) form))
    (block : BlockId) (body : List Form) (next : BlockId) :
    Agrees environment around (emitLoopBody emit targets block body next)
      (emitLoopBody (lexical (around.inLoop targets)) targets block body
        next) :=
  .bracket around (around.inLoop targets)
    (fun state => { state with context := state.context.pushLoop targets })
    (fun _ later => { later with context := later.context.popLoop })
    (fun _ encloses => ⟨rfl, encloses.handler⟩)
    (agrees_emitArm kept agrees block body next)

/-- What is protected by a handler is in the `try`. -/
theorem agrees_protectedBy {personality : Personality} (handler : BlockId)
    (active : environment.configuration.personality = some personality)
    {first second : Emission Unit}
    (agrees : Agrees environment (around.inTry handler) first second) :
    Agrees environment around (protectedBy personality handler first)
      (protectedBy personality handler second) := by
  have only (other : Personality)
      (found : environment.configuration.personality = some other) :
      other = personality := by
    rw [active] at found
    exact (Option.some.inj found).symm
  cases personality with
  | itanium =>
      refine .bracket around (around.inTry handler) _ (fun _ later =>
        { later with
          unwindTargets :=
            { later.unwindTargets with
              landingPads := later.unwindTargets.landingPads.tail } })
        (fun state encloses => ⟨encloses.loop, ?_⟩) agrees
      intro other found
      rw [only other found]
      rfl
  | seh =>
      refine .bracket around (around.inTry handler) _ (fun _ later =>
        { later with
          unwindTargets :=
            { later.unwindTargets with
              dispatches := later.unwindTargets.dispatches.tail } })
        (fun state encloses => ⟨encloses.loop, ?_⟩) agrees
      intro other found
      rw [only other found]
      rfl

variable (kept : emit.Framed)
  (agrees : ∀ around form,
    Agrees environment around (emit form) (lexical around form))

include kept agrees

theorem concur_emitWhile (items : List Form) :
    Concur environment around (emitWhile emit items)
      (Lexical.emitWhile lexical around items) := by
  unfold emitWhile Lexical.emitWhile
  refine .step (fun _ => by mvcgen) fun _ => ?_
  refine .step (fun _ => by mvcgen) fun body => ?_
  refine .step (fun _ => by mvcgen) fun test => ?_
  refine .step (fun _ => by mvcgen) fun id => ?_
  refine .step (fun _ => by mvcgen) fun testBlock => ?_
  refine .step (fun _ => by mvcgen) fun bodyBlock => ?_
  refine .step (fun _ => by mvcgen) fun endBlock => ?_
  refine .step (fun _ => by mvcgen) fun _ => ?_
  refine .step (fun _ => by mvcgen) fun _ => ?_
  refine .step (fun _ => by mvcgen) fun _ => ?_
  exact .bind
    (.lift (agrees_emitLoopBody ⟨endBlock, testBlock⟩ kept (agrees _)
      bodyBlock body testBlock))
    (fun _ => by mvcgen) fun _ => .refl _

theorem agrees_emitForBlocks (id : Nat) (test : Option Form)
    (step body : List Form) :
    Agrees environment around (emitForBlocks emit id test step body)
      (Lexical.emitForBlocks lexical around id test step body) := by
  have rest (testBlock bodyBlock stepBlock endBlock : BlockId) :=
    Agrees.bind
      (agrees_emitLoopBody ⟨endBlock, stepBlock⟩ kept
        (agrees (around.inLoop ⟨endBlock, stepBlock⟩)) bodyBlock body
        stepBlock)
      (fun _ => framed_emitLoopBody kept _ _ _ _) fun _ =>
        .bind (agrees_emitArm kept (agrees around) stepBlock step testBlock)
          (fun _ => framed_emitArm kept _ _ _)
          fun _ => .refl (Builder.positionAtEnd endBlock)
  unfold emitForBlocks Lexical.emitForBlocks
  refine .step (fun _ => by mvcgen) fun testBlock => ?_
  refine .step (fun _ => by mvcgen) fun bodyBlock => ?_
  refine .step (fun _ => by mvcgen) fun stepBlock => ?_
  refine .step (fun _ => by mvcgen) fun endBlock => ?_
  refine .step (fun _ => by mvcgen) fun _ => ?_
  refine .step (fun _ => by mvcgen) fun _ => ?_
  cases test with
  | some test =>
      exact .step (fun _ => by mvcgen) fun _ =>
        rest testBlock bodyBlock stepBlock endBlock
  | none =>
      exact .step (fun _ => by mvcgen) fun _ =>
        rest testBlock bodyBlock stepBlock endBlock

theorem concur_emitFor (items : List Form) :
    Concur environment around (emitFor emit items)
      (Lexical.emitFor lexical around items) := by
  unfold emitFor Lexical.emitFor
  refine .step (fun _ => by mvcgen) fun arguments => ?_
  refine .step (fun _ => by mvcgen) fun body => ?_
  refine .step (fun _ => by mvcgen) fun id => ?_
  refine .bind (.lift (agrees_emitSequence kept (agrees around) _))
    (fun _ => by mvcgen) fun _ => ?_
  refine .step (fun _ => by mvcgen) fun ended => ?_
  split
  · exact .refl _
  · exact .lift (agrees_emitForBlocks kept agrees id _ _ body)

theorem agrees_emitWithLandingPad
    (active : environment.configuration.personality = some .itanium)
    (id : Nat) (bodyBlock : BlockId) (body handler : List Form) :
    Agrees environment around
      (emitWithLandingPad emit id bodyBlock body handler)
      (Lexical.emitWithLandingPad lexical around id bodyBlock body
        handler) := by
  unfold emitWithLandingPad Lexical.emitWithLandingPad
  refine .step (fun _ => by mvcgen) fun padBlock => ?_
  refine .step (fun _ => by mvcgen) fun handlerBlock => ?_
  refine .step (fun _ => by mvcgen) fun endBlock => ?_
  refine .step (fun _ => by mvcgen) fun _ => ?_
  refine .step (fun _ => by mvcgen) fun _ => ?_
  refine .step (fun _ => by mvcgen) fun pointer => ?_
  refine .step (fun _ => by mvcgen) fun catchAll => ?_
  refine .step (fun _ => by mvcgen) fun pad => ?_
  refine .step (fun _ => by mvcgen) fun _ => ?_
  refine .bind
    (agrees_protectedBy padBlock active
      (agrees_emitArm kept (agrees _) bodyBlock body endBlock))
    (fun _ => framed_protectedBy _ _ fun _ => framed_emitArm kept _ _ _)
    fun _ => ?_
  exact .bind (agrees_emitArm kept (agrees around) _ _ _)
    (fun _ => framed_emitArm kept _ _ _) fun _ => .refl _

theorem agrees_emitWithFunclet
    (active : environment.configuration.personality = some .seh)
    (id : Nat) (bodyBlock : BlockId) (body handler : List Form) :
    Agrees environment around
      (emitWithFunclet emit id bodyBlock body handler)
      (Lexical.emitWithFunclet lexical around id bodyBlock body
        handler) := by
  unfold emitWithFunclet Lexical.emitWithFunclet
  refine .step (fun _ => by mvcgen) fun dispatchBlock => ?_
  refine .step (fun _ => by mvcgen) fun padBlock => ?_
  refine .step (fun _ => by mvcgen) fun handlerBlock => ?_
  refine .step (fun _ => by mvcgen) fun endBlock => ?_
  refine .step (fun _ => by mvcgen) fun _ => ?_
  refine .step (fun _ => by mvcgen) fun _ => ?_
  refine .step (fun _ => by mvcgen) fun outside => ?_
  refine .step (fun _ => by mvcgen) fun dispatch => ?_
  refine .step (fun _ => by mvcgen) fun _ => ?_
  refine .step (fun _ => by mvcgen) fun pointer => ?_
  refine .step (fun _ => by mvcgen) fun word => ?_
  refine .step (fun _ => by mvcgen) fun null => ?_
  refine .step (fun _ => by mvcgen) fun flags => ?_
  refine .step (fun _ => by mvcgen) fun pad => ?_
  refine .step (fun _ => by mvcgen) fun _ => ?_
  refine .bind
    (agrees_protectedBy dispatchBlock active
      (agrees_emitArm kept (agrees _) bodyBlock body endBlock))
    (fun _ => framed_protectedBy _ _ fun _ => framed_emitArm kept _ _ _)
    fun _ => ?_
  exact .bind (agrees_emitArm kept (agrees around) _ _ _)
    (fun _ => framed_emitArm kept _ _ _) fun _ => .refl _

theorem concur_emitTry (items : List Form) :
    Concur environment around (emitTry emit items)
      (Lexical.emitTry lexical around items) := by
  unfold emitTry Lexical.emitTry
  refine .step (fun _ => by mvcgen) fun arguments => ?_
  refine .step (fun _ => by mvcgen) fun body => ?_
  refine .step (fun _ => by mvcgen) fun id => ?_
  refine .step (fun _ => by mvcgen) fun bodyBlock => ?_
  refine .personality ?_
  cases active : environment.configuration.personality with
  | none =>
      exact .lift (agrees_emitUnprotected kept (agrees around) _ _ _ _)
  | some personality =>
      cases personality with
      | itanium =>
          exact .lift (agrees_emitWithLandingPad kept agrees active _ _ _ _)
      | seh => exact .lift (agrees_emitWithFunclet kept agrees active _ _ _ _)

theorem concur_dispatch (opcode : Opcode) (items : List Form) :
    Concur environment around (dispatch emit opcode items)
      (Lexical.dispatch lexical around opcode items) := by
  cases opcode with
  | conditional => exact concur_emitConditional kept (agrees around) items
  | whileLoop => exact concur_emitWhile kept agrees items
  | forLoop => exact concur_emitFor kept agrees items
  | switch => exact concur_emitSwitch kept (agrees around) items
  | sumMatch => exact concur_emitMatch kept (agrees around) items
  | breakLoop => exact concur_emitBreak items
  | continueLoop => exact concur_emitContinue items
  | block => exact concur_emitBlock kept (agrees around) items
  | panic => exact concur_emitPanic
  | tryCatch => exact concur_emitTry kept agrees items
  | call => exact concur_emitCall items
  | _ => exact .refl _

theorem agrees_emitList (form : Form) (items : List Form) :
    Agrees environment around (emitList emit form items)
      (Lexical.emitList lexical around form items) := by
  refine .bracket around around
    (fun state => { state with span := form.span?.or state.span })
    (fun state later => { later with span := state.span })
    (fun _ encloses => ⟨encloses.loop, encloses.handler⟩) ?_
  cases form.head?.bind Opcode.ofHead? with
  | some opcode =>
      exact .bind (concur_dispatch kept agrees opcode items)
        (fun _ => framed_run (framed_dispatch kept opcode items))
        fun _ => .refl _
  | none => exact .refl _

omit kept agrees

theorem agrees_emitWithin (depth : Nat) : ∀ around form,
    Agrees environment around (emitWithin depth form)
      (Lexical.emitWithin depth around form) := by
  induction depth with
  | zero => exact fun _ _ => .refl _
  | succ depth ih =>
      intro around form
      unfold emitWithin Lexical.emitWithin
      cases form.list? with
      | some items =>
          exact agrees_emitList (framed_emitWithin depth) ih form items
      | none => exact .refl _

theorem agrees_emitForm (form : Form) :
    Agrees environment around (emitForm form)
      (Lexical.emitForm around form) :=
  agrees_emitWithin form.height around form

end Targets

/-! ## Functions -/

@[spec]
theorem framed_markPersonality {frame : EmitFrame} (function : FunctionId) :
    ⦃framed frame⦄ markPersonality function ⦃⇓ _ => framed frame⦄ := by
  mvcgen [markPersonality]

theorem framed_bindParameters {frame : EmitFrame} (function : FunctionId)
    (name : String) (index : Nat) (parameters : List (String × TypeId)) :
    ⦃framed frame⦄ bindParameters function name index parameters
      ⦃framedAnyhow frame⦄ := by
  induction parameters generalizing index with
  | nil => mvcgen [bindParameters]
  | cons parameter parameters ih => mvcgen [bindParameters, ih]

theorem concur_emitBody {environment : Environment} (function : FunctionId)
    (header : FunctionHeader) (body : List Form) :
    Concur environment {} (emitBody function header body)
      (Lexical.emitBody function header body) := by
  unfold emitBody Lexical.emitBody
  refine .step (fun _ => by mvcgen) fun _ => ?_
  refine .step (fun _ => by mvcgen) fun entry => ?_
  refine .step (fun _ => by mvcgen) fun _ => ?_
  refine .step (fun _ => framed_bindParameters _ _ _ _) fun _ => ?_
  exact .bind (.lift (agrees_emitSequence framed_emitForm agrees_emitForm body))
    (fun frame => by
      mvcgen
      exact framed_emitForm)
    fun _ => .refl _

theorem emitFunction_eq (configuration : Configuration)
    (header : FunctionHeader) (body : List Form) :
    emitFunction configuration header body =
      Lexical.emitFunction configuration header body := by
  unfold emitFunction Lexical.emitFunction
  refine bind_congr fun state => ?_
  cases state.module.function? header.name with
  | none => rfl
  | some function =>
      -- Nothing encloses a body, and nothing is on a stack ahead of it.
      have same := @concur_emitBody
        { configuration
          layouts := state.layouts
          functionName := (state.module.function function).name }
        function header body
        { builder := { module := state.module, function }
          context := FunctionContext.ofMutableNames
            (mutableNames (header.parameters.map Prod.fst) body)
          literals := state.literals
          closureCount := state.closureCount
          matchEnds := state.matchEnds
          problems := state.problems }
        ⟨rfl, fun personality _ => by cases personality <;> rfl⟩
      dsimp only
      rewrite [same]
      rfl

/-- Every form leaves the stacks, the scope, the place and the function as they
are, and a cleanup block stays once it is there.  So functions are emitted with
the targets that enclose their forms in the source; what no handler encloses
unwinds to a block that was not there before, or to the one cleanup block. -/
theorem emitted_targets_lexical (environment : Environment)
    (state : EmitState) :
    (∀ form,
      let later := (emitForm form environment state).2
      later.context.loops = state.context.loops ∧
        later.unwindTargets.landingPads = state.unwindTargets.landingPads ∧
        later.unwindTargets.dispatches = state.unwindTargets.dispatches ∧
        later.context.depth = state.context.depth ∧
        later.span = state.span ∧
        later.builder.function = state.builder.function ∧
        state.unwindTargets.cleanup.or later.unwindTargets.cleanup =
          later.unwindTargets.cleanup) ∧
    (∀ configuration header body,
      emitFunction configuration header body =
        Lexical.emitFunction configuration header body) ∧
    state.builder.module.block? (resumingPad environment state).1 = none ∧
    let (block, later) := cleanupFunclet environment state
    later.unwindTargets.cleanup = some block ∧
      state.unwindTargets.cleanup.getD block = block := by
  refine ⟨?_, emitFunction_eq, block?_resumingPad environment state,
    ?_⟩
  · intro form
    obtain ⟨same, cleanup⟩ := frame_emitForm form environment state
    refine ⟨congrArg EmitFrame.loops same, congrArg EmitFrame.landingPads same,
      congrArg EmitFrame.dispatches same, congrArg EmitFrame.depth same,
      congrArg EmitFrame.span same, congrArg EmitFrame.function same, ?_⟩
    cases found : state.unwindTargets.cleanup with
    | none => rfl
    | some block => exact (cleanup block found).symm
  · unfold cleanupFunclet
    rw [emission_get_bind]
    cases found : state.unwindTargets.cleanup with
    | none => exact ⟨rfl, rfl⟩
    | some block => exact ⟨found, rfl⟩

end FormCompiler
