import FormCompiler.Emit.Closure
import FormCompiler.Proofs.Phis

/-!
# Detours

Some instructions leave their block for a while: they add a block, in this
function or another one, fill it up to an end that leads nowhere, and come
back.  To everything around it such a detour is quiet.
-/

namespace FormCompiler

open Ir

namespace Ir.Builder

variable {builder started middle final : Builder} {added : BlockId}

/-- Where a builder stands. -/
def point (builder : Builder) : InsertPoint :=
  ⟨builder.function, builder.block, builder.beforeTerminator⟩

/-- A builder put somewhere else. -/
def moved (builder : Builder) (point : InsertPoint) : Builder :=
  { builder with
    function := point.function
    block := point.block
    beforeTerminator := point.beforeTerminator }

/-- A builder at the end of a block. -/
def atEnd (builder : Builder) (block : BlockId) : Builder :=
  { builder with block := some block, beforeTerminator := false }

/-- The start of a detour, in a block that was just added. -/
theorem Appended.ready (appended : builder.Appended started added)
    (inhabited : 0 < builder.module.types.kinds.length)
    (attached : builder.detached = 0) :
    (started.atEnd added).Ready ∧
      (started.atEnd added).isTerminated = false := by
  obtain ⟨name, found⟩ := appended.found
  have isOpen : (started.atEnd added).isTerminated = false := by
    simp only [isTerminated, atEnd, isTerminatedBlock, found]
    rfl
  have inside : added = ⟨started.function, added.index⟩ := by
    rw [appended.function, ← appended.inside]
  refine ⟨⟨⟨appended.sound, ?_, ⟨added.index, ?_, ?_⟩, ?_⟩, isOpen.symm⟩,
    isOpen⟩
  · exact Nat.lt_of_lt_of_le inhabited appended.module.types.length_le
  · exact congrArg some inside
  · show (started.module.block? ⟨started.function, added.index⟩).isSome = true
    rw [← inside, found]
    rfl
  · exact appended.detached.trans attached

/-- The function that a block is added to keeps its name. -/
theorem Appended.name_eq (appended : builder.Appended started added)
    (declared : builder.function < builder.module.functions.length)
    (quiet : (started.atEnd added).Quiet middle) :
    builder.currentFunction.name = middle.currentFunction.name := by
  have develops := appended.module.trans quiet.module.develops
  have sameFunction : middle.function = builder.function :=
    quiet.function.trans appended.function
  unfold currentFunction
  rw [sameFunction]
  exact (develops.functions builder.function declared).1.symm

/-- What a detour leaves behind is quiet. -/
theorem Quiet.of_detour {point : InsertPoint}
    (place : point.function = builder.function ∨
      IsThunkName (builder.module.function point.function).name)
    (appended : (builder.moved point).Appended started added)
    (quiet : (started.atEnd added).Quiet middle) (placed : middle.Placed)
    (ended : middle.Ended [] final) :
    builder.Quiet (final.moved builder.point) := by
  have cursor : middle.block = some added := quiet.block
  -- a block that was there is not the new one, so its contents are kept
  have elsewhere {id : BlockId} {block : Block}
      (found : builder.module.block? id = some block) : id ≠ added := by
    rintro rfl
    cases found.symm.trans appended.missing
  have start {id : BlockId} {block : Block}
      (found : builder.module.block? id = some block) :
      started.module.block? id = some block :=
    (appended.others id (elsewhere found)).trans found
  have finish {id : BlockId} (other : id ≠ added) :
      final.module.block? id = middle.module.block? id := by
    apply ended.others
    rw [cursor]
    rintro ⟨⟩
    exact other rfl
  have develops := (appended.module.trans quiet.module.develops).trans
    ended.module
  refine ⟨⟨develops.toExtends, develops.registers, ?_, ?_⟩, ?_, ?_, rfl, rfl,
    rfl, ?_⟩
  · intro id block found
    obtain ⟨laterBlock, laterFound, keeps⟩ :=
      quiet.module.blocks id block (start found)
    exact ⟨laterBlock, (finish (elsewhere found)).trans laterFound, keeps⟩
  · intro id laterBlock missing laterFound
    by_cases same : id = added
    · subst same
      obtain ⟨ending, ends, nowhere⟩ := ended.ended id cursor
      obtain ⟨block, found, ends⟩ := Option.bind_eq_some_iff.mp ends
      cases found.symm.trans laterFound
      exact ⟨ending, ends, nowhere⟩
    · apply quiet.module.fresh id laterBlock
      · exact (appended.others id same).trans missing
      · exact (finish same).symm.trans laterFound
  · intro id block _ notFirst found
    refine (finish (elsewhere found)).trans ?_
    apply quiet.others id block _ notFirst (start found)
    rintro ⟨⟩
    exact elsewhere found rfl
  · intro id inside other ordinary
    have apart : id ≠ point.function := by
      rintro rfl
      exact place.elim other ordinary
    have begun : (started.atEnd added).function = point.function :=
      appended.function
    have filled : middle.function = point.function :=
      quiet.function.trans begun
    have adds : builder.module.WorksIn point.function started.module :=
      appended.worksIn
    have fills : started.module.WorksIn point.function middle.module :=
      begun ▸ quiet.worksIn
    have ends : middle.module.WorksIn point.function final.module :=
      filled ▸ ended.worksIn placed
    exact (adds.trans appended.module.toExtends
      (fills.trans quiet.module.toExtends ends)) id inside apart ordinary
  · exact ended.detached.trans (quiet.detached.trans appended.detached)

/-- Coming back to where a ready builder stood. -/
theorem restore_apply (ready : builder.Ready)
    (quiet : builder.Quiet (final.moved builder.point)) :
    restore builder.point final = ((), final.moved builder.point) := by
  obtain ⟨index, cursor, known⟩ := ready.cursor
  have mode : (final.moved builder.point).isTerminated =
      builder.isTerminated := ready.isTerminated_eq quiet
  have terminated : final.isTerminatedBlock ⟨builder.function, index⟩ =
      builder.beforeTerminator := by
    rw [ready.mode, ← mode, isTerminated]
    have sameBlock : (final.moved builder.point).block = builder.block := rfl
    rw [sameBlock, cursor]
    rfl
  unfold restore moved point
  rw [cursor]
  dsimp only
  split
  · next before =>
      rw [before] at terminated ⊢
      show ((), { final with
        function := builder.function
        block := some ⟨builder.function, index⟩
        beforeTerminator := final.isTerminatedBlock
          ⟨builder.function, index⟩ }) = _
      rw [terminated]
  · next after =>
      rw [Bool.eq_false_iff.mpr after]
      rfl

end Ir.Builder

variable {scene : Scene} {known : TypeTable → Prop} {state : EmitState}
  {Result : Type} {gives : TypeTable → Result → Prop}

/-- An emission that ends the current block without leading anywhere, inside
of functions with certain names. -/
def Finishes (scene : Scene) (inside : String → Prop)
    (emission : Emission Unit) : Prop :=
  ∀ state, state.Ready scene → state.builder.isTerminated = false →
    inside state.builder.currentFunction.name →
    ∃ builder, emission scene.environment state = ((), { state with builder }) ∧
      state.builder.Ended [] builder

theorem finishes_insertEffect {inside : String → Prop} {operation : Operation}
    (ending : operation.isTerminator = true)
    (nowhere : operation.targets = [])
    (returns : ∀ value, operation = .ret value →
      ∀ name, inside name → IsThunkName name) :
    Finishes scene inside
      (liftM (Builder.insertEffect operation) : Emission Unit) := by
  intro state ready isOpen named
  refine ⟨_, rfl, ?_⟩
  have ended := Builder.ended_insertEffect ready.builder isOpen ending
    (by simp [nowhere])
    fun value same => .inl (returns value same _ named)
  rw [nowhere] at ended
  exact ended

theorem elsewhere_apply (emission : Emission Result)
    (environment : Environment) (state : EmitState) :
    elsewhere emission environment state =
      ((emission environment state).1,
        { (emission environment state).2 with
          builder := (Builder.restore state.builder.point
            (emission environment state).2.builder).2 }) := rfl

/-- A detour that fills a new block and ends it. -/
theorem EmitState.Ready.detour (ready : state.Ready scene)
    (point : InsertPoint) {started : Builder} {added : BlockId}
    (place : point.function = state.builder.function ∨
      IsThunkName (state.builder.module.function point.function).name)
    (appended : (state.builder.moved point).Appended started added)
    {filling : Emission Result} (fills : Emits scene known filling gives)
    (holds : known started.module.types) {inside : String → Prop}
    (declared : point.function < state.builder.module.functions.length)
    (named : inside (state.builder.module.function point.function).name)
    {ending : Result → Emission Unit}
    (finishes : ∀ result, Finishes scene inside (ending result)) :
    let final := ((filling >>= ending) scene.environment
      { state with builder := started.atEnd added }).2
    let back := { final with
      builder := (Builder.restore state.builder.point final.builder).2 }
    back.Ready scene ∧ state.Quiet back ∧
      (back.builder.module.block? added).isSome = true := by
  obtain ⟨enteredReady, isOpen⟩ := appended.ready ready.builder.inhabited
    ready.builder.attached
  have enteredSound : ({ state with builder := started.atEnd added } :
      EmitState).Sound scene :=
    ready.toSound.withBuilder ready.builder.sound.types appended.module
      fun _ _ _ => appended.leads
  obtain ⟨middleReady, quiet, -⟩ := fills _ ⟨enteredSound, enteredReady⟩ holds
  have middleOpen := (enteredReady.isTerminated_eq quiet.builder).trans isOpen
  have middleNamed := appended.name_eq declared quiet.builder
  have run : (filling >>= ending) scene.environment
      { state with builder := started.atEnd added } =
      let filled := filling scene.environment
        { state with builder := started.atEnd added }
      ending filled.1 scene.environment filled.2 := rfl
  rw [run]
  generalize filling scene.environment
    { state with builder := started.atEnd added } = filled at *
  obtain ⟨builder, ends, ended⟩ :=
    finishes filled.1 filled.2 middleReady middleOpen (middleNamed ▸ named)
  have back := Builder.Quiet.of_detour place appended quiet.builder
    middleReady.builder.toPlaced ended
  dsimp only
  rw [ends]
  dsimp only
  rw [Builder.restore_apply ready.builder back]
  have develops : filled.2.builder.module.Develops
      (builder.moved state.builder.point).module := ended.module
  have sound : ({ filled.2 with
      builder := builder.moved state.builder.point } :
      EmitState).Sound scene := by
    apply middleReady.toSound.withBuilder middleReady.builder.sound.types
      develops
    intro join _ source leads
    rcases ended.leads leads with earlier | ⟨-, nowhere⟩
    · exact earlier
    · cases nowhere
  refine ⟨⟨sound, ready.builder.of_quiet back ended.sound⟩,
    ⟨back, ?_, quiet.matchEnds, quiet.pendingPhis⟩, ?_⟩
  · intro block escapes
    rcases quiet.escapes block escapes with earlier | missing
    · exact .inl earlier
    · exact .inr (appended.module.missing missing)
  · obtain ⟨name, found⟩ := appended.found
    exact (quiet.builder.module.develops.trans develops).known
      (show (started.module.block? added).isSome = true by rw [found]; rfl)

/-! ## Blocks that pass exceptions on -/

/-- A block is new in the current function. -/
structure EmitState.Adds (state later : EmitState) (added : BlockId) :
    Prop where
  inside : added.function = state.builder.function
  missing : state.builder.module.block? added = none
  known : (later.builder.module.block? added).isSome = true

theorem EmitState.Ready.declared (ready : state.Ready scene) :
    state.builder.function < state.builder.module.functions.length := by
  obtain ⟨index, -, known⟩ := ready.builder.cursor
  obtain ⟨_, found⟩ := Option.isSome_iff_exists.mp known
  exact Module.lt_of_block? found

theorem EmitState.Ready.appended (ready : state.Ready scene) {name : String}
    (named : nameBeforeNul name ≠ "") :
    state.builder.Appended (Builder.appendBlock name state.builder).2
      (Builder.appendBlock name state.builder).1 :=
  Builder.appended_appendBlock ready.builder.sound ready.declared named

theorem emits_freshId :
    Emits scene (fun _ => True) freshId fun _ _ => True := by
  refine .look (fun _ => rfl) fun _ _ _ => ?_
  refine .step (emits_modifyContext ?_ fun _ => rfl) (fun _ holds => holds)
    fun _ => .pure (by tauto)
  intro context table _ known
  exact ⟨known.values, known.types, known.slots⟩

theorem emits_landingPad (cleanup : Bool) (clauses : List Value)
    (name : String) :
    Emits scene known
      (liftM (Builder.landingPad cleanup clauses name) : Emission Value)
      fun _ _ => True :=
  emits_onBuilder fun _ ready _ =>
    (Builder.builds_landingPad ready cleanup clauses name).forget

/-- A block that is added, filled and ended on the side. -/
theorem preserves_pad (ready : state.Ready scene) {name : String}
    (named : nameBeforeNul name ≠ "") {filling : Emission Result}
    (fills : Emits scene (fun _ => True) filling gives)
    (ending : Result → Emission Unit)
    (finishes : ∀ result, Finishes scene (fun _ => True) (ending result)) :
    Preserves (EmitState.Ready scene) EmitState.Quiet state
      ((do
        let block ← Builder.appendBlock name
        elsewhere do
          Builder.positionAtEnd block
          let result ← filling
          ending result
        pure block : Emission BlockId) scene.environment) state.Adds := by
  have appended := ready.appended named
  obtain ⟨laterReady, quiet, known⟩ :=
    ready.detour state.builder.point (.inl rfl) appended fills trivial
      ready.declared trivial finishes
  exact ⟨laterReady, quiet, ⟨appended.inside, appended.missing, known⟩⟩

theorem EmitState.Adds.of_quiet {later last : EmitState} {added : BlockId}
    (adds : later.Adds last added) (quiet : state.Quiet later) :
    state.Adds last added :=
  ⟨adds.inside.trans quiet.builder.function,
    quiet.builder.module.develops.missing adds.missing, adds.known⟩

theorem preserves_resumingPad (ready : state.Ready scene) :
    Preserves (EmitState.Ready scene) EmitState.Quiet state
      (resumingPad scene.environment) state.Adds := by
  unfold resumingPad
  refine (emits_freshId state ready trivial).before
    fun later id laterReady quiet _ => ?_
  have named : nameBeforeNul s!"panic.lpad.{id}" ≠ "" :=
    nameBeforeNul_append (toString id) (by decide)
  have pad := preserves_pad laterReady named
    (emits_landingPad true [] "lpad") (fun pad => Builder.resume pad)
    fun pad => finishes_insertEffect rfl rfl (by rintro _ ⟨⟩)
  exact pad.weaken fun _ _ adds => adds.of_quiet quiet

theorem emits_cleanupPad (parent : Value) (name : String) :
    Emits scene known
      (liftM (Builder.cleanupPad parent [] name) : Emission Value)
      fun _ _ => True :=
  emits_onBuilder fun _ ready _ =>
    (Builder.builds_insertPad ready rfl name).forget

/-- Providing for a new block to escape to. -/
theorem EmitState.Ready.setCleanup {later : EmitState} {added : BlockId}
    (ready : state.Ready scene) (laterReady : later.Ready scene)
    (quiet : state.Quiet later) (adds : state.Adds later added)
    (inside : state.builder.function = scene.home) :
    let targets := { later.unwindTargets with cleanup := some added }
    ({ later with unwindTargets := targets } : EmitState).Ready scene ∧
      state.Quiet { later with unwindTargets := targets } := by
  have escapes : ∀ block, ({ later with
      unwindTargets := { later.unwindTargets with cleanup := some added } } :
      EmitState).Escapes block → later.Escapes block ∨ block = added := by
    rintro block (loops | pads | dispatches | same)
    · exact .inl (.inl loops)
    · exact .inl (.inr (.inl pads))
    · exact .inl (.inr (.inr (.inl dispatches)))
    · exact .inr (Option.some.inj same).symm
  refine ⟨⟨⟨laterReady.context, laterReady.layouts, laterReady.pending,
    laterReady.apart, laterReady.coroutine, ?_, ?_⟩, laterReady.builder⟩,
    ⟨quiet.builder, ?_, quiet.matchEnds, quiet.pendingPhis⟩⟩
  · intro block escaping
    rcases escapes block escaping with old | rfl
    · exact laterReady.escapes block old
    · exact ⟨adds.inside.trans inside, adds.known⟩
  · intro join member
    have settled := laterReady.matchEnds join member
    refine ⟨settled.known, settled.notFirst, settled.has, ?_,
      settled.settled⟩
    intro escaping
    rcases escapes join.1 escaping with old | same
    · exact settled.aside old
    · -- the end of an earlier match was there already
      rw [quiet.matchEnds] at member
      have known := (ready.matchEnds join member).known
      rw [same, adds.missing] at known
      cases known
  · intro block escaping
    rcases escapes block escaping with old | rfl
    · exact quiet.escapes block old
    · exact .inr adds.missing

theorem preserves_returningPad (ready : state.Ready scene) :
    Preserves (EmitState.Ready scene) EmitState.Quiet state
      (returningPad scene.environment) state.Adds := by
  have fills : Emits scene (fun _ => True)
      (do
        let outside ← Builder.constantNone
        Builder.cleanupPad outside [] "cp" : Emission Value)
      fun _ _ => True :=
    .step emits_constantNone (fun _ holds => holds) fun outside =>
      emits_cleanupPad outside "cp"
  have pad := preserves_pad ready
    (show nameBeforeNul "seh.cleanup" ≠ "" by decide) fills
    (fun pad => Builder.cleanupReturn pad none)
    fun pad => finishes_insertEffect rfl rfl (by rintro _ ⟨⟩)
  simp only [bind_assoc] at pad
  exact pad

theorem emission_get_bind (next : EmitState → Emission Result)
    (environment : Environment) (state : EmitState) :
    (get >>= next) environment state = next state environment state := rfl

theorem preserves_cleanupFunclet (ready : state.Ready scene)
    (inside : state.builder.function = scene.home) :
    Preserves (EmitState.Ready scene) EmitState.Quiet state
      (cleanupFunclet scene.environment)
      fun later block => later.Escapes block := by
  obtain ⟨laterReady, quiet, adds⟩ := preserves_returningPad ready
  obtain ⟨finalReady, finalQuiet⟩ :=
    ready.setCleanup laterReady quiet adds inside
  unfold cleanupFunclet
  refine .look rfl ?_
  cases found : state.unwindTargets.cleanup with
  | some block => exact Preserves.pure ready (.inr (.inr (.inr found)))
  | none =>
      generalize made : returningPad scene.environment state = result at *
      refine ⟨?_, ?_, ?_⟩ <;> dsimp only <;>
        rw [reader_bind_apply, made]
      · exact finalReady
      · exact finalQuiet
      · exact .inr (.inr (.inr rfl))

/-- An exception continues in a block that control escapes to or a new one
that passes it on. -/
theorem preserves_unwindTarget (ready : state.Ready scene)
    (inside : state.builder.function = scene.home)
    (personality : Personality) :
    Preserves (EmitState.Ready scene) EmitState.Quiet state
      (unwindTarget personality scene.environment)
      fun later block => later.Escapes block ∨ state.Adds later block := by
  unfold unwindTarget
  refine .look rfl ?_
  cases personality with
  | itanium =>
      dsimp only
      cases found : state.unwindTargets.landingPads with
      | cons handler handlers =>
          dsimp only
          refine Preserves.pure ready ?_
          refine .inl (.inr (.inl ?_))
          rw [found]
          exact List.mem_cons_self
      | nil =>
          dsimp only
          exact (preserves_resumingPad ready).weaken
            fun _ _ adds => .inr adds
  | seh =>
      dsimp only
      cases found : state.unwindTargets.dispatches with
      | cons handler handlers =>
          dsimp only
          refine Preserves.pure ready ?_
          refine .inl (.inr (.inr (.inl ?_)))
          rw [found]
          exact List.mem_cons_self
      | nil =>
          dsimp only
          exact (preserves_cleanupFunclet ready inside).weaken
            fun _ _ escapes => .inl escapes

end FormCompiler
