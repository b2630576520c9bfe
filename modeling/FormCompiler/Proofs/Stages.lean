import FormCompiler.Proofs.ClosureHandlers

/-!
# Stages of control flow

While a construct is emitted, its blocks are added ahead of time, and each of
them is owed an end.  A stage says which blocks are open besides the current
one: they are empty, and whoever added them still has to come by.  It also
compares the state with the one that the construct started from.  Of the blocks
that were there, only those that control may escape to are led to from new
places, so whatever surrounds the construct knows what leads to its own blocks.
-/

namespace FormCompiler

open Ir

/-- A block is there and has no end. -/
def Ir.Module.IsOpen (module : Module) (id : BlockId) : Prop :=
  (module.block? id).isSome = true ∧ module.terminator? id = none

namespace EmitState

variable {scene : Scene} {origin state later last : EmitState}
  {owed : List BlockId}

/-- What is kept for good by whatever is emitted. -/
structure Continues (state later : EmitState) : Prop where
  module : state.builder.module.Develops later.builder.module
  matchEnds : ∀ join ∈ later.matchEnds, join ∈ state.matchEnds ∨
    state.builder.module.block? join.1 = none

/-- What is kept by whatever is emitted as a whole. -/
structure Precedes (state later : EmitState) : Prop extends
    Continues state later where
  escapes : ∀ block, later.Escapes block → state.Escapes block ∨
    state.builder.module.block? block = none
  leads : ∀ source target,
    (state.builder.module.block? target).isSome = true →
    ¬state.Escapes target → later.builder.module.Leads source target →
      state.builder.module.Leads source target

theorem Precedes.refl (state : EmitState) : state.Precedes state :=
  ⟨⟨Module.Develops.refl _, fun _ member => .inl member⟩,
    fun _ escapes => .inl escapes, fun _ _ _ _ leads => leads⟩

theorem Precedes.trans (first : state.Precedes later)
    (second : later.Precedes last) : state.Precedes last := by
  refine ⟨⟨first.module.trans second.module, ?_⟩, ?_, ?_⟩
  · intro join member
    rcases second.matchEnds join member with old | missing
    · exact first.matchEnds join old
    · exact .inr (first.module.missing missing)
  · intro block escapes
    rcases second.escapes block escapes with old | missing
    · exact first.escapes block old
    · exact .inr (first.module.missing missing)
  · intro source target known aside leads
    apply first.leads source target known aside
    refine second.leads source target (first.module.known known) ?_ leads
    intro escapes
    rcases first.escapes target escapes with old | missing
    · exact aside old
    · rw [missing] at known
      cases known

theorem Quiet.precedes (quiet : state.Quiet later) : state.Precedes later := by
  refine ⟨⟨quiet.builder.module.develops, ?_⟩, quiet.escapes,
    fun _ _ _ _ => quiet.builder.module.leads⟩
  intro join member
  rw [quiet.matchEnds] at member
  exact .inl member

/-- The blocks that are owed an end are the open ones besides the current
one, and nothing was put into them. -/
structure Owes (state : EmitState) (owed : List BlockId) : Prop where
  nodup : owed.Nodup
  mem_iff : ∀ id, id ∈ owed ↔ state.builder.module.IsOpen id ∧
    state.builder.block ≠ some id
  empty : ∀ id ∈ owed, id.function = state.builder.function ∧
    id.index ≠ 0 ∧ ∃ name, state.builder.module.block? id = some ⟨name, []⟩

theorem Owes.perm {other : List BlockId} (owes : state.Owes owed)
    (perm : owed.Perm other) : state.Owes other :=
  ⟨perm.nodup owes.nodup, fun id => by rw [← perm.mem_iff, owes.mem_iff],
    fun id member => owes.empty id (perm.mem_iff.mpr member)⟩

/-- Quiet steps neither end open blocks nor leave new ones open. -/
theorem Owes.of_quiet (owes : state.Owes owed) (quiet : state.Quiet later) :
    later.Owes owed := by
  refine ⟨owes.nodup, ?_, ?_⟩
  · intro id
    rw [owes.mem_iff, quiet.builder.block]
    refine and_congr_left fun _ => ⟨?_, ?_⟩
    · rintro ⟨known, isOpen⟩
      refine ⟨quiet.builder.module.isSome_block? known, ?_⟩
      rw [quiet.builder.module.terminator? known, isOpen]
    · rintro ⟨known, isOpen⟩
      cases found : state.builder.module.block? id with
      | some block =>
          have earlier : (state.builder.module.block? id).isSome = true := by
            rw [found]
            rfl
          rw [quiet.builder.module.terminator? earlier] at isOpen
          exact ⟨by rw [found]; rfl, isOpen⟩
      | none =>
          obtain ⟨block, laterFound⟩ := Option.isSome_iff_exists.mp known
          obtain ⟨ending, ends, -⟩ :=
            quiet.builder.module.fresh id block found laterFound
          rw [Module.terminator?, laterFound] at isOpen
          cases ends.symm.trans isOpen
  · intro id member
    obtain ⟨inside, notFirst, name, found⟩ := owes.empty id member
    refine ⟨inside.trans quiet.builder.function.symm, notFirst, name, ?_⟩
    exact quiet.builder.others id _ ((owes.mem_iff id).mp member).2 notFirst
      found

/-- How far the emission of a construct has come since its origin. -/
structure Stage (scene : Scene) (origin : EmitState) (owed : List BlockId)
    (state : EmitState) : Prop where
  sound : state.Sound scene
  placed : state.builder.Placed
  inside : state.builder.function = scene.home
  atEnd : state.builder.beforeTerminator = false
  precedes : origin.Precedes state
  works : origin.builder.module.WorksIn scene.home state.builder.module
  owes : state.Owes owed

/-- Control may be led to a block: it is new since the origin, or control may
escape to it. -/
structure IsTarget (scene : Scene) (origin : EmitState) (block : BlockId)
    (state : EmitState) : Prop where
  inside : block.function = scene.home
  known : (state.builder.module.block? block).isSome = true
  aside : ∀ join ∈ state.matchEnds, join.1 ≠ block
  own : origin.builder.module.block? block = none ∨ origin.Escapes block

theorem IsTarget.mono {block : BlockId}
    (target : IsTarget scene origin block state)
    (continues : state.Continues later) :
    IsTarget scene origin block later := by
  refine ⟨target.inside, continues.module.known target.known, ?_, target.own⟩
  rintro join member rfl
  rcases continues.matchEnds join member with old | missing
  · exact target.aside join old rfl
  · have known := target.known
    rw [missing] at known
    cases known

/-- A block that control may escape to is a target. -/
theorem Stage.escape (stage : Stage scene origin owed state)
    {block : BlockId} (escapes : state.Escapes block) :
    IsTarget scene origin block state := by
  obtain ⟨inside, known⟩ := stage.sound.escapes block escapes
  refine ⟨inside, known, ?_, ?_⟩
  · rintro join member rfl
    exact (stage.sound.matchEnds join member).aside escapes
  · exact (stage.precedes.escapes block escapes).symm

/-- A block that was not there is a target, once it is there. -/
theorem Stage.fresh (stage : Stage scene origin owed state)
    {block : BlockId} (inside : block.function = scene.home)
    (missing : state.builder.module.block? block = none)
    (known : (later.builder.module.block? block).isSome = true)
    (matchEnds : later.matchEnds = state.matchEnds) :
    IsTarget scene origin block later := by
  refine ⟨inside, known, ?_, .inl (stage.precedes.module.missing missing)⟩
  rintro join member rfl
  rw [matchEnds] at member
  have earlier := (stage.sound.matchEnds join member).known
  rw [missing] at earlier
  cases earlier

theorem Stage.ready (stage : Stage scene origin owed state)
    (isOpen : state.builder.isTerminated = false) : state.Ready scene :=
  ⟨stage.sound, ⟨stage.placed, by rw [stage.atEnd, isOpen]⟩⟩

theorem Stage.closed (stage : Stage scene origin owed state) :
    state.table.Closed := stage.placed.sound.types

theorem Stage.perm {other : List BlockId}
    (stage : Stage scene origin owed state) (perm : owed.Perm other) :
    Stage scene origin other state :=
  ⟨stage.sound, stage.placed, stage.inside, stage.atEnd, stage.precedes,
    stage.works, stage.owes.perm perm⟩

theorem Stage.goesOn (stage : Stage scene origin owed state)
    (works : state.builder.module.WorksIn scene.home later.builder.module) :
    origin.builder.module.WorksIn scene.home later.builder.module :=
  stage.works.trans stage.precedes.module.toExtends works

/-- A construct within a construct. -/
theorem Stage.nested {middle : EmitState}
    (outer : Stage scene origin owed middle)
    (inner : Stage scene middle owed later) :
    Stage scene origin owed later :=
  ⟨inner.sound, inner.placed, inner.inside, inner.atEnd,
    outer.precedes.trans inner.precedes, outer.goesOn inner.works,
    inner.owes⟩

theorem Stage.quiet (stage : Stage scene origin owed state)
    (ready : later.Ready scene) (quiet : state.Quiet later) :
    Stage scene origin owed later :=
  ⟨ready.toSound, ready.builder.toPlaced,
    quiet.builder.function.trans stage.inside,
    quiet.builder.beforeTerminator.trans stage.atEnd,
    stage.precedes.trans quiet.precedes,
    stage.goesOn (stage.inside ▸ quiet.builder.worksIn),
    stage.owes.of_quiet quiet⟩

/-! ## Adding a block -/

theorem precedes_appended {builder : Builder} {added : BlockId}
    (appended : state.builder.Appended builder added) :
    state.Precedes { state with builder } :=
  ⟨⟨appended.module, fun _ member => .inl member⟩,
    fun _ escapes => .inl escapes, fun _ _ _ _ => appended.leads⟩

theorem Stage.appended {front : List BlockId}
    (stage : Stage scene origin (front ++ owed) state) {builder : Builder}
    {added : BlockId} (appended : state.builder.Appended builder added) :
    Stage scene origin (front ++ added :: owed) { state with builder } := by
  have precedes := precedes_appended appended
  obtain ⟨index, cursor, known⟩ := stage.placed.cursor
  obtain ⟨name, found⟩ := appended.found
  have elsewhere := appended.elsewhere stage.placed
  have isOpen : builder.module.IsOpen added := by
    refine ⟨by rw [found]; rfl, ?_⟩
    rw [Module.terminator?, found]
    rfl
  refine ⟨stage.sound.withBuilder stage.closed appended.module
    fun _ _ _ => appended.leads, ⟨appended.sound, ?_, ⟨index, ?_, ?_⟩, ?_⟩,
    appended.function.trans stage.inside,
    appended.beforeTerminator.trans stage.atEnd,
    stage.precedes.trans precedes,
    stage.works.trans stage.precedes.module.toExtends
      (stage.inside ▸ appended.worksIn), ?_⟩
  · exact Nat.lt_of_lt_of_le stage.placed.inhabited
      appended.module.types.length_le
  · show builder.block = some ⟨builder.function, index⟩
    rw [appended.block, appended.function, cursor]
  · show (builder.module.block? ⟨builder.function, index⟩).isSome = true
    rw [appended.function]
    exact appended.module.known known
  · exact appended.detached.trans stage.placed.attached
  have new : added ∉ front ++ owed := by
    intro member
    have earlier := ((stage.owes.mem_iff added).mp member).1.1
    rw [appended.missing] at earlier
    cases earlier
  refine Owes.perm ⟨List.nodup_cons.mpr ⟨new, stage.owes.nodup⟩, ?_, ?_⟩
    List.perm_middle.symm
  · intro id
    show _ ↔ builder.module.IsOpen id ∧ builder.block ≠ some id
    rw [List.mem_cons, stage.owes.mem_iff, appended.block]
    by_cases same : id = added
    · subst same
      exact ⟨fun _ => ⟨isOpen, elsewhere⟩, fun _ => .inl rfl⟩
    · have block := appended.others id same
      simp only [same, false_or, Module.IsOpen, Module.terminator?, block]
  · rw [List.forall_mem_cons]
    refine ⟨⟨appended.inside.trans appended.function.symm, ?_, name, found⟩,
      ?_⟩
    · -- the function has its first block already
      intro first
      have missing := appended.missing
      rw [Module.block?_eq, first, appended.inside,
        List.getElem?_eq_none_iff] at missing
      rw [Module.block?_eq] at known
      obtain ⟨_, some_⟩ := Option.isSome_iff_exists.mp known
      exact Nat.not_lt_zero _ (Nat.lt_of_lt_of_le
        (List.getElem?_eq_some_iff.mp some_).1 missing)
    · intro id member
      obtain ⟨inside, notFirst, other, otherFound⟩ :=
        stage.owes.empty id member
      refine ⟨inside.trans appended.function.symm, notFirst, other, ?_⟩
      refine (appended.others id ?_).trans otherFound
      rintro rfl
      exact new member

/-! ## Ending a block and moving on -/

theorem continues_ended {builder : Builder} {targets : List BlockId}
    (ended : state.builder.Ended targets builder) :
    state.Continues { state with builder } :=
  ⟨ended.module, fun _ member => .inl member⟩

theorem Stage.ended (stage : Stage scene origin owed state)
    {builder : Builder} {targets : List BlockId}
    (ended : state.builder.Ended targets builder)
    (allowed : ∀ target ∈ targets, IsTarget scene origin target state) :
    Stage scene origin owed { state with builder } ∧
      builder.isTerminated = true := by
  obtain ⟨index, cursor, known⟩ := stage.placed.cursor
  obtain ⟨ending, ends, -⟩ := ended.ended _ cursor
  have isTerminated : builder.isTerminated = true := by
    rw [Builder.isTerminated, ended.block, cursor]
    simp only [Builder.isTerminatedBlock_eq, ends]
    rfl
  refine ⟨⟨?_, ⟨ended.sound, ?_, ⟨index, ?_, ?_⟩, ?_⟩,
    ended.function.trans stage.inside,
    ended.beforeTerminator.trans stage.atEnd,
    ⟨⟨stage.precedes.module.trans ended.module, stage.precedes.matchEnds⟩,
      stage.precedes.escapes, ?_⟩,
    stage.works.trans stage.precedes.module.toExtends
      (stage.inside ▸ ended.worksIn stage.placed),
    ⟨stage.owes.nodup, ?_, ?_⟩⟩,
    isTerminated⟩
  · refine stage.sound.withBuilder stage.closed ended.module ?_
    intro join member source leads
    rcases ended.leads leads with earlier | ⟨-, target⟩
    · exact earlier
    · exact absurd rfl ((allowed _ target).aside join member)
  · exact Nat.lt_of_lt_of_le stage.placed.inhabited
      ended.module.types.length_le
  · show builder.block = some ⟨builder.function, index⟩
    rw [ended.block, ended.function, cursor]
  · show (builder.module.block? ⟨builder.function, index⟩).isSome = true
    rw [ended.function]
    exact ended.module.known known
  · exact ended.detached.trans stage.placed.attached
  · intro source target targetKnown aside leads
    rcases ended.leads leads with earlier | ⟨-, member⟩
    · exact stage.precedes.leads source target targetKnown aside earlier
    · rcases (allowed target member).own with missing | escapes
      · rw [missing] at targetKnown
        cases targetKnown
      · exact absurd escapes aside
  · intro id
    show _ ↔ builder.module.IsOpen id ∧ builder.block ≠ some id
    rw [stage.owes.mem_iff, ended.block]
    refine and_congr_left fun elsewhere => ?_
    rw [Module.IsOpen, Module.IsOpen, Module.terminator?, Module.terminator?,
      ended.others id elsewhere]
  · intro id member
    obtain ⟨inside, notFirst, name, found⟩ := stage.owes.empty id member
    refine ⟨inside.trans ended.function.symm, notFirst, name, ?_⟩
    exact (ended.others id ((stage.owes.mem_iff id).mp member).2).trans found

/-- From a block that is ended to one that is owed an end. -/
theorem Stage.positioned {block : BlockId}
    (stage : Stage scene origin (block :: owed) state)
    (ended : state.builder.isTerminated = true) :
    Stage scene origin owed
        { state with builder := state.builder.atEnd block } ∧
      (state.builder.atEnd block).isTerminated = false := by
  have member : block ∈ block :: owed := List.mem_cons_self
  obtain ⟨inside, -, name, found⟩ := stage.owes.empty block member
  have same : block = ⟨state.builder.function, block.index⟩ := by
    rw [← inside]
  obtain ⟨new, nodup⟩ := List.nodup_cons.mp stage.owes.nodup
  obtain ⟨index, cursor, -⟩ := stage.placed.cursor
  refine ⟨⟨?_, ⟨stage.placed.sound, stage.placed.inhabited,
    ⟨block.index, congrArg some same, ?_⟩, stage.placed.attached⟩,
    stage.inside, rfl, ⟨⟨stage.precedes.module, stage.precedes.matchEnds⟩,
      stage.precedes.escapes, stage.precedes.leads⟩, stage.works,
    ⟨nodup, ?_, ?_⟩⟩, ?_⟩
  · exact stage.sound.withBuilder stage.closed (Module.Develops.refl _)
      fun _ _ _ leads => leads
  · show (state.builder.module.block?
      ⟨state.builder.function, block.index⟩).isSome = true
    rw [← same, found]
    rfl
  · intro id
    show _ ↔ state.builder.module.IsOpen id ∧ some block ≠ some id
    constructor
    · intro later
      refine ⟨((stage.owes.mem_iff id).mp
        (List.mem_cons_of_mem _ later)).1, ?_⟩
      rintro ⟨⟩
      exact new later
    · rintro ⟨isOpen, other⟩
      have elsewhere : state.builder.block ≠ some id := by
        intro current
        rw [Builder.isTerminated, current] at ended
        dsimp only at ended
        rw [Builder.isTerminatedBlock_eq, isOpen.2] at ended
        cases ended
      rcases List.mem_cons.mp ((stage.owes.mem_iff id).mpr
        ⟨isOpen, elsewhere⟩) with rfl | later
      · exact absurd rfl other
      · exact later
  · intro id later
    exact stage.owes.empty id (List.mem_cons_of_mem _ later)
  · simp only [Builder.isTerminated, Builder.atEnd,
      Builder.isTerminatedBlock, found]
    rfl

theorem precedes_positioned (state : EmitState) (block : BlockId) :
    state.Precedes { state with builder := state.builder.atEnd block } :=
  ⟨⟨Module.Develops.refl _, fun _ member => .inl member⟩,
    fun _ escapes => .inl escapes, fun _ _ _ _ leads => leads⟩

/-! ## Providing for escapes -/

/-- Control may escape to targets. -/
theorem Stage.withEscapes (stage : Stage scene origin owed state)
    (context : FunctionContext) (unwindTargets : UnwindTargets)
    (known : context.Known state.table)
    (escapes : ∀ block,
      ({ state with context, unwindTargets } : EmitState).Escapes block →
        state.Escapes block ∨ IsTarget scene origin block state) :
    Stage scene origin owed { state with context, unwindTargets } := by
  have targets : ∀ block,
      ({ state with context, unwindTargets } : EmitState).Escapes block →
        IsTarget scene origin block state := by
    intro block escaping
    rcases escapes block escaping with old | target
    · exact stage.escape old
    · exact target
  refine ⟨⟨known, stage.sound.layouts, stage.sound.pending,
    stage.sound.apart, stage.sound.coroutine, ?_, ?_⟩, stage.placed,
    stage.inside, stage.atEnd, ⟨⟨stage.precedes.module,
      stage.precedes.matchEnds⟩, ?_, stage.precedes.leads⟩, stage.works,
    ⟨stage.owes.nodup, stage.owes.mem_iff, stage.owes.empty⟩⟩
  · intro block escaping
    exact ⟨(targets block escaping).inside, (targets block escaping).known⟩
  · intro join member
    have settled := stage.sound.matchEnds join member
    exact ⟨settled.known, settled.notFirst, settled.has,
      fun escaping => (targets _ escaping).aside join member rfl,
      settled.settled⟩
  · intro block escaping
    exact (targets block escaping).own.symm

end EmitState

end FormCompiler
