import FormCompiler.Emit.Matching
import FormCompiler.Proofs.UnwindForms

/-!
# Matches are orderly and gather their edges

While the arms of a match are emitted, the blocks that lead to its end are
gathered together with the edges that come from them.  Nothing else leads to
the end, since the arms know nothing of it.  When the match is complete, there
is one edge for each of these blocks.
-/

namespace FormCompiler

open Ir

open EmitState (Stage IsTarget)

variable {scene : Scene} {origin : EmitState} {owed : List BlockId}
  {known : EmitState → Prop} {emit : FormEmitter}

/-! ## Reading -/

/-- The types of the fields that an arm binds are of the table. -/
def Arm.Known (table : TypeTable) (arm : Arm) : Prop :=
  ∀ binding ∈ arm.bindings, table.Has binding.type

instance (arm : Arm) : Stable fun table => arm.Known table :=
  ⟨fun _ grows known binding member => (known binding member).mono grows⟩

instance (arm : Arm) : Enduring fun state => arm.Known state.table :=
  ⟨fun _ continues known binding member =>
    (known binding member).mono continues.module.types⟩

theorem handles_readBinding (sum : String) (variant : Variant) (form : Form) :
    Handles scene (fun table => variant.Known table)
      (readBinding sum variant form)
      fun table binding => table.Has binding.type := by
  unfold readBinding
  refine .orFail_step _ fun ⟨name, index⟩ _ => ?_
  refine .look (fun _ => rfl) fun _ _ _ => ?_
  refine .orFail_step _ fun ⟨offset, type⟩ found => ?_
  exact .pure fun table holds => holds.1.field found

theorem handles_readCase (layout : SumLayout) (sum : String) (form : Form) :
    Handles scene (fun table => layout.Known table)
      (readCase layout sum form) fun table found =>
        ∀ tagged ∈ found, tagged.arm.Known table := by
  unfold readCase
  refine .ite (fun _ => .throw_bind _) fun _ => ?_
  refine .orFail_step _ fun items _ => ?_
  refine .parse fun name _ => ?_
  split
  · refine .step (.lift (emits_report _ _)) (fun _ holds => holds)
      fun _ => ?_
    exact .pure fun _ _ => by simp
  · next variant found =>
      refine .parse fun rest _ => ?_
      refine .orFail_step _ fun ⟨bindForms, body, value⟩ _ => ?_
      refine .step (.mapM fun form _ =>
        handles_readBinding sum variant form) ?_ fun bindings => ?_
      · exact fun _ holds => holds.variant found
      refine .pure ?_
      rintro table holds _ ⟨⟩
      exact holds.2

theorem handles_readCases (layout : SumLayout) (sum : String)
    (forms : List Form) :
    Handles scene (fun table => layout.Known table)
      (readCases layout sum forms) fun table arms =>
        ∀ tagged ∈ arms, tagged.arm.Known table := by
  induction forms with
  | nil => exact .pure fun _ _ => by simp
  | cons form forms ih =>
      unfold readCases
      refine .step (handles_readCase layout sum form) (fun _ holds => holds)
        fun found => ?_
      refine .step ih (fun _ holds => holds.1) fun arms => ?_
      refine .pure fun table holds tagged member => ?_
      rcases List.mem_append.mp member with first | rest
      · exact holds.1.2 tagged (Option.mem_toList.mp first)
      · exact holds.2 tagged rest

theorem handles_readDefault (form : Form) :
    Handles scene (fun _ => True) (readDefault form) fun table arm =>
      arm.Known table := by
  have none {table : TypeTable} {body : List Form} {value : Option String} :
      Arm.Known table ⟨[], body, value⟩ := by
    intro binding member
    cases member
  unfold readDefault
  split
  · exact .pure fun _ _ => none
  · refine .ite (fun _ => .throw_bind _) fun _ => ?_
    exact .pure fun _ _ => none

theorem handles_readDefault? (found : Option Form) :
    Handles scene (fun _ => True) (found.mapM readDefault)
      fun _ _ => True := by
  cases found with
  | none => exact .pure fun _ _ => trivial
  | some form =>
      refine .step (handles_readDefault form) (fun _ holds => holds)
        fun _ => ?_
      exact .pure fun _ _ => trivial

theorem handles_readResult (items : List Form) :
    Handles scene (fun _ => True) (readResult items) fun table read =>
      ∀ result ∈ read.1, table.Has result.type := by
  unfold readResult
  split
  · refine .ite (fun _ => ?_) fun _ => ?_
    · refine .orFail_step _ fun name _ => ?_
      split
      · refine .step (handles_typeOf _) (fun _ holds => holds)
          fun type => ?_
        refine .pure ?_
        rintro table holds _ ⟨⟩
        exact holds.2
      · exact .throw _
    · exact .pure fun _ _ => by simp
  · exact .pure fun _ _ => by simp

/-! ## Arms -/

theorem handles_bindPayload (scrutinee : Value)
    (bindings : List PayloadBinding) :
    Handles scene
      (fun table => ∀ binding ∈ bindings, table.Has binding.type)
      (bindPayload scrutinee bindings) fun _ _ => True := by
  unfold bindPayload
  refine .ite (fun _ => ?_) fun _ => .pure (by tauto)
  refine handles_found _ (emits_fieldPointer scrutinee 1 _)
    (fun _ holds => holds) fun payload => ?_
  refine .forM fun binding member => ?_
  refine handles_found _ (searches_payloadPointer payload binding.offset
    binding.type binding.name) ?_ fun pointer => ?_
  · exact fun _ holds => ⟨holds.2, holds.1 binding member⟩
  refine handles_found _ (emits_load pointer binding.name)
    (fun _ holds => holds) fun value => ?_
  refine (handles_define binding.name value binding.type).given ?_
  exact fun _ holds => ⟨holds.2, holds.1.1.1 binding member⟩

theorem emits_armValue (type : TypeId) (name : Option String) :
    Emits scene (fun table => table.Has type) (armValue type name)
      fun table value => value.Typed table := by
  have undefined := (@emits_constantUndef scene type).weaken
    fun table value both =>
      show value.Typed table from both.1
  unfold armValue
  split
  · exact undefined
  · next name =>
      refine .step (searches_getValue name) (fun _ holds => holds)
        fun found => ?_
      cases found with
      | some value => exact .pure fun _ holds => holds.2 value rfl
      | none =>
          refine .step (emits_report _ _) (fun _ holds => holds) fun _ => ?_
          exact undefined.given (by tauto)

/-! ## Edges -/

/-- The edges of a match so far.  Some blocks lead to its end; those that an
edge was made for come first. -/
structure Gathers (result : Option MatchResult) (block : BlockId)
    (sources others : List BlockId) (edges : List (EdgeSource × String))
    (state : EmitState) : Prop where
  known : (state.builder.module.block? block).isSome = true
  aside : ¬state.Escapes block
  covers : Covers state.builder.module block (sources ++ others)
  names : result.isSome = true →
    edges.map Prod.snd = sources.map state.builder.module.blockName
  values : ∀ edge ∈ edges, ∃ value, edge.1 = .value value ∧
    value.Typed state.table

variable {result : Option MatchResult} {block : BlockId}
  {sources others : List BlockId} {edges : List (EdgeSource × String)}

theorem Gathers.sourceNames {state : EmitState} {later : Module}
    (gathers : Gathers result block sources others edges state)
    (develops : state.builder.module.Develops later) :
    sources.map later.blockName =
      sources.map state.builder.module.blockName := by
  apply List.map_congr_left
  intro source member
  exact develops.blockName ((gathers.covers.mem_iff source).mp
    (List.mem_append_left _ member)).known

/-- Where nothing new leads to the end of the match, nothing changes. -/
theorem Gathers.mono {state later : EmitState}
    (gathers : Gathers result block sources others edges state)
    (closed : state.table.Closed)
    (develops : state.builder.module.Develops later.builder.module)
    (aside : ¬later.Escapes block)
    (noMore : ∀ source, later.builder.module.Leads source block →
      state.builder.module.Leads source block) :
    Gathers result block sources others edges later := by
  refine ⟨develops.known gathers.known, aside,
    gathers.covers.mono develops noMore, ?_, ?_⟩
  · intro hasResult
    rw [gathers.sourceNames develops]
    exact gathers.names hasResult
  · intro edge member
    obtain ⟨value, same, typed⟩ := gathers.values edge member
    exact ⟨value, same, typed.mono closed develops.types⟩

instance : Lasting (Gathers result block sources others edges) := by
  refine ⟨fun {state later} closed precedes gathers => ?_⟩
  refine gathers.mono closed precedes.module ?_ fun source leads =>
    precedes.leads source block gathers.known gathers.aside leads
  intro escapes
  rcases precedes.escapes block escapes with old | missing
  · exact gathers.aside old
  · have known := gathers.known
    rw [missing] at known
    cases known

/-- The current block is ended and leads elsewhere. -/
theorem Gathers.passed {state : EmitState}
    (gathers : Gathers result block sources others edges state)
    (closed : state.table.Closed) {builder : Builder}
    {targets : List BlockId} (ended : state.builder.Ended targets builder)
    (elsewhere : block ∉ targets) :
    Gathers result block sources others edges { state with builder } := by
  refine gathers.mono closed ended.module gathers.aside ?_
  intro source leads
  rcases ended.leads leads with old | ⟨-, target⟩
  · exact old
  · exact absurd target elsewhere

/-- The current block is ended and leads to the end of the match; its edge is
still to be made. -/
theorem Gathers.reached {state : EmitState}
    (gathers : Gathers result block sources others edges state)
    (closed : state.table.Closed) {builder : Builder}
    {targets : List BlockId} (ended : state.builder.Ended targets builder)
    {source : BlockId} (cursor : state.builder.block = some source)
    (isOpen : state.builder.module.terminator? source = none)
    (target : block ∈ targets) :
    Gathers result block sources (others ++ [source]) edges
      { state with builder } := by
  have covers := gathers.covers.extend ended cursor isOpen target
  rw [List.append_assoc] at covers
  refine ⟨ended.module.known gathers.known, gathers.aside, covers, ?_, ?_⟩
  · intro hasResult
    exact (gathers.names hasResult).trans
      (gathers.sourceNames ended.module).symm
  · intro edge member
    obtain ⟨value, same, typed⟩ := gathers.values edge member
    exact ⟨value, same, typed.mono closed ended.module.types⟩

/-- The edge of a block that leads to the end of the match. -/
theorem Gathers.withEdges {state : EmitState} {source : BlockId}
    (gathers : Gathers result block sources (others ++ [source]) edges state)
    {new : List (EdgeSource × String)}
    (named : result.isSome = true →
      new.map Prod.snd = [state.builder.module.blockName source])
    (values : ∀ edge ∈ new, ∃ value, edge.1 = .value value ∧
      value.Typed state.table) :
    Gathers result block (sources ++ [source]) others (edges ++ new)
      state := by
  refine ⟨gathers.known, gathers.aside, gathers.covers.perm ?_, ?_, ?_⟩
  · rw [List.append_assoc]
    exact List.perm_append_comm.append_left sources
  · intro hasResult
    rw [List.map_append, List.map_append, gathers.names hasResult,
      named hasResult]
    rfl
  · intro edge member
    rcases List.mem_append.mp member with old | later
    · exact gathers.values edge old
    · exact values edge later

/-- The arms so far, with more edges than before. -/
def Gathering (scene : Scene) (origin : EmitState) (owed : List BlockId)
    (known : EmitState → Prop) (result : Option MatchResult)
    (block : BlockId) (sources others : List BlockId)
    (edges new : List (EdgeSource × String)) (state : EmitState) : Prop :=
  ∃ more, Leaving scene origin owed (fun state => known state ∧
    Gathers result block (sources ++ more) others (edges ++ new) state) state

theorem terminator?_cursor {cursor : BlockId} {state : EmitState}
    (writing : Writing scene origin owed known state)
    (current : state.builder.block = some cursor) :
    state.builder.module.terminator? cursor = none := by
  have isOpen := writing.cursor
  rw [Builder.isTerminated, current] at isOpen
  dsimp only at isOpen
  rw [Builder.isTerminatedBlock_eq] at isOpen
  exact Option.isNone_iff_eq_none.mp (Option.isSome_eq_false_iff.mp isOpen)

/-- The blocks whose edge is still to be made, once the current block leads to
some targets. -/
def stillOwed (block source : BlockId) (targets others : List BlockId) :
    List BlockId :=
  if block ∈ targets then others ++ [source] else others

/-- The end of the current block, which may lead to the end of the match. -/
theorem At.endedGathering [Enduring known] {state : EmitState}
    {source : BlockId}
    (writing : Writing scene origin owed (fun state => known state ∧
      Gathers result block sources others edges state) state)
    (current : state.builder.block = some source) {builder : Builder}
    {targets : List BlockId} (ended : state.builder.Ended targets builder)
    (allowed : ∀ target ∈ targets, IsTarget scene origin target state) :
    Leaving scene origin owed (fun state => known state ∧
      Gathers result block sources (stillOwed block source targets others)
        edges state) { state with builder } := by
  have leaving := (writing.imp And.left).ended ended allowed
  refine ⟨leaving.stage, leaving.cursor, leaving.holds, ?_⟩
  unfold stillOwed
  split
  · next leads =>
      exact writing.holds.2.reached writing.stage.closed ended current
        (terminator?_cursor writing current) leads
  · next elsewhere =>
      exact writing.holds.2.passed writing.stage.closed ended elsewhere

/-- The current block branches on, maybe to the end of the match. -/
theorem proceeds_branchGathering [Enduring known] {source target : BlockId}
    (allowed : ∀ state, known state → IsTarget scene origin target state) :
    Proceeds scene
      (fun state => Writing scene origin owed (fun state => known state ∧
          Gathers result block sources others edges state) state ∧
        state.builder.block = some source)
      (liftM (Builder.branch target) : Emission Unit)
      fun _ => Leaving scene origin owed fun state => known state ∧
        Gathers result block sources
          (stillOwed block source [target] others) edges state := by
  rintro state ⟨writing, current⟩
  have targets : ∀ other ∈ [target],
      IsTarget scene origin other state := by
    simpa using allowed state writing.holds.1
  exact writing.endedGathering current
    (Builder.ended_branch writing.ready.builder writing.cursor
      (writing.targets targets)) targets

/-- The current block branches on a test, maybe to the end of the match. -/
theorem proceeds_testGathering [Enduring known]
    {source thenTarget elseTarget : BlockId} {hit : Value} {bits : Nat}
    (int : hit.operand.type = .int bits)
    (allowed : ∀ state, known state → IsTarget scene origin thenTarget state ∧
      IsTarget scene origin elseTarget state) :
    Proceeds scene
      (fun state => Writing scene origin owed (fun state => known state ∧
          Gathers result block sources others edges state) state ∧
        state.builder.block = some source)
      (liftM (Builder.branchIf hit thenTarget elseTarget) : Emission Unit)
      fun _ => Leaving scene origin owed fun state => known state ∧
        Gathers result block sources
          (stillOwed block source [thenTarget, elseTarget] others) edges
          state := by
  rintro state ⟨writing, current⟩
  have targets : ∀ other ∈ [thenTarget, elseTarget],
      IsTarget scene origin other state := by
    simpa using allowed state writing.holds.1
  exact writing.endedGathering current
    (Builder.ended_branchIf writing.ready.builder writing.cursor int
      (writing.targets targets)) targets

/-- An open block goes on to the end of the match. -/
theorem proceeds_arrive [Enduring known] {exit : BlockId}
    {new : List (EdgeSource × String)}
    (allowed : ∀ state, known state → IsTarget scene origin block state) :
    Proceeds scene
      (fun state => Writing scene origin owed (fun state => known state ∧
          Gathers result block sources others edges state) state ∧
        state.builder.block = some exit ∧
        (result.isSome = true →
          new.map Prod.snd = [state.builder.module.blockName exit]) ∧
        ∀ edge ∈ new, ∃ value, edge.1 = .value value ∧
          value.Typed state.table)
      (do
        Builder.branch block
        pure new)
      (Gathering scene origin owed known result block sources others
        edges) := by
  rintro state ⟨writing, current, named, values⟩
  have targets : ∀ other ∈ [block], IsTarget scene origin other state := by
    simpa using allowed state writing.holds.1
  have ended : state.builder.Ended [block]
      (Builder.branch block state.builder).2 :=
    Builder.ended_branch writing.ready.builder writing.cursor
      (writing.targets targets)
  have leaving := writing.endedGathering current ended targets
  rw [stillOwed, if_pos List.mem_cons_self] at leaving
  refine ⟨[exit], leaving.imp fun holds => ⟨holds.1,
    holds.2.withEdges ?_ ?_⟩⟩
  · intro hasResult
    have exitKnown : (state.builder.module.block? exit).isSome = true := by
      obtain ⟨index, cursor, known⟩ := writing.stage.placed.cursor
      cases cursor.symm.trans current
      exact known
    exact (named hasResult).trans
      (congrArg ([·]) (ended.module.blockName exitKnown).symm)
  · intro edge member
    obtain ⟨value, same, typed⟩ := values edge member
    exact ⟨value, same,
      typed.mono writing.stage.closed ended.module.types⟩

/-- What an arm does when its body is emitted: where the body left the current
block open, the block goes on to the end of the match. -/
def leaveArm (result : Option MatchResult) (endBlock : BlockId)
    (value : Option String) : Emission (List (EdgeSource × String)) := do
  match ← currentBlock? with
  | none => pure []
  | some exit =>
      if ← isTerminated then pure []
      else
        let edges ←
          match result with
          | none => pure []
          | some result =>
              let value ← armValue result.type value
              pure [(.value value, (← module).blockName exit)]
        Builder.branch endBlock
        pure edges

theorem emitMatchArm_eq (endBlock : BlockId) (arm : Arm) :
    emitMatchArm emit result endBlock arm = (do
      emitSequence emit arm.body
      leaveArm result endBlock arm.value) := rfl

theorem proceeds_leaveArm [Enduring known] (value : Option String)
    (allowed : ∀ state, known state → IsTarget scene origin block state ∧
      ∀ entry ∈ result, state.table.Has entry.type) :
    Proceeds scene
      (Passing scene origin owed fun state => known state ∧
        Gathers result block sources others edges state)
      (leaveArm result block value)
      (Gathering scene origin owed known result block sources others
        edges) := by
  have arrives (exit : BlockId) (new : List (EdgeSource × String)) :=
    @proceeds_arrive scene origin owed known result block sources others
      edges _ exit new fun state holds => (allowed state holds).1
  unfold leaveArm
  refine .look (fun _ => rfl) fun found => ?_
  cases found with
  | none =>
      rintro state ⟨passing, none⟩
      obtain ⟨index, cursor, -⟩ := passing.stage.placed.cursor
      cases cursor.symm.trans none
  | some exit =>
      refine .look (fun _ => rfl) fun ended => ?_
      split
      · next isEnded =>
          refine .pure ?_
          rintro state ⟨⟨passing, -⟩, same⟩
          refine ⟨[], passing.stage, same.trans isEnded, ?_⟩
          rw [List.append_nil, List.append_nil]
          exact passing.holds
      · next isOpen =>
          have writes : ∀ state, (Passing scene origin owed (fun state =>
              known state ∧ Gathers result block sources others edges state)
              state ∧ state.builder.block = some exit) ∧
              state.builder.isTerminated = ended →
              Writing scene origin owed (fun state => known state ∧
                Gathers result block sources others edges state) state ∧
              state.builder.block = some exit := by
            rintro state ⟨⟨passing, cursor⟩, same⟩
            exact ⟨⟨passing.stage, same.trans (Bool.eq_false_iff.mpr isOpen),
              passing.holds⟩, cursor⟩
          refine Proceeds.given ?_ writes
          cases result with
          | none =>
              refine (arrives exit []).given ?_
              rintro state ⟨writing, cursor⟩
              exact ⟨writing, cursor, nofun, nofun⟩
          | some entry =>
              refine .bind (.quietAt (emits_armValue entry.type value)
                fun state holds => (allowed state holds.1).2 entry rfl)
                fun found => ?_
              refine .look (fun _ => rfl) fun module => ?_
              refine (arrives exit [_]).given ?_
              rintro state ⟨⟨writing, cursor⟩, rfl⟩
              refine ⟨writing.imp And.left, cursor, fun _ => rfl, ?_⟩
              intro edge member
              cases List.mem_singleton.mp member
              exact ⟨found, rfl, writing.holds.2⟩

/-- The block that a body left open leads to the end of the match. -/
theorem leads_leaveArm (value : Option String) {state : EmitState}
    (passing : Passing scene origin owed known state)
    (allowed : IsTarget scene origin block state ∧
      ∀ entry ∈ result, state.table.Has entry.type) :
    state.builder.module.Develops
        (leaveArm result block value scene.environment state).2.builder.module ∧
      ∀ exit, state.builder.block = some exit →
        state.builder.isTerminated = false →
        (leaveArm result block value scene.environment
          state).2.builder.module.terminator? exit =
            some (.branch block) := by
  obtain ⟨index, current, -⟩ := passing.stage.placed.cursor
  have branches {middle : EmitState} (ready : middle.Ready scene)
      (quiet : state.Quiet middle)
      (isOpen : middle.builder.isTerminated = false)
      (new : List (EdgeSource × String)) :
      state.builder.module.Develops ((do
          Builder.branch block
          pure new : Emission (List (EdgeSource × String)))
          scene.environment middle).2.builder.module ∧
        ∀ exit, state.builder.block = some exit →
          ((do
            Builder.branch block
            pure new : Emission (List (EdgeSource × String)))
            scene.environment middle).2.builder.module.terminator? exit =
              some (.branch block) := by
    have target := allowed.1.mono quiet.precedes.toContinues
    have targets : ∀ other ∈ [block],
        other.function = middle.builder.function ∧
          (middle.builder.module.block? other).isSome = true := by
      simp only [List.mem_singleton, forall_eq]
      refine ⟨?_, target.known⟩
      rw [quiet.builder.function, passing.stage.inside]
      exact target.inside
    obtain ⟨ended, ends⟩ :=
      Builder.ends_branch ready.builder isOpen targets
    refine ⟨quiet.precedes.module.trans ended.module, fun exit cursor => ?_⟩
    exact ends exit (quiet.builder.block.trans cursor)
  have looks : leaveArm result block value scene.environment state =
      (if state.builder.isTerminated then pure [] else do
        let edges ←
          match result with
          | none => pure []
          | some result =>
              let value ← armValue result.type value
              pure [(.value value, (← module).blockName
                ⟨state.builder.function, index⟩)]
        Builder.branch block
        pure edges : Emission (List (EdgeSource × String)))
        scene.environment state := by
    have found : currentBlock? scene.environment state =
        (some ⟨state.builder.function, index⟩, state) :=
      congrArg (·, state) current
    unfold leaveArm
    rw [reader_bind_apply, found]
    dsimp only
    rw [isTerminated_bind]
  rw [looks]
  split
  · next isEnded =>
      refine ⟨.refl _, fun exit _ isOpen => ?_⟩
      rw [isEnded] at isOpen
      cases isOpen
  · next notEnded =>
      have isOpen := Bool.eq_false_iff.mpr notEnded
      have ready := passing.stage.ready isOpen
      cases result with
      | none =>
          obtain ⟨develops, ends⟩ := branches ready (.refl state) isOpen []
          exact ⟨develops, fun exit cursor _ => ends exit cursor⟩
      | some entry =>
          have values := emits_armValue entry.type value state ready
            (allowed.2 entry rfl)
          have stillOpen := (passing.stage.placed.isTerminated_eq
            values.follows.builder).trans isOpen
          obtain ⟨develops, ends⟩ := branches values.holds values.follows
            stillOpen _
          exact ⟨develops, fun exit cursor _ => ends exit cursor⟩

/-- An arm whose body starts where something was done in its block already. -/
theorem proceeds_emitMatchArm [Enduring known]
    (advances : ∀ form, Advances scene (emit form)) (arm : Arm)
    {before : EmitState} {bodyBlock : BlockId}
    (enters : before.Enters bodyBlock) (entry : Emission Unit)
    (allowed : ∀ state, known state → IsTarget scene origin block state ∧
      ∀ entry ∈ result, state.table.Has entry.type) :
    Proceeds scene
      (fun state => Writing scene origin owed (fun state => known state ∧
          Gathers result block sources others edges state) state ∧
        (entry scene.environment before).2 = state)
      (emitMatchArm emit result block arm)
      (Gathering scene origin owed (fun state => known state ∧
        HasBody scene (do entry; emitSequence emit arm.body) bodyBlock block
          state.builder.module) result block sources others edges) := by
  rintro state ⟨writing, rfl⟩
  have passing := Proceeds.sequence advances arm.body _ writing.forget
  obtain ⟨more, leaving⟩ :=
    proceeds_leaveArm arm.value allowed _ passing
  obtain ⟨develops, exits⟩ := leads_leaveArm arm.value passing
    (allowed _ passing.holds.1)
  exact ⟨more, leaving.stage, leaving.cursor, ⟨leaving.holds.1, before,
    enters, develops, exits⟩, leaving.holds.2⟩

/-! ## Cases -/

/-- An arm as control flow has it. -/
def PlacedArm.route (placed : PlacedArm) : Route :=
  ⟨placed.tagged.tag, placed.testBlock, placed.bodyBlock⟩

/-- The blocks of an arm, which are ended one after the other. -/
def PlacedArm.blocks (placed : PlacedArm) : List BlockId :=
  [placed.testBlock, placed.bodyBlock]

theorem firstArmTest_eq (noMatch : BlockId) (placed : List PlacedArm) :
    firstArmTest noMatch placed =
      Route.first noMatch (placed.map PlacedArm.route) := by
  cases placed <;> rfl

/-- Binds the fields that an arm names.  Where one is missing, the rest is
reported and left out. -/
def bindArm (scrutinee : Value) (arm : Arm) : Emission Unit := do
  match ← (bindPayload scrutinee arm.bindings).run with
  | .ok _ => pure ()
  | .error cause => report "match" cause

/-- The test of an arm. -/
def emitMatchTest (tag : Value) (placed : PlacedArm) (next : BlockId) :
    Emission Unit := do
  Builder.positionAtEnd placed.testBlock
  let expected ← Builder.constantI32 placed.tagged.tag
  let hit ← Builder.compareInt .eq tag expected "match.cmp"
  Builder.branchIf hit placed.bodyBlock next

/-- The number of an arm, with what is emitted for it. -/
def matchArm (emit : FormEmitter) (scrutinee : Value) (tagged : TaggedArm) :
    Int × Emission Unit :=
  (tagged.tag, do
    bindArm scrutinee tagged.arm
    emitSequence emit tagged.arm.body)

/-- What is emitted for an arm, where it stands. -/
def PlacedArm.emitted (emit : FormEmitter) (scrutinee : Value)
    (placed : PlacedArm) : Route × Emission Unit :=
  (placed.route, (matchArm emit scrutinee placed.tagged).2)

/-- The arms of a match are tested in order, and each has its body. -/
def ArmsEmitted (scene : Scene) (emit : FormEmitter) (scrutinee tag : Value)
    (noMatch endBlock : BlockId) (placed : List PlacedArm)
    (state : EmitState) : Prop :=
  state.builder.module.Chains tag.operand 32 noMatch
      (placed.map PlacedArm.route) ∧
    ∀ entry ∈ placed, HasBody scene (entry.emitted emit scrutinee).2
      entry.bodyBlock endBlock state.builder.module

instance {scrutinee tag : Value} {noMatch endBlock : BlockId}
    {placed : List PlacedArm} :
    Enduring (ArmsEmitted scene emit scrutinee tag noMatch endBlock
      placed) := by
  unfold ArmsEmitted
  infer_instance

/-- All blocks of arms may be led to, and their bindings are known. -/
def ArmsAllowed (scene : Scene) (origin : EmitState)
    (placed : List PlacedArm) (state : EmitState) : Prop :=
  ∀ entry ∈ placed, IsTarget scene origin entry.testBlock state ∧
    IsTarget scene origin entry.bodyBlock state ∧
    entry.tagged.arm.Known state.table

instance (placed : List PlacedArm) :
    Enduring (ArmsAllowed scene origin placed) := by
  unfold ArmsAllowed
  infer_instance

theorem ArmsAllowed.firstArmTest {placed : List PlacedArm}
    {noMatch : BlockId} {state : EmitState}
    (allowed : ArmsAllowed scene origin placed state)
    (noMatchAllowed : IsTarget scene origin noMatch state) :
    IsTarget scene origin (firstArmTest noMatch placed) state := by
  cases placed with
  | nil => exact noMatchAllowed
  | cons entry rest => exact (allowed entry List.mem_cons_self).1

/-- The test that leads to the end of a match where no arm is taken. -/
def lastTests (noMatch block : BlockId) (placed : List PlacedArm) :
    List BlockId :=
  if noMatch = block then
    (placed.getLast?.map PlacedArm.testBlock).toList
  else []

theorem stillOwed_lastTests {entry : PlacedArm} {rest : List PlacedArm}
    {noMatch : BlockId} (own : block ∉ entry.blocks)
    (apart : ∀ entry ∈ rest, block ∉ entry.blocks) :
    stillOwed block entry.testBlock
        [entry.bodyBlock, firstArmTest noMatch rest] others ++
      lastTests noMatch block rest =
    others ++ lastTests noMatch block (entry :: rest) := by
  have notBody : block ≠ entry.bodyBlock := by
    rintro rfl
    simp [PlacedArm.blocks] at own
  cases rest with
  | nil =>
      by_cases same : noMatch = block
      · simp [stillOwed, lastTests, firstArmTest, same]
      · simp [stillOwed, lastTests, firstArmTest, same, notBody,
          Ne.symm same]
  | cons next rest =>
      have notTest : block ≠ next.testBlock := by
        rintro rfl
        simp [PlacedArm.blocks] at apart
      have notOwed : stillOwed block entry.testBlock
          [entry.bodyBlock, firstArmTest noMatch (next :: rest)] others =
          others := by
        simp [stillOwed, firstArmTest, notBody, notTest]
      rw [notOwed, lastTests, lastTests, List.getLast?_cons_cons]

theorem emits_tag (number : Int) :
    Emits scene (fun _ => True)
      (liftM (Builder.constantI32 number) : Emission Value)
      fun _ value => value.content = .firstClass (.ofInt 32 number) :=
  emits_onBuilder fun _ ready _ =>
    (Builder.builds_word ready number).weaken fun _ _ both => both.2

theorem emits_bindArm (scrutinee : Value) (arm : Arm) :
    Emits scene (fun table => arm.Known table) (bindArm scrutinee arm)
      fun _ _ => True := by
  refine .step (handles_bindPayload scrutinee arm.bindings)
    (fun _ holds => holds) fun outcome => ?_
  cases outcome with
  | ok _ => exact .pure fun _ _ => trivial
  | error cause => exact (emits_report "match" cause).given fun _ _ => trivial

theorem emitMatchCases_cons (scrutinee tag : Value)
    (noMatch endBlock : BlockId) (entry : PlacedArm) (rest : List PlacedArm) :
    emitMatchCases emit result scrutinee tag noMatch endBlock
        (entry :: rest) = (do
      emitMatchTest tag entry (firstArmTest noMatch rest)
      Builder.positionAtEnd entry.bodyBlock
      bindArm scrutinee entry.tagged.arm
      let edges ← emitMatchArm emit result endBlock entry.tagged.arm
      let later ←
        emitMatchCases emit result scrutinee tag noMatch endBlock rest
      pure (edges ++ later)) := by
  rw [emitMatchCases]
  simp only [emitMatchTest, bind_assoc]
  refine bind_congr fun _ => bind_congr fun _ => bind_congr fun _ => ?_
  refine bind_congr fun _ => bind_congr fun _ => ?_
  rw [bindArm, bind_assoc]
  refine bind_congr fun outcome => ?_
  cases outcome with
  | ok _ => rw [pure_bind]
  | error cause => rfl

/-- The test of an arm, which may lead to the end of the match. -/
theorem proceeds_emitMatchTest [Enduring known] (tag : Value)
    (entry : PlacedArm) (next : BlockId)
    (allowed : ∀ state, known state →
      IsTarget scene origin entry.bodyBlock state ∧
      IsTarget scene origin next state) :
    Proceeds scene
      (Leaving scene origin (entry.blocks ++ owed) fun state =>
        known state ∧ Gathers result block sources others edges state)
      (emitMatchTest tag entry next)
      fun _ => Leaving scene origin (entry.bodyBlock :: owed) fun state =>
        (known state ∧
          state.builder.module.Tests tag.operand 32 entry.route next) ∧
        Gathers result block sources
          (stillOwed block entry.testBlock [entry.bodyBlock, next] others)
          edges state := by
  refine .bind (.positionAt entry.testBlock) fun _ => ?_
  refine .bind (.quietAt (emits_tag entry.tagged.tag) fun _ _ => trivial)
    fun expected => ?_
  refine .bind (proceeds_compare tag expected _) fun hit => ?_
  rintro state ⟨writing, current⟩
  obtain ⟨⟨⟨holds, gathers⟩, content⟩, int, fills⟩ := writing.holds
  have later := proceeds_testGathering int allowed state
    ⟨writing.imp fun _ => ⟨holds, gathers⟩, current⟩
  have tested := proceeds_test entry.route next content allowed state
    ⟨writing.imp fun _ => ⟨holds, int, fills⟩, current⟩
  exact ⟨later.stage, later.cursor, ⟨later.holds.1, tested⟩, later.holds.2⟩

theorem proceeds_emitMatchCases [Enduring known]
    (advances : ∀ form, Advances scene (emit form)) (scrutinee tag : Value)
    {noMatch : BlockId} (placed : List PlacedArm)
    (apart : ∀ entry ∈ placed, block ∉ entry.blocks)
    (allowed : ∀ state, known state → ArmsAllowed scene origin placed state ∧
      IsTarget scene origin noMatch state ∧
      IsTarget scene origin block state ∧
      ∀ entry ∈ result, state.table.Has entry.type) :
    Proceeds scene
      (Leaving scene origin (placed.flatMap PlacedArm.blocks ++ owed)
        fun state => known state ∧
          Gathers result block sources others edges state)
      (emitMatchCases emit result scrutinee tag noMatch block placed)
      (Gathering scene origin owed (fun state => known state ∧
          ArmsEmitted scene emit scrutinee tag noMatch block placed state)
        result block sources (others ++ lastTests noMatch block placed)
        edges) := by
  induction placed generalizing known sources others edges with
  | nil =>
      refine .pure fun state leaving => ⟨[], ?_⟩
      have none : lastTests noMatch block [] = [] := by simp [lastTests]
      rw [none, List.append_nil, List.append_nil, List.append_nil]
      exact leaving.imp fun holds =>
        ⟨⟨holds.1, trivial, List.forall_mem_nil _⟩, holds.2⟩
  | cons entry rest ih =>
      rw [List.forall_mem_cons] at apart
      rw [emitMatchCases_cons, List.flatMap_cons, List.append_assoc]
      refine .bind (proceeds_emitMatchTest tag entry _ fun state holds => ?_)
        fun _ => ?_
      · obtain ⟨arms, noMatchAllowed, -⟩ := allowed state holds
        obtain ⟨own, later⟩ := List.forall_mem_cons.mp arms
        exact ⟨own.2.1, ArmsAllowed.firstArmTest later noMatchAllowed⟩
      intro state leaving
      obtain ⟨writing, enters, -⟩ :=
        proceeds_enter entry.bodyBlock state leaving
      have bound := Proceeds.quiet
        (emits_bindArm scrutinee entry.tagged.arm) (fun state holds =>
          ((allowed state holds.1.1).1 entry List.mem_cons_self).2.2) _
        writing
      rw [reader_bind_apply, reader_bind_apply]
      refine Proceeds.bind (proceeds_emitMatchArm advances entry.tagged.arm
        enters (bindArm scrutinee entry.tagged.arm) fun state
          (holds : known state ∧ state.builder.module.Tests tag.operand 32
            entry.route (firstArmTest noMatch rest)) =>
          (allowed state holds.1).2.2) (fun new => ?_) _
        ⟨bound.imp fun holds => holds.1, rfl⟩
      rintro state ⟨more, leaving⟩
      obtain ⟨evenMore, last⟩ := ih apart.2 (fun state holds => by
        obtain ⟨arms, targets⟩ := allowed state holds.1.1
        exact ⟨(List.forall_mem_cons.mp arms).2, targets⟩) state leaving
      rw [stillOwed_lastTests apart.1 apart.2, List.append_assoc,
        List.append_assoc] at last
      refine ⟨more ++ evenMore, last.imp fun holds => ⟨?_, holds.2⟩⟩
      obtain ⟨⟨⟨⟨earlier, tests⟩, body⟩, chains, bodies⟩, -⟩ := holds
      rw [firstArmTest_eq] at tests
      exact ⟨earlier, ⟨tests, chains⟩,
        List.forall_mem_cons.mpr ⟨body, bodies⟩⟩

/-! ## Blocks of arms -/

theorem proceeds_appendNumbered [Enduring known] {stem : String}
    (stemNamed : nameBeforeNul stem ≠ "") (id : Nat) (indices : List Nat)
    (front : List BlockId) :
    Proceeds scene (Writing scene origin (front ++ owed) known)
      (indices.mapM fun index =>
        (liftM (Builder.appendBlock s!"{stem}.{index}.{id}") :
          Emission BlockId))
      fun added => Writing scene origin (front ++ added ++ owed) fun state =>
        (known state ∧ added.length = indices.length) ∧
          ∀ block ∈ added, IsTarget scene origin block state := by
  induction indices generalizing known front with
  | nil =>
      rw [List.mapM_nil]
      refine .pure fun state writing => ?_
      rw [List.append_nil]
      exact writing.imp fun holds => ⟨⟨holds, rfl⟩, nofun⟩
  | cons index indices ih =>
      have named : nameBeforeNul (stem ++ "." ++ toString index ++ "." ++
          toString id) ≠ "" :=
        nameBeforeNul_append _ (nameBeforeNul_append _
          (nameBeforeNul_append _ (nameBeforeNul_append _ stemNamed)))
      rw [List.mapM_cons]
      refine .bind (.append front named) fun added => ?_
      rw [List.append_cons]
      refine .bind (ih (front ++ [added])) fun rest => ?_
      refine .pure fun state writing => ?_
      rw [List.append_assoc front, List.singleton_append] at writing
      refine writing.imp fun holds => ⟨⟨holds.1.1.1, ?_⟩, ?_⟩
      · rw [List.length_cons, List.length_cons, holds.1.2]
      · exact List.forall_mem_cons.mpr ⟨holds.1.1.2, holds.2⟩

/-- Arms with the blocks that were added for them. -/
def pairArms (arms : List TaggedArm) (tests bodies : List BlockId) :
    List PlacedArm :=
  (arms.zip (tests.zip bodies)).map fun (arm, test, body) =>
    ⟨arm, test, body⟩

/-- All tests ahead of all bodies are the blocks of the arms. -/
theorem perm_blocks_pairArms {arms : List TaggedArm}
    {tests bodies : List BlockId} (sameTests : tests.length = arms.length)
    (sameBodies : bodies.length = arms.length) :
    (tests ++ bodies).Perm
      ((pairArms arms tests bodies).flatMap PlacedArm.blocks) := by
  induction arms generalizing tests bodies with
  | nil =>
      rw [List.length_nil, List.length_eq_zero_iff] at sameTests sameBodies
      subst sameTests sameBodies
      exact .nil
  | cons arm arms ih =>
      obtain ⟨test, tests, rfl⟩ :=
        List.exists_cons_of_length_eq_add_one sameTests
      obtain ⟨body, bodies, rfl⟩ :=
        List.exists_cons_of_length_eq_add_one sameBodies
      have rest := ih (Nat.succ.inj sameTests) (Nat.succ.inj sameBodies)
      exact .cons test (List.perm_middle.trans (.cons body rest))

theorem map_tagged_pairArms {arms : List TaggedArm}
    {tests bodies : List BlockId} (sameTests : tests.length = arms.length)
    (sameBodies : bodies.length = arms.length) :
    (pairArms arms tests bodies).map PlacedArm.tagged = arms := by
  unfold pairArms
  rw [List.map_map]
  refine List.map_fst_zip ?_
  rw [List.length_zip, sameTests, sameBodies, Nat.min_self]

theorem mem_pairArms {arms : List TaggedArm} {tests bodies : List BlockId}
    {entry : PlacedArm} (member : entry ∈ pairArms arms tests bodies) :
    entry.tagged ∈ arms ∧ entry.testBlock ∈ tests ∧
      entry.bodyBlock ∈ bodies := by
  obtain ⟨⟨arm, test, body⟩, inside, rfl⟩ := List.mem_map.mp member
  obtain ⟨armMember, blocks⟩ := List.of_mem_zip inside
  exact ⟨armMember, List.of_mem_zip blocks⟩

theorem proceeds_placeArms [Enduring known] (arms : List TaggedArm) (id : Nat)
    (armsKnown : ∀ state, known state → ∀ tagged ∈ arms,
      tagged.arm.Known state.table) :
    Proceeds scene (Writing scene origin owed known) (placeArms arms id)
      fun placed => Writing scene origin
        (placed.flatMap PlacedArm.blocks ++ owed) fun state =>
          (known state ∧ placed.map PlacedArm.tagged = arms) ∧
            ArmsAllowed scene origin placed state := by
  unfold placeArms appendNumbered
  refine .bind (proceeds_appendNumbered (by decide) id _ []) fun tests => ?_
  refine .bind (proceeds_appendNumbered (by decide) id _ ([] ++ tests))
    fun bodies => ?_
  refine .pure fun state writing => ?_
  obtain ⟨⟨⟨⟨holds, sameTests⟩, testTargets⟩, sameBodies⟩, bodyTargets⟩ :=
    writing.holds
  rw [List.length_range] at sameTests sameBodies
  have placed := (writing.perm ((perm_blocks_pairArms sameTests
    sameBodies).append_right owed)).imp fun _ => holds
  refine placed.imp fun holds =>
    ⟨⟨holds, map_tagged_pairArms sameTests sameBodies⟩, ?_⟩
  intro entry member
  obtain ⟨arm, test, body⟩ := mem_pairArms member
  exact ⟨testTargets _ test, bodyTargets _ body, armsKnown state holds _ arm⟩

theorem stays_placeArms (arms : List TaggedArm) (id : Nat) :
    Stays (placeArms arms id) := by
  unfold placeArms appendNumbered
  refine .bind (.mapM (fun _ _ _ => rfl) _) fun tests => ?_
  refine .bind (.mapM (fun _ _ _ => rfl) _) fun bodies => ?_
  exact .pure _

/-! ## The end of a match -/

/-- Nothing leads to a block that was just added. -/
theorem proceeds_appendEnd [Enduring known] (front : List BlockId)
    {name : String} (named : nameBeforeNul name ≠ "")
    (result : Option MatchResult) (start : BlockId) :
    Proceeds scene
      (fun state => Writing scene origin (front ++ owed) known state ∧
        state.builder.block = some start)
      (liftM (Builder.appendBlock name) : Emission BlockId)
      fun added state => Writing scene origin (front ++ added :: owed)
          (fun state => (known state ∧ IsTarget scene origin added state ∧
            origin.builder.module.block? added = none) ∧
            Gathers result added [] [] [] state) state ∧
        state.builder.block = some start := by
  rintro state ⟨writing, current⟩
  have appended : state.builder.Appended
      ((liftM (Builder.appendBlock name) : Emission BlockId)
        scene.environment state).2.builder
      ((liftM (Builder.appendBlock name) : Emission BlockId)
        scene.environment state).1 := writing.ready.appended named
  have later := Proceeds.append front named state writing
  refine ⟨later.imp fun holds => ⟨⟨holds.1, holds.2, ?_⟩,
    holds.2.known, ?_, ⟨List.nodup_nil, ?_⟩, fun _ => rfl, nofun⟩,
    appended.block.trans current⟩
  · exact writing.stage.precedes.module.missing appended.missing
  · intro escapes
    have known := (writing.stage.sound.escapes _ escapes).2
    rw [appended.missing] at known
    cases known
  · intro source
    refine ⟨nofun, fun leads => ?_⟩
    have known := (writing.stage.placed.sound.leads
      (appended.leads leads)).2
    rw [appended.missing] at known
    cases known

/-- The current block is somewhere. -/
theorem Concludes.somewhere {cursor : Bool → Prop} {handler : Handler Unit}
    (concludes : ∀ start, Concludes scene origin owed
      (fun state => At scene origin cursor owed known state ∧
        state.builder.block = some start) handler) :
    Concludes scene origin owed (At scene origin cursor owed known)
      handler := by
  intro state at_
  obtain ⟨index, current, -⟩ := at_.stage.placed.cursor
  exact concludes _ state ⟨at_, current⟩

/-- No two blocks that are owed an end are the same. -/
theorem Proceeds.nodup {Result : Type} {cursor : Bool → Prop}
    {emission : Emission Result} {after : Result → EmitState → Prop}
    {start : BlockId}
    (proceeds : owed.Nodup → Proceeds scene
      (fun state => At scene origin cursor owed known state ∧
        state.builder.block = some start) emission after) :
    Proceeds scene
      (fun state => At scene origin cursor owed known state ∧
        state.builder.block = some start) emission after :=
  fun state both => proceeds both.1.stage.owes.nodup state both

/-- What leads to the end of a match where no arm is taken. -/
theorem stillOwed_start {start noMatch : BlockId} {placed : List PlacedArm}
    (apart : ∀ entry ∈ placed, block ∉ entry.blocks) :
    stillOwed block start [firstArmTest noMatch placed] [] ++
      lastTests noMatch block placed =
    if noMatch = block then
      [(placed.getLast?.map PlacedArm.testBlock).getD start]
    else [] := by
  cases placed with
  | nil =>
      by_cases same : noMatch = block
      · simp [stillOwed, lastTests, firstArmTest, same]
      · simp [stillOwed, lastTests, firstArmTest, same, Ne.symm same]
  | cons entry rest =>
      have notTest : block ≠ entry.testBlock := by
        rintro rfl
        simp [PlacedArm.blocks] at apart
      simp [stillOwed, lastTests, firstArmTest, notTest,
        List.getLast?_eq_some_getLast]

/-- A match starts with a branch to the first of its tests. -/
def Started (start noMatch : BlockId) (placed : List PlacedArm)
    (owed : List BlockId) (state : EmitState) : Prop :=
  state.builder.module.terminator? start =
      some (.branch (firstArmTest noMatch placed)) ∧
    (start :: (placed.flatMap PlacedArm.blocks ++ owed)).Nodup

instance {start noMatch : BlockId} {placed : List PlacedArm} :
    Enduring (Started start noMatch placed owed) := by
  unfold Started
  infer_instance

/-- The arms of a match, from the block that leads to the first test. -/
theorem proceeds_emitMatchTests [Enduring known]
    (advances : ∀ form, Advances scene (emit form)) (scrutinee tag : Value)
    {start noMatch : BlockId} (placed : List PlacedArm)
    (ahead : block ∈ owed)
    (unmatched : (if noMatch = block then
      [(placed.getLast?.map PlacedArm.testBlock).getD start]
      else []) = others)
    (allowed : ∀ state, known state → ArmsAllowed scene origin placed state ∧
      IsTarget scene origin noMatch state ∧
      IsTarget scene origin block state ∧
      ∀ entry ∈ result, state.table.Has entry.type) :
    Proceeds scene
      (fun state => Writing scene origin
          (placed.flatMap PlacedArm.blocks ++ owed) (fun state =>
            known state ∧ Gathers result block [] [] [] state) state ∧
        state.builder.block = some start)
      (do
        Builder.branch (firstArmTest noMatch placed)
        emitMatchCases emit result scrutinee tag noMatch block placed)
      (Gathering scene origin owed (fun state =>
        (known state ∧ Started start noMatch placed owed state) ∧
          ArmsEmitted scene emit scrutinee tag noMatch block placed state)
        result block [] others []) := by
  rintro state ⟨writing, current⟩
  have apart : ∀ entry ∈ placed, block ∉ entry.blocks := by
    intro entry member inside
    exact (List.nodup_append.mp writing.stage.owes.nodup).2.2 block
      (List.mem_flatMap.mpr ⟨entry, member, inside⟩) block ahead rfl
  have leads : ∀ state, known state →
      IsTarget scene origin (firstArmTest noMatch placed) state := by
    intro state holds
    obtain ⟨arms, noMatchAllowed, -⟩ := allowed state holds
    exact arms.firstArmTest noMatchAllowed
  have gathered := proceeds_branchGathering leads state ⟨writing, current⟩
  have started := (Proceeds.lead leads state
    ⟨writing.imp And.left, current⟩).holds.2
  rw [← unmatched, ← stillOwed_start apart]
  refine proceeds_emitMatchCases advances scrutinee tag placed apart
    (fun state holds => allowed state holds.1) _ ⟨gathered.stage,
      gathered.cursor, ⟨gathered.holds.1, started⟩, gathered.holds.2⟩

/-- The end of a match is the current block, and all its edges are made. -/
structure Arrived (scene : Scene) (origin : EmitState) (owed : List BlockId)
    (known : EmitState → Prop) (result : Option MatchResult)
    (block : BlockId) (edges : List (EdgeSource × String))
    (state : EmitState) : Prop where
  writing : Writing scene origin owed (fun state => known state ∧
    IsTarget scene origin block state ∧
    origin.builder.module.block? block = none) state
  current : state.builder.block = some block
  notFirst : block.index ≠ 0
  empty : ∃ name, state.builder.module.block? block = some ⟨name, []⟩
  gathers : ∃ sources, Gathers result block sources [] edges state

theorem Arrived.imp {other : EmitState → Prop} {state : EmitState}
    (arrived : Arrived scene origin owed known result block edges state)
    (implies : known state → other state) :
    Arrived scene origin owed other result block edges state :=
  ⟨arrived.writing.imp fun holds => ⟨implies holds.1, holds.2⟩,
    arrived.current, arrived.notFirst, arrived.empty, arrived.gathers⟩

/-- An undefined value is made without an instruction. -/
theorem still_constantUndef {builder : Builder} (sound : builder.module.Sound)
    (type : TypeId) :
    builder.module.Still (Builder.constantUndef type builder).2.module := by
  have lower := Module.runs_lower sound type
  have push (content : Content) :=
    (Module.runs_pushValue lower.holds content type).follows
  have both (content : Content) := lower.follows.trans (push content)
  unfold Builder.constantUndef Builder.constant
  rw [stateM_bind_apply]
  generalize (Builder.onModule (Module.lower type) builder).1 = irType
  split
  · exact both (.firstClass (.undef irType))
  · split
    · exact both .nothing
    · exact both (.token (.undef irType))

variable {new : List (EdgeSource × String)}

theorem Proceeds.gathered {Result : Type} {emission : Emission Result}
    {after : Result → EmitState → Prop}
    (proceeds : ∀ more, Proceeds scene
      (Leaving scene origin owed fun state => known state ∧
        Gathers result block (sources ++ more) others (edges ++ new) state)
      emission after) :
    Proceeds scene
      (Gathering scene origin owed known result block sources others edges
        new) emission after :=
  fun state ⟨more, leaving⟩ => proceeds more state leaving

/-- The default arm is the last to lead to the end. -/
theorem proceeds_emitDefault [Enduring known]
    (advances : ∀ form, Advances scene (emit form)) (arm : Arm)
    {defaultBlock : BlockId}
    (allowed : ∀ state, known state →
      (IsTarget scene origin block state ∧
        origin.builder.module.block? block = none) ∧
      ∀ entry ∈ result, state.table.Has entry.type) :
    Proceeds scene
      (Gathering scene origin (defaultBlock :: block :: owed) known result
        block [] [] [] new)
      (do
        Builder.positionAtEnd defaultBlock
        let last ← emitMatchArm emit result block arm
        Builder.positionAtEnd block
        pure (block, new ++ last))
      fun outcome => Arrived scene origin owed (fun state => known state ∧
          outcome.1 = block ∧
          HasBody scene (emitSequence emit arm.body) defaultBlock block
            state.builder.module)
        result outcome.1 outcome.2 := by
  refine .gathered fun more => ?_
  refine .entering fun before enters => ?_
  refine .bind (proceeds_emitMatchArm advances arm enters (pure ())
    fun state holds => ⟨(allowed state holds).1.1, (allowed state holds).2⟩)
    fun last => ?_
  refine .gathered fun evenMore => ?_
  refine .bind (proceeds_enter block) fun _ => ?_
  refine .pure ?_
  rintro state ⟨writing, ⟨current, empty⟩, notFirst⟩
  rw [List.append_assoc [] new] at writing
  exact ⟨writing.imp fun holds => ⟨⟨holds.1.1, rfl, holds.1.2⟩,
    (allowed state holds.1.1).1⟩, current, notFirst, empty, _,
    writing.holds.2⟩

/-- Where there is no default, an undefined value comes from the last test. -/
theorem proceeds_emitUnmatched [Enduring known] {unmatched : BlockId}
    (allowed : ∀ state, known state →
      (IsTarget scene origin block state ∧
        origin.builder.module.block? block = none) ∧
      ∀ entry ∈ result, state.table.Has entry.type) :
    Proceeds scene
      (Gathering scene origin (block :: owed) known result block []
        [unmatched] [] new)
      (do
        Builder.positionAtEnd block
        match result, some unmatched with
        | some result, some unmatched =>
            let undefined ← Builder.constantUndef result.type
            let name := (← module).blockName unmatched
            pure (block, new ++ [(.value undefined, name)])
        | _, _ => pure (block, new))
      fun outcome => Arrived scene origin owed (fun state => known state ∧
        outcome.1 = block) result outcome.1 outcome.2 := by
  refine .gathered fun more => ?_
  refine .bind (proceeds_enter block) fun _ => ?_
  cases result with
  | none =>
      refine .pure ?_
      rintro state ⟨writing, ⟨current, empty⟩, notFirst⟩
      obtain ⟨known, aside, covers, -, values⟩ := writing.holds.2
      refine ⟨writing.imp fun holds => ⟨⟨holds.1, rfl⟩,
        (allowed state holds.1).1⟩, current, notFirst, empty,
        [] ++ more ++ [unmatched], known, aside, ?_, nofun, values⟩
      rw [List.append_nil]
      exact covers
  | some entry =>
      rintro state ⟨writing, ⟨current, empty⟩, notFirst⟩
      have still := still_constantUndef writing.stage.placed.sound entry.type
      obtain ⟨later, sameCursor⟩ := Proceeds.quietAt
        (@emits_constantUndef scene entry.type)
        (fun state holds => (allowed state holds.1).2 entry rfl) state
        ⟨writing, current⟩
      refine ⟨later.imp fun holds => ⟨⟨holds.1.1, rfl⟩,
        (allowed _ holds.1.1).1⟩, sameCursor, notFirst, ?_, _,
        Gathers.withEdges later.holds.1.2 (fun _ => rfl) ?_⟩
      · obtain ⟨name, found⟩ := empty
        exact ⟨name, (still.block? block).trans found⟩
      · intro edge member
        cases List.mem_singleton.mp member
        exact ⟨_, rfl, later.holds.2.1⟩

theorem proceeds_emitMatchBlocks [Enduring known]
    (advances : ∀ form, Advances scene (emit form)) (scrutinee tag : Value)
    (arms : List TaggedArm) (default : Option Arm) {start : BlockId}
    (allowed : ∀ state, known state →
      (∀ tagged ∈ arms, tagged.arm.Known state.table) ∧
      ∀ entry ∈ result, state.table.Has entry.type) :
    Proceeds scene
      (fun state => Writing scene origin owed known state ∧
        state.builder.block = some start)
      (emitMatchBlocks emit result scrutinee tag arms default)
      fun outcome => Arrived scene origin owed (fun state => known state ∧
          Dispatches scene start tag.operand 32
            (arms.map (matchArm emit scrutinee))
            (default.map fun arm => emitSequence emit arm.body) outcome.1
            state.builder.module) result outcome.1 outcome.2 := by
  unfold emitMatchBlocks
  refine .bind ((Proceeds.quietly emits_freshId).staying fun _ _ => rfl)
    fun id => ?_
  refine .bind ((proceeds_placeArms arms id fun state holds =>
    (allowed state holds.1).1).staying (stays_placeArms arms id))
    fun placed => ?_
  have routes : (placed.map (PlacedArm.emitted emit scrutinee)).map Prod.fst =
      placed.map PlacedArm.route := by
    rw [List.map_map]
    rfl
  have blocks : (placed.map PlacedArm.route).flatMap Route.blocks =
      placed.flatMap PlacedArm.blocks := by
    rw [List.flatMap_map]
    rfl
  have numbered (listed : placed.map PlacedArm.tagged = arms) :
      ((placed.map (PlacedArm.emitted emit scrutinee)).map fun entry =>
        (entry.1.number, entry.2)) = arms.map (matchArm emit scrutinee) := by
    rw [← listed, List.map_map, List.map_map]
    rfl
  have emitted {endBlock : BlockId} {module : Module}
      (bodies : ∀ entry ∈ placed, HasBody scene
        (entry.emitted emit scrutinee).2 entry.bodyBlock endBlock module) :
      ∀ entry ∈ placed.map (PlacedArm.emitted emit scrutinee),
        HasBody scene entry.2 entry.1.bodyBlock endBlock module :=
    List.forall_mem_map.mpr bodies
  refine .look (fun _ => rfl) fun found => ?_
  cases default with
  | some arm =>
      refine Proceeds.given ?_ fun state both => both.1
      refine .bind ((Proceeds.append _ (named (by decide) id)).staying
        fun _ _ => rfl) fun defaultBlock => ?_
      rw [List.append_cons]
      refine .bind (proceeds_appendEnd _ (named (by decide) id) result start)
        fun endBlock => ?_
      rw [List.append_assoc, ← bind_assoc]
      refine .nodup fun nodup => ?_
      have different : defaultBlock ≠ endBlock := by
        rintro rfl
        simp [List.nodup_append] at nodup
      refine .bind (proceeds_emitMatchTests advances scrutinee tag placed
        (.tail _ (.head owed)) (if_neg different) ?_) fun edges => ?_
      · intro state holds
        exact ⟨holds.1.1.2, holds.1.2, holds.2.1,
          (allowed state holds.1.1.1.1.1).2⟩
      refine (proceeds_emitDefault advances arm fun state holds =>
        ⟨holds.1.1.2, (allowed state holds.1.1.1.1.1.1.1).2⟩).weaken
        fun _ _ arrived => arrived.imp ?_
      rintro ⟨holds, same, defaults⟩
      obtain ⟨⟨⟨⟨⟨⟨⟨holds, -⟩, listed⟩, -⟩, -⟩, -⟩, starts, distinct⟩, chains, bodies⟩ :=
        holds
      rw [firstArmTest_eq] at starts
      rw [same]
      refine ⟨holds, placed.map (PlacedArm.emitted emit scrutinee),
        some (defaultBlock, emitSequence emit arm.body), numbered listed, rfl,
        ?_, ?_, emitted bodies, ?_, ?_⟩
      · rw [routes]
        exact starts
      · rw [routes]
        exact chains
      · rintro _ ⟨⟩
        exact defaults
      · rw [routes, blocks]
        refine distinct.sublist (.cons_cons _ ?_)
        simp
  | none =>
      obtain rfl | other := eq_or_ne found (some start)
      · refine Proceeds.given ?_ fun state both => both.1
        refine .bind (proceeds_appendEnd _ (named (by decide) id) result
          start) fun endBlock => ?_
        rw [← bind_assoc, Option.or_some]
        refine .bind (proceeds_emitMatchTests advances scrutinee tag placed
          (.head owed) (if_pos rfl) ?_) fun edges => ?_
        · intro state holds
          exact ⟨holds.1.2, holds.2.1, holds.2.1,
            (allowed state holds.1.1.1.1).2⟩
        refine (proceeds_emitUnmatched fun state holds =>
          ⟨holds.1.1.2, (allowed state holds.1.1.1.1.1.1).2⟩).weaken
          fun _ _ arrived => arrived.imp ?_
        rintro ⟨holds, same⟩
        obtain ⟨⟨⟨⟨⟨⟨holds, -⟩, listed⟩, -⟩, -⟩, starts, distinct⟩, chains,
          bodies⟩ := holds
        rw [firstArmTest_eq] at starts
        rw [same]
        refine ⟨holds, placed.map (PlacedArm.emitted emit scrutinee), none,
          numbered listed, rfl, ?_, ?_, emitted bodies, nofun, ?_⟩
        · rw [routes]
          exact starts
        · rw [routes]
          exact chains
        · rw [routes, blocks]
          refine distinct.sublist (.cons_cons _ ?_)
          simp
      · rintro state ⟨⟨-, current⟩, looked⟩
        exact absurd (looked.symm.trans current) other

/-! ## The result of a match -/

/-- The phi stands at the end of a match and waits for its edges. -/
def PlacedResult (scene : Scene) (origin : EmitState) (owed : List BlockId)
    (known : EmitState → Prop) (entry : MatchResult) (block : BlockId)
    (edges : List (EdgeSource × String)) (phi : Value) (later : EmitState) :
    Prop :=
  ∃ state, Arrived scene origin owed known (some entry) block edges state ∧
    later.Ready scene ∧ state.Quiet later ∧
    Pends state block entry.destination entry.type edges later phi

theorem proceeds_placeResult [Lasting known] (entry : MatchResult)
    (hasResult : ∀ state, known state → state.table.Has entry.type) :
    Proceeds scene
      (Arrived scene origin owed known (some entry) block edges)
      (placePhi block entry.destination entry.type edges)
      (PlacedResult scene origin owed known entry block edges) := by
  intro state arrived
  obtain ⟨sources, gathers⟩ := arrived.gathers
  have typed : ∀ edge ∈ edges, ∀ value, edge.1 = .value value →
      value.Typed state.table := by
    intro edge member value same
    obtain ⟨other, otherSame, typed⟩ := gathers.values edge member
    cases same.symm.trans otherSame
    exact typed
  obtain ⟨ready, quiet, pends⟩ := preserves_placePhi arrived.writing.ready
    arrived.current (hasResult state arrived.writing.holds.1) typed
    entry.destination
  exact ⟨state, arrived, ready, quiet, pends⟩

/-- The phi waits for one edge from each block that leads to its own. -/
theorem PlacedResult.settled {entry : MatchResult} {phi : Value}
    {later : EmitState}
    (hasResult : ∀ state, known state → state.table.Has entry.type)
    (placed : PlacedResult scene origin owed known entry block edges phi
      later) : later.Settled scene.home (block, entry.type) := by
  obtain ⟨state, arrived, ready, quiet, pends⟩ := placed
  obtain ⟨sources, gathers⟩ := arrived.gathers
  have closed := arrived.writing.stage.closed
  have has := hasResult state arrived.writing.holds.1
  have kept := Lasting.mono closed quiet.precedes gathers
  obtain ⟨name, empty⟩ := arrived.empty
  refine ⟨kept.known, arrived.notFirst, has.mono quiet.grows, kept.aside, ?_⟩
  by_cases firstClass :
      (phiType later.builder.module entry.type).isFirstClass = true
  · refine .inr ⟨arrived.writing.holds.2.1.inside,
      ⟨entry.destination, entry.type, phi, edges⟩, ?_, rfl, ?_, ?_, ?_⟩
    · rw [pends.pendingPhis]
      exact List.mem_append_right _ (List.mem_singleton_self _)
    · have same : phiType later.builder.module entry.type =
          phiType state.builder.module entry.type :=
        lowered_eq closed quiet.grows has loweringLevels
      dsimp only
      rw [same] at firstClass ⊢
      obtain ⟨register, final, content, found⟩ :=
        pends.placed.leads firstClass name empty
      refine ⟨register, ?_, ?_⟩
      · rw [PendingPhi.register?, content]
      · exact ⟨_, _, found, rfl, rfl, rfl⟩
    · refine ⟨sources, ?_, kept.names rfl⟩
      rw [← List.append_nil sources]
      exact kept.covers
    · intro edge member
      obtain ⟨value, same, -⟩ := kept.values edge member
      exact ⟨value, same⟩
  · exact .inl fun isFirstClass => absurd isFirstClass firstClass

/-- From now on the match counts as emitted. -/
theorem EmitState.Stage.withMatchEnd {state : EmitState}
    {join : BlockId × TypeId} (stage : Stage scene origin owed state)
    (settled : state.Settled scene.home join)
    (fresh : origin.builder.module.block? join.1 = none) :
    Stage scene origin owed
      { state with matchEnds := state.matchEnds ++ [join] } := by
  have sound := stage.sound
  refine ⟨⟨sound.context, sound.layouts, sound.pending, sound.apart,
    sound.coroutine, sound.escapes, ?_⟩, stage.placed, stage.inside,
    stage.atEnd, ⟨⟨stage.precedes.module, ?_⟩, stage.precedes.escapes,
      stage.precedes.leads⟩, stage.works,
    ⟨stage.owes.nodup, stage.owes.mem_iff, stage.owes.empty⟩⟩
  · intro other member
    have settled : state.Settled scene.home other := by
      rcases List.mem_append.mp member with old | new
      · exact sound.matchEnds other old
      · cases List.mem_singleton.mp new
        exact settled
    exact ⟨settled.known, settled.notFirst, settled.has, settled.aside,
      settled.settled⟩
  · intro other member
    rcases List.mem_append.mp member with old | new
    · exact stage.precedes.matchEnds other old
    · cases List.mem_singleton.mp new
      exact .inr fresh

theorem proceeds_recordMatchEnd [Enduring known] (entry : MatchResult)
    {phi : Value} {built : Module → Prop}
    (hasResult : ∀ state, known state → state.table.Has entry.type ∧
      built state.builder.module) :
    Proceeds scene
      (PlacedResult scene origin owed known entry block edges phi)
      (modify fun state =>
        { state with
          matchEnds := state.matchEnds ++ [(block, entry.type)] } :
        Emission Unit)
      fun _ state => Writing scene origin owed (fun state =>
          built state.builder.module ∧
            phi.Typed state.table ∧ state.table.Has entry.type) state ∧
        state.builder.block = some block := by
  intro later placed
  have settled := placed.settled fun state holds => (hasResult state holds).1
  obtain ⟨state, arrived, ready, quiet, pends⟩ := placed
  have writing := arrived.writing.quiet ready quiet
  exact ⟨⟨writing.stage.withMatchEnd settled writing.holds.2.2, writing.cursor,
    (hasResult later writing.holds.1).2, pends.placed.gives.1, settled.has⟩,
    quiet.builder.block.trans arrived.current⟩

instance (layout : SumLayout) :
    Enduring fun state => layout.Known state.table :=
  ⟨fun _ continues known => known.mono continues.module.types⟩

/-- The layout of a sum, whose types are of the table. -/
theorem Concludes.sumLayout (sum : String)
    {next : SumLayout → Handler Unit}
    (rest : ∀ layout, Concludes scene origin owed
      (Writing scene origin owed fun state => known state ∧
        layout.Known state.table) (next layout)) :
    Concludes scene origin owed (Writing scene origin owed known)
      (do
        let layout ← orFail (.unknownLayout sum)
          ((← read).layouts.sums.find? sum)
        next layout) := by
  intro state writing
  have run : Concludes scene origin owed (Writing scene origin owed known)
      (orFail (.unknownLayout sum)
        (scene.environment.layouts.sums.find? sum) >>= next) := by
    refine .orFail_step _ fun layout found => ?_
    refine (rest layout).given fun state writing => ?_
    exact ⟨writing.stage, writing.cursor, writing.holds,
      writing.ready.sumLayout found⟩
  exact run state writing

theorem orderly_emitMatch (advances : ∀ form, Advances scene (emit form))
    (items : List Form) : Orderly scene (emitMatch emit items) := by
  intro origin owed
  unfold emitMatch
  refine .quietly (handles_readResult items) fun ⟨result, rest⟩ => ?_
  refine .parse fun sum _ => ?_
  refine .orFail_step _ fun scrutineeForm _ => ?_
  refine .sumLayout sum fun layout => ?_
  refine .quiet (handles_readCases layout sum _) (fun _ holds => holds.2)
    fun arms => ?_
  refine .quietly (handles_readDefault? _) fun default => ?_
  refine .quiet (handles_sumOperand scrutineeForm layout _)
    (fun _ holds => holds.1.1.2) fun scrutinee => ?_
  refine .step (.quietly (emits_fieldPointer scrutinee 0 _))
    fun address => ?_
  refine .orFail_step _ fun tagAddress _ => ?_
  refine .step (.quietly (emits_load tagAddress _)) fun loaded => ?_
  refine .orFail_step _ fun tag _ => ?_
  refine .somewhere fun start => .step (proceeds_emitMatchBlocks advances
    scrutinee tag arms default ?_) fun ⟨endBlock, incoming⟩ => ?_
  · exact fun state holds => ⟨holds.1.1.1.1.2, holds.1.1.1.1.1.1.2⟩
  cases result with
  | none => exact fun _ arrived => arrived.writing.stage
  | some entry =>
      refine .step (proceeds_placeResult entry fun state holds =>
        holds.1.1.1.1.1.1.1.2 entry rfl) fun phi => ?_
      refine .step (proceeds_recordMatchEnd entry fun state holds =>
        ⟨holds.1.1.1.1.1.1.1.2 entry rfl, holds.2⟩) fun _ => ?_
      exact (Concludes.ofHandles
        (handles_define entry.destination phi entry.type)
        fun _ holds => holds.2).given fun _ both => both.1

end FormCompiler
