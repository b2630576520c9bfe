import FormCompiler.Proofs.Stages

/-!
# Constructs step by step

The emission of a construct is followed from stage to stage.  At each of them
it is known which blocks are owed an end, whether the current block is open,
and some facts about blocks, types and values that stay true.
-/

namespace FormCompiler

open Ir

open EmitState (Stage IsTarget)

/-! ## Facts that stay true -/

/-- Facts that stay true whatever is emitted. -/
class Enduring (fact : EmitState → Prop) : Prop where
  mono : ∀ {state later : EmitState}, state.table.Closed →
    state.Continues later → fact state → fact later

/-- Facts that stay true when a construct is emitted as a whole. -/
class Lasting (fact : EmitState → Prop) : Prop where
  mono : ∀ {state later : EmitState}, state.table.Closed →
    state.Precedes later → fact state → fact later

instance {fact : EmitState → Prop} [Enduring fact] : Lasting fact :=
  ⟨fun closed precedes holds =>
    Enduring.mono closed precedes.toContinues holds⟩

instance (fact : Prop) : Enduring fun _ => fact := ⟨fun _ _ holds => holds⟩

instance (type : TypeId) : Enduring fun state => state.table.Has type :=
  ⟨fun _ continues has => has.mono continues.module.types⟩

instance (value : Value) : Enduring fun state => value.Typed state.table :=
  ⟨fun closed continues typed =>
    typed.mono closed continues.module.types⟩

instance (type : TypeId) (kind : TypeKind) : Enduring fun state =>
    state.table.Has type ∧ state.table.kind type = kind :=
  ⟨fun _ continues both => ⟨both.1.mono continues.module.types,
    (both.1.kind_eq continues.module.types).trans both.2⟩⟩

instance (scene : Scene) (origin : EmitState) (block : BlockId) :
    Enduring (IsTarget scene origin block) :=
  ⟨fun _ continues target => target.mono continues⟩

instance {first second : EmitState → Prop} [Enduring first]
    [Enduring second] : Enduring fun state => first state ∧ second state :=
  ⟨fun closed continues both => ⟨Enduring.mono closed continues both.1,
    Enduring.mono closed continues both.2⟩⟩

instance {first second : EmitState → Prop} [Lasting first]
    [Lasting second] : Lasting fun state => first state ∧ second state :=
  ⟨fun closed precedes both => ⟨Lasting.mono closed precedes both.1,
    Lasting.mono closed precedes both.2⟩⟩

instance {Item : Type} {facts : Item → EmitState → Prop}
    [∀ item, Enduring (facts item)] :
    Enduring fun state => ∀ item, facts item state :=
  ⟨fun closed continues all item =>
    Enduring.mono closed continues (all item)⟩

instance {premise : Prop} {fact : EmitState → Prop} [Enduring fact] :
    Enduring fun state => premise → fact state :=
  ⟨fun closed continues holds condition =>
    Enduring.mono closed continues (holds condition)⟩

/-! ## Stages with what is known -/

/-- A stage, whether the current block is ended, and what is known. -/
structure At (scene : Scene) (origin : EmitState) (cursor : Bool → Prop)
    (owed : List BlockId) (known : EmitState → Prop) (state : EmitState) :
    Prop where
  stage : Stage scene origin owed state
  cursor : cursor state.builder.isTerminated
  holds : known state

/-- The current block is open. -/
abbrev Writing (scene : Scene) (origin : EmitState) :=
  At scene origin (· = false)

/-- The current block is ended. -/
abbrev Leaving (scene : Scene) (origin : EmitState) :=
  At scene origin (· = true)

/-- The current block may be ended or not. -/
abbrev Passing (scene : Scene) (origin : EmitState) :=
  At scene origin fun _ => True

variable {scene : Scene} {origin : EmitState} {cursor : Bool → Prop}
  {owed : List BlockId} {known : EmitState → Prop} {Result Other : Type}

/-- An emission leads from states with a property to states with another
one. -/
def Proceeds (scene : Scene) (before : EmitState → Prop)
    (emission : Emission Result) (after : Result → EmitState → Prop) : Prop :=
  ∀ state, before state → after (emission scene.environment state).1
    (emission scene.environment state).2

namespace Proceeds

variable {before : EmitState → Prop} {emission : Emission Result}
  {next : Result → Emission Other} {middle : Result → EmitState → Prop}
  {after : Other → EmitState → Prop}

theorem bind (first : Proceeds scene before emission middle)
    (rest : ∀ result, Proceeds scene (middle result) (next result) after) :
    Proceeds scene before (emission >>= next) after :=
  fun state holds => rest _ _ (first state holds)

theorem given {enough : EmitState → Prop}
    (proceeds : Proceeds scene enough emission middle)
    (implies : ∀ state, before state → enough state) :
    Proceeds scene before emission middle :=
  fun state holds => proceeds state (implies state holds)

theorem weaken {other : Result → EmitState → Prop}
    (proceeds : Proceeds scene before emission middle)
    (implies : ∀ result state, middle result state → other result state) :
    Proceeds scene before emission other :=
  fun state holds => implies _ _ (proceeds state holds)

theorem pure {result : Result}
    (implies : ∀ state, before state → middle result state) :
    Proceeds scene before (Pure.pure result) middle :=
  implies

/-- Looking at the state first. -/
theorem look {Part : Type} {look : Emission Part} {seen : EmitState → Part}
    {next : Part → Emission Other}
    (looks : ∀ state, look scene.environment state = (seen state, state))
    (rest : ∀ part, Proceeds scene
      (fun state => before state ∧ seen state = part) (next part) after) :
    Proceeds scene before (look >>= next) after := by
  intro state holds
  have run : (look >>= next) scene.environment state =
      next (seen state) scene.environment state := by
    show next (look scene.environment state).1 scene.environment
      (look scene.environment state).2 = _
    rw [looks]
  rw [run]
  exact rest (seen state) state ⟨holds, rfl⟩

end Proceeds

/-! ## Steps -/

theorem At.forget {state : EmitState}
    (at_ : At scene origin cursor owed known state) :
    Passing scene origin owed known state :=
  ⟨at_.stage, trivial, at_.holds⟩

theorem At.ready {state : EmitState}
    (writing : Writing scene origin owed known state) :
    state.Ready scene := writing.stage.ready writing.cursor

/-- Facts that follow from what is known. -/
theorem At.imp {other : EmitState → Prop} {state : EmitState}
    (at_ : At scene origin cursor owed known state)
    (implies : known state → other state) :
    At scene origin cursor owed other state :=
  ⟨at_.stage, at_.cursor, implies at_.holds⟩

/-- The order in which blocks are owed an end does not matter. -/
theorem At.perm {other : List BlockId} {state : EmitState}
    (at_ : At scene origin cursor owed known state)
    (perm : owed.Perm other) : At scene origin cursor other known state :=
  ⟨at_.stage.perm perm, at_.cursor, at_.holds⟩

theorem At.quiet [Lasting known] {state later : EmitState}
    (writing : Writing scene origin owed known state)
    (ready : later.Ready scene) (quiet : state.Quiet later) :
    Writing scene origin owed known later :=
  ⟨writing.stage.quiet ready quiet,
    (writing.stage.placed.isTerminated_eq quiet.builder).trans writing.cursor,
    Lasting.mono writing.stage.closed quiet.precedes writing.holds⟩

/-- An emission that is quiet from certain states. -/
theorem Proceeds.preserves [Lasting known] {emission : Emission Result}
    {good : EmitState → EmitState → Result → Prop}
    {after : Result → EmitState → Prop}
    (preserves : ∀ state, Writing scene origin owed known state →
      Preserves (EmitState.Ready scene) EmitState.Quiet state
        (emission scene.environment) (good state))
    (implies : ∀ state later result,
      Writing scene origin owed known state → state.Quiet later →
      Stage scene origin owed later → good state later result →
        after result later) :
    Proceeds scene (Writing scene origin owed known) emission
      fun result => Writing scene origin owed fun state =>
        known state ∧ after result state := by
  intro state writing
  obtain ⟨ready, quiet, good⟩ := preserves state writing
  have later := writing.quiet ready quiet
  exact ⟨later.stage, later.cursor, later.holds,
    implies state _ _ writing quiet later.stage good⟩

/-- A quiet emission. -/
theorem Proceeds.quiet [Lasting known] {enough : TypeTable → Prop}
    {gives : TypeTable → Result → Prop} {emission : Emission Result}
    (emits : Emits scene enough emission gives)
    (implies : ∀ state, known state → enough state.table) :
    Proceeds scene (Writing scene origin owed known) emission
      fun result => Writing scene origin owed fun state =>
        known state ∧ gives state.table result :=
  .preserves
    (fun state writing =>
      emits state writing.ready (implies state writing.holds))
    fun _ _ _ _ _ _ good => good

/-- An emission that is quiet in any case. -/
theorem Proceeds.quietly [Lasting known]
    {gives : TypeTable → Result → Prop} {emission : Emission Result}
    (emits : Emits scene (fun _ => True) emission gives) :
    Proceeds scene (Writing scene origin owed known) emission
      fun result => Writing scene origin owed fun state =>
        known state ∧ gives state.table result :=
  .quiet emits fun _ _ => trivial

/-- A quiet emission stays in the current block. -/
theorem Proceeds.quietAt [Lasting known] {enough : TypeTable → Prop}
    {gives : TypeTable → Result → Prop} {emission : Emission Result}
    {block : BlockId} (emits : Emits scene enough emission gives)
    (implies : ∀ state, known state → enough state.table) :
    Proceeds scene
      (fun state => Writing scene origin owed known state ∧
        state.builder.block = some block) emission
      fun result state => Writing scene origin owed (fun state =>
          known state ∧ gives state.table result) state ∧
        state.builder.block = some block := by
  rintro state ⟨writing, cursor⟩
  have quiet := (emits state writing.ready
    (implies state writing.holds)).follows
  exact ⟨Proceeds.quiet emits implies state writing,
    quiet.builder.block.trans cursor⟩

/-- A new block. -/
theorem Proceeds.append [Lasting known] (front : List BlockId)
    {name : String} (named : nameBeforeNul name ≠ "") :
    Proceeds scene (Writing scene origin (front ++ owed) known)
      (liftM (Builder.appendBlock name) : Emission BlockId)
      fun added => Writing scene origin (front ++ added :: owed) fun state =>
        known state ∧ IsTarget scene origin added state := by
  intro state writing
  have appended := writing.ready.appended named
  have precedes := EmitState.precedes_appended appended
  have stage := writing.stage
  refine ⟨stage.appended appended,
    (appended.isTerminated_eq stage.placed).trans writing.cursor,
    Lasting.mono stage.closed precedes writing.holds, ?_⟩
  exact stage.fresh (appended.inside.trans stage.inside) appended.missing
    appended.known rfl

/-- The end of the current block. -/
theorem At.ended [Enduring known] {state : EmitState}
    (writing : Writing scene origin owed known state) {builder : Builder}
    {targets : List BlockId} (ended : state.builder.Ended targets builder)
    (allowed : ∀ target ∈ targets, IsTarget scene origin target state) :
    Leaving scene origin owed known { state with builder } := by
  obtain ⟨stage, isTerminated⟩ := writing.stage.ended ended allowed
  exact ⟨stage, isTerminated, Enduring.mono writing.stage.closed
    (EmitState.continues_ended ended) writing.holds⟩

/-- Targets are blocks of the current function. -/
theorem At.targets {state : EmitState}
    (at_ : At scene origin cursor owed known state) {targets : List BlockId}
    (allowed : ∀ target ∈ targets, IsTarget scene origin target state) :
    ∀ target ∈ targets, target.function = state.builder.function ∧
      (state.builder.module.block? target).isSome = true := by
  intro target member
  have allowed := allowed target member
  exact ⟨allowed.inside.trans at_.stage.inside.symm, allowed.known⟩

/-- An instruction that ends the current block. -/
theorem Proceeds.effect [Enduring known] {operation : Operation}
    (ending : operation.isTerminator = true)
    (allowed : ∀ state, known state → ∀ target ∈ operation.targets,
      IsTarget scene origin target state)
    (returns : ∀ state, Writing scene origin owed known state →
      ∀ value, operation = .ret value →
        state.builder.currentFunction.Returns value) :
    Proceeds scene (Writing scene origin owed known)
      (liftM (Builder.insertEffect operation) : Emission Unit)
      fun _ => Leaving scene origin owed known := by
  intro state writing
  have allowed := allowed state writing.holds
  exact writing.ended (Builder.ended_insertEffect writing.ready.builder
    writing.cursor ending (writing.targets allowed)
    (returns state writing)) allowed

theorem Proceeds.branch [Enduring known] {target : BlockId}
    (allowed : ∀ state, known state → IsTarget scene origin target state) :
    Proceeds scene (Writing scene origin owed known)
      (liftM (Builder.branch target) : Emission Unit)
      fun _ => Leaving scene origin owed known := by
  refine .effect rfl ?_ (by rintro _ _ _ ⟨⟩)
  intro state holds other member
  cases List.mem_singleton.mp member
  exact allowed state holds

theorem Proceeds.branchIf [Enduring known] {condition : Value} {bits : Nat}
    (int : condition.operand.type = .int bits)
    {thenTarget elseTarget : BlockId}
    (allowed : ∀ state, known state → IsTarget scene origin thenTarget state ∧
      IsTarget scene origin elseTarget state) :
    Proceeds scene (Writing scene origin owed known)
      (liftM (Builder.branchIf condition thenTarget elseTarget) :
        Emission Unit) fun _ => Leaving scene origin owed known := by
  intro state writing
  have allowed : ∀ target ∈ [thenTarget, elseTarget],
      IsTarget scene origin target state := by
    simpa using allowed state writing.holds
  exact writing.ended (Builder.ended_branchIf writing.ready.builder
    writing.cursor int (writing.targets allowed)) allowed

/-- To the next block that is owed an end. -/
theorem Proceeds.position [Lasting known] (block : BlockId) :
    Proceeds scene (Leaving scene origin (block :: owed) known)
      (liftM (Builder.positionAtEnd block) : Emission Unit)
      fun _ => Writing scene origin owed known := by
  intro state leaving
  obtain ⟨stage, isOpen⟩ := leaving.stage.positioned leaving.cursor
  exact ⟨stage, isOpen, Lasting.mono leaving.stage.closed
    (EmitState.precedes_positioned state block) leaving.holds⟩

/-- Control may escape to targets. -/
theorem At.withEscapes [Enduring known] {state : EmitState}
    (at_ : At scene origin cursor owed known state)
    (context : FunctionContext) (unwindTargets : UnwindTargets)
    (names : context.Known state.table)
    (escapes : ∀ block,
      ({ state with context, unwindTargets } : EmitState).Escapes block →
        state.Escapes block ∨ IsTarget scene origin block state) :
    At scene origin cursor owed known
      { state with context, unwindTargets } :=
  ⟨at_.stage.withEscapes context unwindTargets names escapes, at_.cursor,
    Enduring.mono at_.stage.closed ⟨Module.Develops.refl _,
      fun _ member => .inl member⟩ at_.holds⟩

/-- The names in scope change. -/
theorem Proceeds.names [Enduring known]
    {change : FunctionContext → FunctionContext}
    (names : ∀ context table, context.Known table →
      (change context).Known table)
    (loops : ∀ context, ∀ targets ∈ (change context).loops,
      targets ∈ context.loops) :
    Proceeds scene (At scene origin cursor owed known) (modifyContext change)
      fun _ => At scene origin cursor owed known := by
  intro state at_
  apply at_.withEscapes (change state.context) state.unwindTargets
    (names _ _ at_.stage.sound.context)
  rintro block (⟨inner, member, leads⟩ | others)
  · exact .inl (.inl ⟨inner, loops _ inner member, leads⟩)
  · exact .inl (.inr others)

/-! ## Forms within forms -/

/-- An emission of a form: it starts at an open block and owes nothing in the
end that was not owed before. -/
def Advances (scene : Scene) (emission : Emission Unit) : Prop :=
  ∀ state owed, Writing scene state owed (fun _ => True) state →
    Stage scene state owed (emission scene.environment state).2

theorem Proceeds.form [Lasting known] {emission : Emission Unit}
    (advances : Advances scene emission) :
    Proceeds scene (Writing scene origin owed known) emission
      fun _ => Passing scene origin owed known := by
  intro state writing
  have stage := writing.stage
  have inner := advances state owed ⟨⟨stage.sound, stage.placed,
    stage.inside, stage.atEnd, EmitState.Precedes.refl state,
    Module.WorksIn.refl _ _, stage.owes⟩, writing.cursor, trivial⟩
  exact ⟨stage.nested inner, trivial,
    Lasting.mono stage.closed inner.precedes writing.holds⟩

theorem isTerminated_bind {next : Bool → Emission Result}
    (state : EmitState) :
    (isTerminated >>= next) scene.environment state =
      next state.builder.isTerminated scene.environment state := rfl

/-- Something that is done unless the current block is ended. -/
theorem Proceeds.unlessEnded {before : EmitState → Prop}
    {emission : Emission Unit}
    {after : EmitState → Prop}
    (ended : ∀ state, before state → state.builder.isTerminated = true →
      after state)
    (isOpen : Proceeds scene
      (fun state => before state ∧ state.builder.isTerminated = false)
      emission fun _ => after) :
    Proceeds scene before (do
      if ← isTerminated then Pure.pure () else emission) fun _ => after := by
  intro state holds
  rw [isTerminated_bind]
  split
  · next isEnded => exact ended state holds isEnded
  · next notEnded =>
      exact isOpen state ⟨holds, Bool.eq_false_iff.mpr notEnded⟩

theorem Proceeds.sequence [Lasting known] {emit : FormEmitter}
    (advances : ∀ form, Advances scene (emit form)) (forms : List Form) :
    Proceeds scene (Passing scene origin owed known)
      (emitSequence emit forms)
      fun _ => Passing scene origin owed known := by
  induction forms with
  | nil => exact .pure fun _ passing => passing
  | cons form forms ih =>
      refine .unlessEnded (fun _ passing _ => passing) ?_
      refine .bind ?_ fun _ => ih
      refine (Proceeds.form (advances form)).given ?_
      exact fun _ both => ⟨both.1.stage, both.2, both.1.holds⟩

theorem Proceeds.fallThrough [Enduring known] {next : BlockId}
    (allowed : ∀ state, known state → IsTarget scene origin next state) :
    Proceeds scene (Passing scene origin owed known)
      (FormCompiler.fallThrough next)
      fun _ => Leaving scene origin owed known := by
  refine .unlessEnded ?_ ?_
  · exact fun _ passing isEnded => ⟨passing.stage, isEnded, passing.holds⟩
  · exact (Proceeds.branch allowed).given
      fun _ both => ⟨both.1.stage, both.2, both.1.holds⟩

/-- A body in a block of its own. -/
theorem Proceeds.arm [Enduring known] {emit : FormEmitter}
    (advances : ∀ form, Advances scene (emit form)) (block : BlockId)
    (body : List Form) {next : BlockId}
    (allowed : ∀ state, known state → IsTarget scene origin next state) :
    Proceeds scene (Leaving scene origin (block :: owed) known)
      (emitArm emit block body next)
      fun _ => Leaving scene origin owed known := by
  refine .bind (.position block) fun _ => ?_
  refine .bind ((Proceeds.sequence advances body).given
    fun _ writing => writing.forget) fun _ => ?_
  exact .fallThrough allowed

/-! ## Handlers -/

/-- Whether a handler gives up or not, it owes nothing in the end that was not
owed before. -/
def Concludes (scene : Scene) (origin : EmitState) (owed : List BlockId)
    (before : EmitState → Prop) (handler : Handler Result) : Prop :=
  ∀ state, before state →
    Stage scene origin owed (handler.run scene.environment state).2

namespace Concludes

variable {before : EmitState → Prop} {handler : Handler Result}
  {next : Result → Handler Other} {Part : Type}

theorem given {enough : EmitState → Prop}
    (concludes : Concludes scene origin owed enough handler)
    (implies : ∀ state, before state → enough state) :
    Concludes scene origin owed before handler :=
  fun state holds => concludes state (implies state holds)

theorem throw (cause : ProblemCause) :
    Concludes scene origin owed (At scene origin cursor owed known)
      (throw cause : Handler Result) :=
  fun _ at_ => at_.stage

theorem pure (result : Result) :
    Concludes scene origin owed (At scene origin cursor owed known)
      (Pure.pure result : Handler Result) :=
  fun _ at_ => at_.stage

/-- What follows a failure is never done. -/
theorem throw_bind (cause : ProblemCause) :
    Concludes scene origin owed (At scene origin cursor owed known)
      ((MonadExcept.throw cause : Handler Result) >>= next) :=
  throw cause

/-- A quiet handler first. -/
theorem quiet [Lasting known] {enough : TypeTable → Prop}
    {gives : TypeTable → Result → Prop}
    (handles : Handles scene enough handler gives)
    (implies : ∀ state, known state → enough state.table)
    (rest : ∀ result, Concludes scene origin owed
      (Writing scene origin owed fun state =>
        known state ∧ gives state.table result) (next result)) :
    Concludes scene origin owed (Writing scene origin owed known)
      (handler >>= next) := by
  intro state writing
  have later := Proceeds.quiet handles implies state writing
  rw [ExceptT.run_bind, reader_bind_apply]
  generalize handler.run scene.environment state = done at later
  obtain ⟨outcome, middle⟩ := done
  cases outcome with
  | error cause => exact later.stage
  | ok result =>
      exact rest result _ (later.imp fun both => ⟨both.1, both.2 _ rfl⟩)

/-- A handler that is quiet in any case first. -/
theorem quietly [Lasting known] {gives : TypeTable → Result → Prop}
    (handles : Handles scene (fun _ => True) handler gives)
    (rest : ∀ result, Concludes scene origin owed
      (Writing scene origin owed fun state =>
        known state ∧ gives state.table result) (next result)) :
    Concludes scene origin owed (Writing scene origin owed known)
      (handler >>= next) :=
  .quiet handles (fun _ _ => trivial) rest

/-- An emission that does not fail first. -/
theorem step {emission : Emission Result}
    {middle : Result → EmitState → Prop}
    (proceeds : Proceeds scene before emission middle)
    (rest : ∀ result, Concludes scene origin owed (middle result)
      (next result)) :
    Concludes scene origin owed before
      ((liftM emission : Handler Result) >>= next) :=
  fun state holds => rest _ _ (proceeds state holds)

theorem last {emission : Emission Result}
    {after : Result → EmitState → Prop}
    (proceeds : Proceeds scene before emission fun result =>
      At scene origin cursor owed (after result)) :
    Concludes scene origin owed before (liftM emission : Handler Result) :=
  fun state holds => (proceeds state holds).stage

/-- A quiet handler that nothing follows. -/
theorem ofHandles [Lasting known] {enough : TypeTable → Prop}
    {gives : TypeTable → Result → Prop}
    (handles : Handles scene enough handler gives)
    (implies : ∀ state, known state → enough state.table) :
    Concludes scene origin owed (Writing scene origin owed known) handler :=
  fun state writing => (Proceeds.quiet handles implies state writing).stage

/-- Reading a part of the form first. -/
theorem parse {part : Except ProblemCause Part} {next : Part → Handler Result}
    (rest : ∀ item, part = .ok item → Concludes scene origin owed
      (At scene origin cursor owed known) (next item)) :
    Concludes scene origin owed (At scene origin cursor owed known)
      ((liftM part : Handler Part) >>= next) := by
  cases part with
  | error cause => exact throw cause
  | ok item => exact rest item rfl

theorem orFail_step (cause : ProblemCause) {found : Option Part}
    {next : Part → Handler Result}
    (rest : ∀ part, found = some part → Concludes scene origin owed
      (At scene origin cursor owed known) (next part)) :
    Concludes scene origin owed (At scene origin cursor owed known)
      (orFail cause found >>= next) := by
  cases found with
  | none => exact throw cause
  | some part => exact rest part rfl

theorem ite {condition : Prop} [Decidable condition]
    {other : Handler Result}
    (holds : condition → Concludes scene origin owed before handler)
    (fails : ¬condition → Concludes scene origin owed before other) :
    Concludes scene origin owed before
      (if condition then handler else other) := by
  split
  · next yes => exact holds yes
  · next no => exact fails no

/-- Looking at the state first. -/
theorem look {look : Emission Part} {seen : EmitState → Part}
    {next : Part → Handler Result}
    (looks : ∀ state, look scene.environment state = (seen state, state))
    (rest : ∀ part, Concludes scene origin owed
      (fun state => before state ∧ seen state = part) (next part)) :
    Concludes scene origin owed before
      ((liftM look : Handler Part) >>= next) := by
  have proceeds : Proceeds scene before look fun part state =>
      before state ∧ seen state = part := by
    intro state holds
    rw [looks]
    exact ⟨holds, rfl⟩
  exact step proceeds rest

end Concludes

/-- A handler of a form that is emitted as a whole. -/
def Orderly (scene : Scene) (handler : Handler Unit) : Prop :=
  ∀ origin owed, Concludes scene origin owed
    (Writing scene origin owed fun _ => True) handler

theorem IsQuiet.orderly {handler : Handler Unit} (quiet : IsQuiet handler)
    (scene : Scene) : Orderly scene handler :=
  fun _ _ => .ofHandles (quiet scene) fun _ _ => trivial

end FormCompiler
