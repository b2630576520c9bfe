import FormCompiler.Proofs.Addressing
import FormCompiler.Proofs.Constructs

/-!
# What instructions store

The stores of an instruction are followed one by one, in the order in which
they are built.  Everything else that an instruction with a result builds finds
places in memory or reads them, up to the end, where its name gets the result.
A name that is mutable has a slot then, and the result is what the slot holds
last.
-/

namespace FormCompiler.Ir.Builder

variable {builder later last : Builder} {new more : List (Operand × Operand)}

/-- The current block stores more than before, and no other block does. -/
def Writes (builder : Builder) (new : List (Operand × Operand))
    (later : Builder) : Prop :=
  ∀ id, later.module.stores id =
    builder.module.stores id ++ if builder.block = some id then new else []

theorem Writes.refl (builder : Builder) : builder.Writes [] builder := by
  intro id
  rw [ite_self, List.append_nil]

theorem Writes.trans (first : builder.Writes new later)
    (second : later.Writes more last) (cursor : later.block = builder.block) :
    builder.Writes (new ++ more) last := by
  intro id
  rw [second id, first id, cursor, List.append_assoc]
  split
  · rfl
  · rw [List.append_nil]

theorem Addresses.writes (addresses : builder.Addresses later) :
    builder.Writes [] later := by
  intro id
  rw [ite_self, List.append_nil, addresses.stores_eq id]

/-- A store goes behind all stores of its block: what it may be put ahead of
is the end of the block. -/
theorem Ready.stores_insertAt (ready : builder.Ready) {block : BlockId}
    (cursor : builder.block = some block) {inner : Block}
    (found : builder.module.block? block = some inner)
    {instruction : Instruction} {store : Operand × Operand}
    (stores : instruction.operation.stored? = some store) :
    (inner.insertAt (inner.instructions.length -
      if builder.beforeTerminator then 1 else 0) instruction).stores =
      inner.stores ++ [store] := by
  have mode := ready.mode
  rw [isTerminated, cursor] at mode
  simp only [isTerminatedBlock, found] at mode
  unfold Block.stores Block.insertAt
  rw [mode]
  cases terminated : inner.isTerminated with
  | false => simp [stores]
  | true =>
      have silent (operation : Operation)
          (ending : operation.isTerminator = true) :
          operation.stored? = none := by
        cases operation <;> first | rfl | cases ending
      obtain ⟨front, ending, split, ends⟩ :=
        Block.exists_append_of_isTerminated terminated
      simp [split, stores, silent _ ends]

theorem writes_store (ready : builder.Ready) (value : Value) {pointer : Value}
    (isPointer : pointer.operand.type = .pointer) :
    builder.Writes [(value.operand, pointer.operand)]
      (store value pointer builder).2 := by
  obtain ⟨index, cursor, known⟩ := ready.cursor
  obtain ⟨inner, found⟩ := Option.isSome_iff_exists.mp known
  have run : (store value pointer builder).2.module =
      (Module.insertInstruction ⟨builder.function, index⟩
        (fun block => block.instructions.length -
          if builder.beforeTerminator then 1 else 0)
        (.store value.operand pointer.operand) "" builder.module).2 := by
    unfold store
    rw [attached_bind cursor]
    dsimp only
    rw [if_pos (by rw [isPointer]; rfl)]
    rfl
  intro id
  unfold Module.stores
  rw [run, cursor]
  by_cases same : id = ⟨builder.function, index⟩
  · subst same
    obtain ⟨final, inserted⟩ := Module.block?_insertInstruction
      (fun block => block.instructions.length -
        if builder.beforeTerminator then 1 else 0)
      (.store value.operand pointer.operand) "" found
    rw [inserted, found, if_pos rfl]
    exact ready.stores_insertAt cursor found rfl
  · rw [Module.block?_insertInstruction_of_ne _ _ _ _ _ same, if_neg,
      List.append_nil]
    rintro ⟨⟩
    exact same rfl

end FormCompiler.Ir.Builder

namespace FormCompiler

open Ir

open EmitState (Looks)

variable {scene : Scene} {Result Other Part : Type}

/-! ## Handlers that succeed -/

/-- Where a handler succeeds, it leads from states with a property to states
with another one. -/
def Achieves (scene : Scene) (before : EmitState → Prop)
    (handler : Handler Result) (after : Result → EmitState → Prop) : Prop :=
  Proceeds scene before handler.run fun outcome state =>
    ∀ result, outcome = .ok result → after result state

namespace Achieves

variable {before : EmitState → Prop} {handler : Handler Result}
  {next : Result → Handler Other} {middle : Result → EmitState → Prop}
  {after : Other → EmitState → Prop}

theorem given {enough : EmitState → Prop}
    (achieves : Achieves scene enough handler middle)
    (implies : ∀ state, before state → enough state) :
    Achieves scene before handler middle :=
  Proceeds.given achieves implies

theorem weaken {other : Result → EmitState → Prop}
    (achieves : Achieves scene before handler middle)
    (implies : ∀ result state, middle result state → other result state) :
    Achieves scene before handler other :=
  fun state holds result ok => implies result _ (achieves state holds result ok)

theorem pure {result : Result}
    (implies : ∀ state, before state → middle result state) :
    Achieves scene before (Pure.pure result) middle := by
  rintro state holds _ ⟨⟩
  exact implies state holds

theorem throw (cause : ProblemCause) :
    Achieves scene before (throw cause : Handler Result) middle := by
  rintro state holds _ ⟨⟩

/-- What follows a failure is never done. -/
theorem throw_bind (cause : ProblemCause) :
    Achieves scene before
      ((MonadExcept.throw cause : Handler Result) >>= next) after :=
  throw cause

theorem bind (first : Achieves scene before handler middle)
    (rest : ∀ result, Achieves scene (middle result) (next result) after) :
    Achieves scene before (handler >>= next) after := by
  intro state holds
  have done := first state holds
  rw [ExceptT.run_bind, reader_bind_apply]
  generalize handler.run scene.environment state = run at done
  obtain ⟨outcome, later⟩ := run
  cases outcome with
  | error cause =>
      rintro _ ⟨⟩
  | ok result => exact rest result later (done result rfl)

theorem lift {emission : Emission Result}
    (proceeds : Proceeds scene before emission middle) :
    Achieves scene before (liftM emission : Handler Result) middle := by
  rintro state holds _ ⟨⟩
  exact proceeds state holds

theorem ite {condition : Prop} [Decidable condition] {other : Handler Result}
    (holds : condition → Achieves scene before handler middle)
    (fails : ¬condition → Achieves scene before other middle) :
    Achieves scene before (if condition then handler else other) middle := by
  split
  · next yes => exact holds yes
  · next no => exact fails no

/-- Whatever it is that the state has something to do with. -/
theorem any {Item : Type} {facts : Item → EmitState → Prop}
    (each : ∀ item, Achieves scene (facts item) handler middle) :
    Achieves scene (fun state => ∃ item, facts item state) handler middle := by
  rintro state ⟨item, fact⟩
  exact each item state fact

/-- Facts that are not about the state. -/
theorem assume {fact : Prop}
    (implies : ∀ state, before state → fact)
    (rest : fact → Achieves scene before handler middle) :
    Achieves scene before handler middle :=
  fun state holds => rest (implies state holds) state holds

/-- Reading a part of the form first. -/
theorem parse {part : Except ProblemCause Part} {next : Part → Handler Other}
    (rest : ∀ item, part = .ok item →
      Achieves scene before (next item) after) :
    Achieves scene before ((liftM part : Handler Part) >>= next) after := by
  cases part with
  | error cause => exact throw cause
  | ok item => exact rest item rfl

theorem orFail_step (cause : ProblemCause) {found : Option Part}
    {next : Part → Handler Other}
    (rest : ∀ part, found = some part →
      Achieves scene before (next part) after) :
    Achieves scene before (orFail cause found >>= next) after := by
  cases found with
  | none => exact throw cause
  | some part => exact rest part rfl

/-- Looking at the state first. -/
theorem look {look : Emission Part} {seen : EmitState → Part}
    {next : Part → Handler Other}
    (looks : ∀ state, look scene.environment state = (seen state, state))
    (rest : ∀ part, Achieves scene
      (fun state => before state ∧ seen state = part) (next part) after) :
    Achieves scene before ((liftM look : Handler Part) >>= next) after := by
  have proceeds : Proceeds scene before look fun part state =>
      before state ∧ seen state = part := by
    intro state holds
    rw [looks]
    exact ⟨holds, rfl⟩
  exact bind (lift proceeds) rest

end Achieves

/-! ## Facts about what was built -/

instance (operation : Operation) (operand : Operand) :
    Enduring fun state => state.builder.module.Produces operation operand := by
  refine ⟨fun _ continues produces => produces.of_blocks ?_⟩
  intro id block found
  obtain ⟨laterBlock, laterFound, develops⟩ :=
    continues.module.blocks id block found
  exact ⟨laterBlock, laterFound, develops.instructions⟩

instance (pointee : TypeId) (value : Value) :
    Enduring fun state => Builder.PointsTo pointee state.builder value :=
  ⟨fun closed continues points =>
    ⟨points.1.mono closed continues.module.types,
      (points.1.has.pointee_eq continues.module.types).trans points.2⟩⟩

instance (table : TypeTable) :
    Enduring fun state => table.Grows state.table :=
  ⟨fun _ continues grows => grows.trans continues.module.types⟩

instance {Item : Type} {facts : Item → EmitState → Prop}
    [∀ item, Enduring (facts item)] :
    Enduring fun state => ∃ item, facts item state := by
  refine ⟨fun closed continues holds => ?_⟩
  obtain ⟨item, fact⟩ := holds
  exact ⟨item, Enduring.mono closed continues fact⟩

theorem Ir.Builder.PointsTo.address {builder : Builder} {pointee : TypeId}
    {value : Value} (points : builder.PointsTo pointee value) :
    value.operand.type = .pointer := by
  refine (points.1.operand_pointer ?_).2
  rw [TypeTable.isPointer, points.2]
  rfl

/-! ## Traces -/

/-- How far an instruction has come since its origin: what names mean, what
was stored, and what is known. -/
structure Tracing (scene : Scene) (origin : EmitState)
    (context : FunctionContext) (stores : List (Operand × Operand))
    (known : EmitState → Prop) (state : EmitState) : Prop where
  ready : state.Ready scene
  quiet : origin.Quiet state
  context : state.context = context
  stores : origin.builder.Writes stores state.builder
  holds : known state

/-- A handler gives a result in the course of an instruction, where names mean
what they do in a context. -/
def Obtains (scene : Scene) (origin : EmitState) (context : FunctionContext)
    (handler : Handler Result) (result : Result) : Prop :=
  ∃ state, state.Ready scene ∧ origin.Quiet state ∧
    state.context = context ∧
    (handler.run scene.environment state).1 = .ok result

variable {origin : EmitState} {context : FunctionContext}
  {stores : List (Operand × Operand)} {known : EmitState → Prop}
  {next : Result → Handler Other} {after : Other → EmitState → Prop}

theorem Tracing.start {state : EmitState} (ready : state.Ready scene)
    (holds : known state) :
    Tracing scene state state.context [] known state :=
  ⟨ready, .refl state, rfl, .refl _, holds⟩

theorem Tracing.imp {other : EmitState → Prop} {state : EmitState}
    (tracing : Tracing scene origin context stores known state)
    (implies : known state → other state) :
    Tracing scene origin context stores other state :=
  ⟨tracing.ready, tracing.quiet, tracing.context, tracing.stores,
    implies tracing.holds⟩

/-- A quiet step that stores more. -/
theorem Tracing.step [Enduring known] {state later : EmitState}
    {more : List (Operand × Operand)}
    (tracing : Tracing scene origin context stores known state)
    (ready : later.Ready scene) (quiet : state.Quiet later)
    (writes : state.builder.Writes more later.builder) :
    Tracing scene origin later.context (stores ++ more) known later :=
  ⟨ready, tracing.quiet.trans quiet, rfl,
    tracing.stores.trans writes tracing.quiet.builder.block,
    Enduring.mono tracing.ready.builder.sound.types
      quiet.precedes.toContinues tracing.holds⟩

/-- A step that finds places in memory or reads them. -/
theorem Tracing.looked [Enduring known] {state later : EmitState}
    (tracing : Tracing scene origin context stores known state)
    (ready : later.Ready scene) (quiet : state.Quiet later)
    (looks : state.Looks scene.environment [] later) :
    Tracing scene origin context stores known later := by
  have step := tracing.step ready quiet looks.builder.writes
  rwa [looks.context_eq, tracing.context, List.append_nil] at step

/-- An emission that finds places in memory or reads them. -/
theorem Proceeds.looking [Enduring known] {emission : Emission Result}
    {gives : EmitState → Result → Prop} (looks : Does Looks [] emission)
    (preserves : ∀ state,
      Tracing scene origin context stores known state →
      Preserves (EmitState.Ready scene) EmitState.Quiet state
        (emission scene.environment) gives) :
    Proceeds scene (Tracing scene origin context stores known) emission
      fun result => Tracing scene origin context stores fun state =>
        known state ∧ gives state result := by
  intro state tracing
  obtain ⟨ready, quiet, good⟩ := preserves state tracing
  have later := tracing.looked ready quiet (looks scene.environment state)
  exact later.imp fun holds => ⟨holds, good⟩

/-- An operation of the builder. -/
theorem Proceeds.built [Enduring known] {operation : Build Result}
    {good : Builder → Result → Prop}
    (addresses : Relates Builder.Addresses operation)
    (builds : ∀ state : EmitState, state.Ready scene → known state →
      state.builder.Builds operation good) :
    Proceeds scene (Tracing scene origin context stores known)
      (onBuilder operation) fun result =>
        Tracing scene origin context stores fun state =>
          known state ∧ good state.builder result := by
  refine .looking (looks_onBuilder addresses) fun state tracing => ?_
  exact preserves_onBuilder tracing.ready
    (builds state tracing.ready tracing.holds)

/-- A store through a pointer. -/
theorem Proceeds.stored [Enduring known] {value pointer : Value}
    (address : pointer.operand.type = .pointer) :
    Proceeds scene (Tracing scene origin context stores known)
      (onBuilder (Builder.store value pointer)) fun _ =>
        Tracing scene origin context
          (stores ++ [(value.operand, pointer.operand)]) known := by
  intro state tracing
  have stores := preserves_onBuilder tracing.ready
    (Builder.builds_store tracing.ready.builder value pointer)
  have later := tracing.step stores.holds stores.follows
    (Builder.writes_store tracing.ready.builder value address)
  rwa [show (onBuilder (Builder.store value pointer) scene.environment
    state).2.context = context from tracing.context] at later

/-- Names change their meaning. -/
theorem Proceeds.renamed [Enduring known] {enough : TypeTable → Prop}
    {change : FunctionContext → FunctionContext}
    (emits : Emits scene enough (modifyContext change) fun _ _ => True)
    (implies : ∀ state, known state → enough state.table) :
    Proceeds scene (Tracing scene origin context stores known)
      (modifyContext change) fun _ =>
        Tracing scene origin (change context) stores known := by
  intro state tracing
  obtain ⟨ready, quiet, -⟩ :=
    emits state tracing.ready (implies state tracing.holds)
  have later := tracing.step ready quiet (.refl _)
  rw [List.append_nil] at later
  rwa [← tracing.context]

namespace Achieves

/-- A handler that finds places in memory or reads them first. -/
theorem looking [Enduring known] {handler : Handler Result}
    {gives : EmitState → Result → Prop} (looks : Tries Looks [] handler)
    (preserves : ∀ state,
      Tracing scene origin context stores known state →
      Preserves (EmitState.Ready scene) EmitState.Quiet state
        (handler.run scene.environment) fun later outcome =>
          ∀ result, outcome = .ok result → gives later result)
    (rest : ∀ result, Obtains scene origin context handler result →
      Achieves scene (Tracing scene origin context stores fun state =>
        known state ∧ gives state result) (next result) after) :
    Achieves scene (Tracing scene origin context stores known)
      (handler >>= next) after := by
  have first : Achieves scene (Tracing scene origin context stores known)
      handler fun result state => Obtains scene origin context handler result ∧
        Tracing scene origin context stores (fun state =>
          known state ∧ gives state result) state := by
    intro state tracing result ok
    obtain ⟨ready, quiet, good⟩ := preserves state tracing
    have later := tracing.looked ready quiet (looks scene.environment state)
    exact ⟨⟨state, tracing.ready, tracing.quiet, tracing.context, ok⟩,
      later.imp fun holds => ⟨holds, good result ok⟩⟩
  refine bind first fun result state both => ?_
  exact rest result both.1 state both.2

/-- A handler whose result is good in the type table by then. -/
theorem handled [Enduring known] {handler : Handler Result}
    {enough : TypeTable → Prop} {gives : TypeTable → Result → Prop}
    (looks : Tries Looks [] handler)
    (handles : Handles scene enough handler gives)
    (implies : ∀ state, known state → enough state.table)
    (rest : ∀ result, Obtains scene origin context handler result →
      Achieves scene (Tracing scene origin context stores fun state =>
        known state ∧ gives state.table result) (next result) after) :
    Achieves scene (Tracing scene origin context stores known)
      (handler >>= next) after := by
  refine looking looks (fun state tracing => ?_) rest
  exact handles state tracing.ready (implies state tracing.holds)

/-- An operation of the builder first. -/
theorem built [Enduring known] {operation : Build Result}
    {good : Builder → Result → Prop}
    (addresses : Relates Builder.Addresses operation)
    (builds : ∀ state : EmitState, state.Ready scene → known state →
      state.builder.Builds operation good)
    (rest : ∀ result, Achieves scene
      (Tracing scene origin context stores fun state =>
        known state ∧ good state.builder result) (next result) after) :
    Achieves scene (Tracing scene origin context stores known)
      ((liftM (onBuilder operation) : Handler Result) >>= next) after :=
  bind (lift (.built addresses builds)) rest

/-- An operation whose result must be there. -/
theorem found [Enduring known] {operation : Build (Option Result)}
    {good : Builder → Result → Prop} (cause : ProblemCause)
    (addresses : Relates Builder.Addresses operation)
    (builds : ∀ state : EmitState, state.Ready scene → known state →
      state.builder.Builds operation fun later found =>
        ∀ result ∈ found, good later result)
    (rest : ∀ result, Achieves scene
      (Tracing scene origin context stores fun state =>
        known state ∧ good state.builder result) (next result) after) :
    Achieves scene (Tracing scene origin context stores known)
      ((liftM (onBuilder operation) : Handler (Option Result)) >>=
        fun found => orFail cause found >>= next) after := by
  refine built addresses builds fun found => ?_
  refine orFail_step cause fun result same => ?_
  exact (rest result).given fun state tracing =>
    tracing.imp fun holds => ⟨holds.1, holds.2 result same⟩

/-- A store first. -/
theorem stored [Enduring known] {value pointer : Value}
    {next : Unit → Handler Other}
    (address : pointer.operand.type = .pointer)
    (rest : Achieves scene (Tracing scene origin context
      (stores ++ [(value.operand, pointer.operand)]) known) (next ()) after) :
    Achieves scene (Tracing scene origin context stores known)
      ((liftM (onBuilder (Builder.store value pointer)) : Handler Unit) >>=
        next) after :=
  bind (lift (.stored address)) fun _ => rest

end Achieves

/-! ## Names and slots -/

/-- A value is stored in the slot of a name, unless the name is not
mutable. -/
def EmitState.Retains (name : String) (value : Value) (state : EmitState)
    (kept : List (Operand × Operand)) : Prop :=
  (state.context.isMutable name = false ∧ kept = []) ∨
    ∃ slot, state.context.slot? name = some slot ∧
      state.table.pointee? slot.type = some value.type ∧
      kept = [(value.operand, slot.operand)]

/-- A name has the result of an instruction. -/
structure Defined (scene : Scene) (origin : EmitState)
    (stores : List (Operand × Operand)) (known : EmitState → Prop)
    (name : String) (value : Value) (state : EmitState) : Prop where
  ready : state.Ready scene
  quiet : origin.Quiet state
  holds : known state
  bound : state.context.value? name = some value
  stores : ∃ kept, origin.builder.Writes (stores ++ kept) state.builder ∧
    state.Retains name value kept

/-- The slot of a name, which is made where there is none. -/
theorem proceeds_ensureSlot [Enduring known] (name : String) {type : TypeId}
    (has : ∀ state, known state → state.table.Has type) :
    Proceeds scene (Tracing scene origin context stores known)
      (ensureSlot name type false) fun slot state => ∃ later,
        Tracing scene origin later stores (fun state => known state ∧
          slot.Typed state.table) state ∧
        later.slot? name = some slot ∧ later.values = context.values := by
  unfold ensureSlot
  refine .look (fun _ => rfl) fun seen => ?_
  cases found : seen.slot? name with
  | some slot =>
      refine .pure ?_
      rintro state ⟨tracing, rfl⟩
      refine ⟨context, tracing.imp fun holds => ⟨holds, ?_⟩, ?_, rfl⟩
      · exact tracing.ready.context.slot found
      · rw [← tracing.context]
        exact found
  | none =>
      have allocates : Proceeds scene
          (Tracing scene origin context stores known)
          (onBuilder (Builder.entryAlloca type s!"{name}.slot"))
          fun slot => Tracing scene origin context stores fun state =>
            known state ∧ Builder.PointsTo type state.builder slot :=
        .built (Builder.addresses_entryAlloca _ _) fun state ready holds =>
          Builder.builds_entryAlloca ready.builder (has state holds) _
      refine .bind (allocates.given fun _ both => both.1) fun slot => ?_
      have pushes : Proceeds scene
          (Tracing scene origin context stores fun state =>
            known state ∧ Builder.PointsTo type state.builder slot)
          (do
            modifyContext (·.pushSlot name slot type)
            pure slot) fun slot state => ∃ later,
              Tracing scene origin later stores (fun state => known state ∧
                slot.Typed state.table) state ∧
              later.slot? name = some slot ∧
              later.values = context.values := by
        refine .bind (.renamed (emits_pushSlot name slot type)
          fun state holds => ⟨holds.2.1, has state holds.1⟩) fun _ => ?_
        refine .pure fun state tracing => ⟨_, tracing.imp fun holds =>
          ⟨holds.1, holds.2.1⟩, ?_, rfl⟩
        unfold FunctionContext.slot? FunctionContext.innermost?
          FunctionContext.pushSlot
        rw [NameMap.find?_insert, if_pos rfl]
        rfl
      refine .look (fun _ => rfl) fun _ => ?_
      split
      · rw [Bool.false_and, if_neg Bool.false_ne_true]
        exact pushes.given fun _ both => both.1
      · exact pushes.given fun _ both => both.1

/-- The last step of an instruction with a result. -/
theorem achieves_define [Enduring known] (name : String) (value : Value)
    (type : TypeId)
    (typed : ∀ state, known state →
      value.Typed state.table ∧ state.table.Has type) :
    Achieves scene (Tracing scene origin context stores known)
      (define name value type) fun _ =>
        Defined scene origin stores known name value := by
  have publishes : Emits scene
      (fun table => value.Typed table ∧ table.Has type)
      (modifyContext (·.publish name value type)) fun _ _ => True :=
    emits_modifyContext (fun _ _ both context =>
      context.publish name both.1 both.2) fun _ => rfl
  have named : (context.publish name value type).value? name =
      some value := by
    unfold FunctionContext.value? FunctionContext.publish FunctionContext.bind
    rw [NameMap.find?_insert, if_pos rfl]
  unfold define
  refine .bind (.lift (.renamed publishes typed)) fun _ => ?_
  refine .look (fun _ => rfl) fun seen => ?_
  refine .ite (fun _ => ?_) fun immutable => .pure ?_
  · refine .bind (.lift ((proceeds_ensureSlot name fun state holds =>
      (typed state holds).2).given fun _ both => both.1)) fun slot => ?_
    refine .any fun later => .look (fun _ => rfl) fun pointee => ?_
    cases pointee with
    | none => exact .throw _
    | some expected =>
        refine .assume (fun _ both => both.1.2) fun kept => ?_
        obtain ⟨slotted, values⟩ := kept
        have pointing : Achieves scene
            (Tracing scene origin later stores fun state =>
              known state ∧ Builder.PointsTo expected state.builder slot)
            (do
              expectType s!"store to `{name}`" expected value.type
              Builder.store value slot) fun _ =>
              Defined scene origin stores known name value := by
          refine .assume (fun _ tracing => tracing.holds.2.address)
            fun address => ?_
          refine .handled (looks_expectType _ _ _)
            (@handles_expectType scene (fun _ => True) _ _ _)
            (fun _ _ => trivial) fun _ _ => ?_
          refine (Achieves.lift (.stored address)).weaken fun _ state done => ?_
          obtain ⟨⟨holds, points⟩, rfl⟩ := done.holds
          refine ⟨done.ready, done.quiet, holds, ?_, _, done.stores,
            .inr ⟨slot, ?_, points.2, rfl⟩⟩
          · rw [done.context, FunctionContext.value?, values]
            exact named
          · rw [done.context]
            exact slotted
        refine pointing.given fun state both => ?_
        exact both.1.1.imp fun holds => ⟨holds.1, holds.2, both.2⟩
  · rintro state ⟨tracing, rfl⟩
    refine ⟨tracing.ready, tracing.quiet, tracing.holds, ?_, [], ?_, .inl ⟨?_, rfl⟩⟩
    · rw [tracing.context]
      exact named
    · rw [List.append_nil]
      exact tracing.stores
    · exact Bool.eq_false_iff.mpr immutable

end FormCompiler
