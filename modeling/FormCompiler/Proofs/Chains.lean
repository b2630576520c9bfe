import FormCompiler.Proofs.Constructs

/-!
# Chains of tests

A switch and a match compare one value with the number of each case in turn.
The block of a test leads to the body of its case where the two are equal and
to the next test where they are not; the last test leads on to a block for
what no case takes.

Tests and bodies are filled in one after the other, and a body may be of any
size.  What is known of the tests and bodies so far stays true, whatever is
emitted later.
-/

namespace FormCompiler

open Ir

open EmitState (Stage IsTarget)

/-- A case as control flow has it: the number it is for, the block that tests
for the number and the block of the body. -/
structure Route where
  number : Int
  testBlock : BlockId
  bodyBlock : BlockId

/-- The blocks of a case, which are ended one after the other. -/
def Route.blocks (route : Route) : List BlockId :=
  [route.testBlock, route.bodyBlock]

/-- The block that decides the first of some cases. -/
def Route.first (noMatch : BlockId) : List Route → BlockId
  | [] => noMatch
  | route :: _ => route.testBlock

namespace Ir.Module

variable {module later : Module} {scrutinee : Operand} {bits : Nat}
  {noMatch : BlockId}

/-- A block compares a value with the number of a case, and branches on
whether they are equal. -/
def Tests (module : Module) (scrutinee : Operand) (bits : Nat) (route : Route)
    (next : BlockId) : Prop :=
  ∃ register,
    module.FillsAt route.testBlock register
      (.compareInt .eq scrutinee (.ofInt bits route.number)) ∧
    module.terminator? route.testBlock =
      some (.branchIf (.register register (.int 1)) route.bodyBlock next)

/-- Each test leads to the next one, and the last to a block for no match. -/
def Chains (module : Module) (scrutinee : Operand) (bits : Nat)
    (noMatch : BlockId) : List Route → Prop
  | [] => True
  | route :: rest =>
      module.Tests scrutinee bits route (Route.first noMatch rest) ∧
        module.Chains scrutinee bits noMatch rest

theorem Develops.instructions (develops : module.Develops later)
    (id : BlockId) (block : Block) (found : module.block? id = some block) :
    ∃ laterBlock, later.block? id = some laterBlock ∧
      block.instructions.Sublist laterBlock.instructions := by
  obtain ⟨laterBlock, laterFound, grows⟩ := develops.blocks id block found
  exact ⟨laterBlock, laterFound, grows.instructions⟩

theorem Tests.mono {route : Route} {next : BlockId}
    (tests : module.Tests scrutinee bits route next)
    (develops : module.Develops later) :
    later.Tests scrutinee bits route next := by
  obtain ⟨register, fills, ends⟩ := tests
  exact ⟨register, fills.of_blocks develops.instructions,
    develops.terminator? ends⟩

theorem Chains.mono {routes : List Route}
    (chains : module.Chains scrutinee bits noMatch routes)
    (develops : module.Develops later) :
    later.Chains scrutinee bits noMatch routes := by
  induction routes with
  | nil => trivial
  | cons route rest ih => exact ⟨chains.1.mono develops, ih chains.2⟩

end Ir.Module

/-- The cursor stands at the start of a block. -/
def EmitState.Enters (block : BlockId) (state : EmitState) : Prop :=
  state.builder.block = some block ∧
    ∃ name, state.builder.module.block? block = some ⟨name, []⟩

/-- A body was emitted from the start of a block.  If the block that it came
to was still open then, that block leads to the end of the construct and
nowhere else. -/
def HasBody (scene : Scene) (body : Emission Unit) (block endBlock : BlockId)
    (module : Module) : Prop :=
  ∃ before : EmitState, before.Enters block ∧
    (body scene.environment before).2.builder.module.Develops module ∧
    ∀ exit, (body scene.environment before).2.builder.block = some exit →
      (body scene.environment before).2.builder.isTerminated = false →
        module.terminator? exit = some (.branch endBlock)

theorem HasBody.mono {scene : Scene} {body : Emission Unit}
    {block endBlock : BlockId} {module later : Module}
    (has : HasBody scene body block endBlock module)
    (develops : module.Develops later) :
    HasBody scene body block endBlock later := by
  obtain ⟨before, enters, earlier, exits⟩ := has
  refine ⟨before, enters, earlier.trans develops, ?_⟩
  intro exit current isOpen
  exact develops.terminator? (exits exit current isOpen)

/-- What a construct leaves that dispatches on a value: the block it started in
leads into the chain of its tests, and every body stands in a block of its
own. -/
structure Dispatched (scene : Scene) (start : BlockId) (scrutinee : Operand)
    (bits : Nat) (cases : List (Route × Emission Unit))
    (default : Option (BlockId × Emission Unit)) (endBlock : BlockId)
    (module : Module) : Prop where
  starts : module.terminator? start = some (.branch
    (Route.first ((default.map Prod.fst).getD endBlock)
      (cases.map Prod.fst)))
  chains : module.Chains scrutinee bits
    ((default.map Prod.fst).getD endBlock) (cases.map Prod.fst)
  bodies : ∀ entry ∈ cases,
    HasBody scene entry.2 entry.1.bodyBlock endBlock module
  defaults : ∀ entry ∈ default, HasBody scene entry.2 entry.1 endBlock module
  distinct : (start :: (cases.map Prod.fst).flatMap Route.blocks ++
    (default.map Prod.fst).toList ++ [endBlock]).Nodup

theorem Dispatched.mono {scene : Scene} {start : BlockId}
    {scrutinee : Operand} {bits : Nat}
    {cases : List (Route × Emission Unit)}
    {default : Option (BlockId × Emission Unit)} {endBlock : BlockId}
    {module later : Module}
    (dispatched : Dispatched scene start scrutinee bits cases default endBlock
      module) (develops : module.Develops later) :
    Dispatched scene start scrutinee bits cases default endBlock later where
  starts := develops.terminator? dispatched.starts
  chains := dispatched.chains.mono develops
  bodies entry member := (dispatched.bodies entry member).mono develops
  defaults entry member := (dispatched.defaults entry member).mono develops
  distinct := dispatched.distinct

/-- A construct that tests a value for some numbers in order, each with a body,
and continues in a block of its own. -/
def Dispatches (scene : Scene) (start : BlockId) (scrutinee : Operand)
    (bits : Nat) (cases : List (Int × Emission Unit))
    (default : Option (Emission Unit)) (endBlock : BlockId)
    (module : Module) : Prop :=
  ∃ (placed : List (Route × Emission Unit))
    (otherwise : Option (BlockId × Emission Unit)),
    (placed.map fun entry => (entry.1.number, entry.2)) = cases ∧
    otherwise.map Prod.snd = default ∧
    Dispatched scene start scrutinee bits placed otherwise endBlock module

theorem Dispatches.mono {scene : Scene} {start : BlockId}
    {scrutinee : Operand} {bits : Nat} {cases : List (Int × Emission Unit)}
    {default : Option (Emission Unit)} {endBlock : BlockId}
    {module later : Module}
    (dispatches : Dispatches scene start scrutinee bits cases default endBlock
      module) (develops : module.Develops later) :
    Dispatches scene start scrutinee bits cases default endBlock later := by
  obtain ⟨placed, otherwise, numbers, bodies, dispatched⟩ := dispatches
  exact ⟨placed, otherwise, numbers, bodies, dispatched.mono develops⟩

variable {scene : Scene} {origin : EmitState} {cursor : Bool → Prop}
  {owed : List BlockId} {known : EmitState → Prop} {Result : Type}
  {scrutinee : Value} {bits : Nat} {noMatch block endBlock : BlockId}

instance (block : BlockId) (ending : Operation) :
    Enduring fun state =>
      state.builder.module.terminator? block = some ending :=
  ⟨fun _ continues ends => continues.module.terminator? ends⟩

instance (scrutinee : Operand) (route : Route) (next : BlockId) :
    Enduring fun state =>
      state.builder.module.Tests scrutinee bits route next :=
  ⟨fun _ continues tests => tests.mono continues.module⟩

instance (scrutinee : Operand) (routes : List Route) :
    Enduring fun state =>
      state.builder.module.Chains scrutinee bits noMatch routes :=
  ⟨fun _ continues chains => chains.mono continues.module⟩

instance (body : Emission Unit) :
    Enduring fun state =>
      HasBody scene body block endBlock state.builder.module :=
  ⟨fun _ continues has => has.mono continues.module⟩

instance {start : BlockId} {scrutinee : Operand}
    {cases : List (Int × Emission Unit)} {default : Option (Emission Unit)} :
    Enduring fun state => Dispatches scene start scrutinee bits cases default
      endBlock state.builder.module :=
  ⟨fun _ continues dispatches => dispatches.mono continues.module⟩

/-! ## Steps -/

/-- The cursor stays in its block. -/
def Stays (emission : Emission Result) : Prop :=
  ∀ environment state,
    (emission environment state).2.builder.block = state.builder.block

theorem Stays.pure (result : Result) :
    Stays (Pure.pure result : Emission Result) :=
  fun _ _ => rfl

theorem Stays.bind {Other : Type} {emission : Emission Result}
    {next : Result → Emission Other} (first : Stays emission)
    (rest : ∀ result, Stays (next result)) : Stays (emission >>= next) :=
  fun environment state =>
    (rest _ environment _).trans (first environment state)

theorem Stays.mapM {Item : Type} {emission : Item → Emission Result}
    (each : ∀ item, Stays (emission item)) (items : List Item) :
    Stays (items.mapM emission) := by
  induction items with
  | nil =>
      rw [List.mapM_nil]
      exact .pure []
  | cons item items ih =>
      rw [List.mapM_cons]
      exact .bind (each item) fun result => .bind ih fun rest =>
        .pure (result :: rest)

theorem Proceeds.staying {before : EmitState → Prop}
    {emission : Emission Result} {after : Result → EmitState → Prop}
    (proceeds : Proceeds scene before emission after)
    (stays : Stays emission) :
    Proceeds scene
      (fun state => before state ∧ state.builder.block = some block) emission
      fun result state => after result state ∧
        state.builder.block = some block :=
  fun state both =>
    ⟨proceeds state both.1, (stays scene.environment state).trans both.2⟩

/-- A block that is owed an end is empty when it is come to. -/
theorem proceeds_enter [Lasting known] (block : BlockId) :
    Proceeds scene (Leaving scene origin (block :: owed) known)
      (liftM (Builder.positionAtEnd block) : Emission Unit)
      fun _ state => Writing scene origin owed known state ∧
        state.Enters block ∧ block.index ≠ 0 := by
  intro state leaving
  obtain ⟨-, notFirst, empty⟩ :=
    leaving.stage.owes.empty block List.mem_cons_self
  exact ⟨Proceeds.position block state leaving, ⟨rfl, empty⟩, notFirst⟩

/-- What follows in a block that is come to. -/
theorem Proceeds.entering [Lasting known] {emission : Emission Result}
    {after : Result → EmitState → Prop}
    (proceeds : ∀ before : EmitState, before.Enters block →
      Proceeds scene
        (fun state => Writing scene origin owed known state ∧ before = state)
        emission after) :
    Proceeds scene (Leaving scene origin (block :: owed) known)
      (do
        Builder.positionAtEnd block
        emission) after := by
  intro state leaving
  obtain ⟨writing, enters, -⟩ := proceeds_enter block state leaving
  exact proceeds _ enters _ ⟨writing, rfl⟩

theorem Proceeds.positionAt [Lasting known] (block : BlockId) :
    Proceeds scene (Leaving scene origin (block :: owed) known)
      (liftM (Builder.positionAtEnd block) : Emission Unit)
      fun _ state => Writing scene origin owed known state ∧
        state.builder.block = some block :=
  fun state leaving => ⟨Proceeds.position block state leaving, rfl⟩

/-- The blocks that are owed an end differ, and none is the current one. -/
theorem At.distinct {state : EmitState}
    (at_ : At scene origin cursor owed known state)
    (current : state.builder.block = some block) : (block :: owed).Nodup := by
  refine List.nodup_cons.mpr ⟨fun member => ?_, at_.stage.owes.nodup⟩
  exact ((at_.stage.owes.mem_iff block).mp member).2 current

/-- The current block leads on. -/
theorem Proceeds.lead [Enduring known] {target : BlockId}
    (allowed : ∀ state, known state → IsTarget scene origin target state) :
    Proceeds scene
      (fun state => Writing scene origin owed known state ∧
        state.builder.block = some block)
      (liftM (Builder.branch target) : Emission Unit)
      fun _ => Leaving scene origin owed fun state => known state ∧
        state.builder.module.terminator? block = some (.branch target) ∧
        (block :: owed).Nodup := by
  rintro state ⟨writing, current⟩
  have targets : ∀ other ∈ [target], IsTarget scene origin other state := by
    simpa using allowed state writing.holds
  have later := Proceeds.branch allowed state writing
  exact ⟨later.stage, later.cursor, later.holds,
    (Builder.ends_branch writing.ready.builder writing.cursor
      (writing.targets targets)).2 block current, writing.distinct current⟩

/-- A comparison in the current block. -/
theorem proceeds_compare [Lasting known] (scrutinee expected : Value)
    (name : String) :
    Proceeds scene
      (fun state => Writing scene origin owed known state ∧
        state.builder.block = some block)
      (liftM (Builder.compareInt .eq scrutinee expected name) :
        Emission Value)
      fun hit state => Writing scene origin owed (fun state => known state ∧
          hit.operand.type = .int 1 ∧ ∃ register,
            hit.operand = .register register (.int 1) ∧
            state.builder.module.FillsAt block register
              (.compareInt .eq scrutinee.operand expected.operand)) state ∧
        state.builder.block = some block := by
  rintro state ⟨writing, current⟩
  have compares := preserves_onBuilder writing.ready
    (Builder.builds_comparedAt writing.ready.builder current .eq scrutinee
      expected name)
  have later := writing.quiet compares.holds compares.follows
  obtain ⟨truth, register, same, -, fills⟩ := compares.good
  exact ⟨⟨later.stage, later.cursor, later.holds, truth.2, register, same,
    fills⟩, compares.follows.builder.block.trans current⟩

/-- The current block branches on the comparison that it holds. -/
theorem proceeds_test {expected hit : Value} (route : Route) (next : BlockId)
    (content : expected.content = .firstClass (.ofInt bits route.number))
    (allowed : ∀ state, known state →
      IsTarget scene origin route.bodyBlock state ∧
      IsTarget scene origin next state) :
    Proceeds scene
      (fun state => Writing scene origin owed (fun state => known state ∧
          hit.operand.type = .int 1 ∧ ∃ register,
            hit.operand = .register register (.int 1) ∧
            state.builder.module.FillsAt route.testBlock register
              (.compareInt .eq scrutinee.operand expected.operand)) state ∧
        state.builder.block = some route.testBlock)
      (liftM (Builder.branchIf hit route.bodyBlock next) : Emission Unit)
      fun _ state =>
        state.builder.module.Tests scrutinee.operand bits route next := by
  rintro state ⟨writing, current⟩
  obtain ⟨holds, int, register, same, fills⟩ := writing.holds
  have targets : ∀ target ∈ [route.bodyBlock, next],
      IsTarget scene origin target state := by
    simpa using allowed state holds
  obtain ⟨ended, terminator⟩ := Builder.ends_branchIf writing.ready.builder
    writing.cursor int (writing.targets targets)
  refine ⟨register, ?_, ?_⟩
  · rw [Value.operand_eq content] at fills
    exact fills.of_blocks ended.module.instructions
  · rw [← same]
    exact terminator route.testBlock current

/-- Where a body leaves its block open, the block leads to the end. -/
theorem hasBody_emitArm [Enduring known] {emit : FormEmitter}
    (advances : ∀ form, Advances scene (emit form)) (block : BlockId)
    (body : List Form) {next : BlockId}
    (allowed : ∀ state, known state → IsTarget scene origin next state) :
    Proceeds scene (Leaving scene origin (block :: owed) known)
      (emitArm emit block body next)
      fun _ state => HasBody scene (emitSequence emit body) block next
        state.builder.module := by
  intro state leaving
  obtain ⟨writing, enters, -⟩ := proceeds_enter block state leaving
  have passing := Proceeds.sequence advances body _ writing.forget
  unfold emitArm
  rw [reader_bind_apply, reader_bind_apply]
  generalize entered : (liftM (Builder.positionAtEnd block) : Emission Unit)
    scene.environment state = before at *
  generalize emitted : emitSequence emit body scene.environment before.2 =
    middle at *
  unfold fallThrough
  rw [isTerminated_bind]
  split
  · next isEnded =>
      refine ⟨before.2, enters, ?_, ?_⟩
      · rw [emitted]
        exact .refl _
      · intro exit current isOpen
        rw [emitted, isEnded] at isOpen
        cases isOpen
  · next notEnded =>
      have isOpen := Bool.eq_false_iff.mpr notEnded
      have ready := passing.stage.ready isOpen
      have targets : ∀ target ∈ [next],
          IsTarget scene origin target middle.2 := by
        simpa using allowed _ passing.holds
      obtain ⟨ended, terminator⟩ := Builder.ends_branch ready.builder isOpen
        (passing.targets targets)
      refine ⟨before.2, enters, ?_, ?_⟩
      · rw [emitted]
        exact ended.module
      · intro exit current _
        rw [emitted] at current
        exact terminator exit current

theorem Proceeds.body [Enduring known] {emit : FormEmitter}
    (advances : ∀ form, Advances scene (emit form)) (block : BlockId)
    (body : List Form) {next : BlockId}
    (allowed : ∀ state, known state → IsTarget scene origin next state) :
    Proceeds scene (Leaving scene origin (block :: owed) known)
      (emitArm emit block body next)
      fun _ => Leaving scene origin owed fun state => known state ∧
        HasBody scene (emitSequence emit body) block next
          state.builder.module := by
  intro state leaving
  have later := Proceeds.arm advances block body allowed state leaving
  exact ⟨later.stage, later.cursor, later.holds,
    hasBody_emitArm advances block body allowed state leaving⟩

end FormCompiler
