import FormCompiler.Ir.Builder
import FormCompiler.Proofs.Modules

/-!
# Building instructions in sequence

A builder is ready when its cursor stands in a block of its function where an
instruction may go: at the end of a block that is still open, or ahead of the
terminator of one that is not.  Every operation that builds no terminator
leaves a ready builder ready at the same place, and its values well typed.
-/

namespace FormCompiler.Ir

/-! ## Results of operations -/

namespace Module

variable {module later : Module} {operation : Operation} {operand : Operand}

/-- The instruction that fills a register performs an operation. -/
def Fills (module : Module) (register : Register) (operation : Operation) :
    Prop :=
  ∃ index block, module.block? ⟨register.function, index⟩ = some block ∧
    ∃ instruction ∈ block.instructions, instruction.register = register ∧
      instruction.operation = operation

/-- A block has the instruction that fills a register. -/
def FillsAt (module : Module) (id : BlockId) (register : Register)
    (operation : Operation) : Prop :=
  ∃ block, module.block? id = some block ∧
    ∃ instruction ∈ block.instructions, instruction.register = register ∧
      instruction.operation = operation

theorem FillsAt.fills {id : BlockId} {register : Register}
    (fills : module.FillsAt id register operation)
    (inside : id.function = register.function) :
    module.Fills register operation := by
  refine ⟨id.index, ?_⟩
  rw [← inside]
  exact fills

/-- Instructions stay in their blocks. -/
theorem FillsAt.of_blocks {id : BlockId} {register : Register}
    (fills : module.FillsAt id register operation)
    (blocks : ∀ id block, module.block? id = some block →
      ∃ laterBlock, later.block? id = some laterBlock ∧
        block.instructions.Sublist laterBlock.instructions) :
    later.FillsAt id register operation := by
  obtain ⟨block, found, instruction, member, same⟩ := fills
  obtain ⟨laterBlock, laterFound, kept⟩ := blocks id block found
  exact ⟨laterBlock, laterFound, instruction, kept.subset member, same⟩

/-- An operand is the result of an operation. -/
def Produces (module : Module) (operation : Operation) (operand : Operand) :
    Prop :=
  ∃ register, operand = .register register operation.resultType ∧
    module.Fills register operation

theorem Produces.type_eq (produces : module.Produces operation operand) :
    operand.type = operation.resultType := by
  obtain ⟨register, rfl, -⟩ := produces
  rfl

/-- Instructions stay, and so do the operands they give. -/
theorem Produces.of_blocks (produces : module.Produces operation operand)
    (blocks : ∀ id block, module.block? id = some block →
      ∃ laterBlock, later.block? id = some laterBlock ∧
        block.instructions.Sublist laterBlock.instructions) :
    later.Produces operation operand := by
  obtain ⟨register, same, index, fills⟩ := produces
  exact ⟨register, same, index, FillsAt.of_blocks fills blocks⟩

/-- Quiet changes keep instructions. -/
theorem Quiet.instructions (quiet : module.Quiet later) (id : BlockId)
    (block : Block) (found : module.block? id = some block) :
    ∃ laterBlock, later.block? id = some laterBlock ∧
      block.instructions.Sublist laterBlock.instructions := by
  obtain ⟨laterBlock, laterFound, keeps⟩ := quiet.blocks id block found
  exact ⟨laterBlock, laterFound, keeps.instructions⟩

theorem Produces.of_quiet (produces : module.Produces operation operand)
    (quiet : module.Quiet later) : later.Produces operation operand :=
  produces.of_blocks quiet.instructions

end Module

theorem Value.operand_eq {value : Value} {operand : Operand}
    (content : value.content = .firstClass operand) :
    value.operand = operand := by
  rw [Value.operand, content]

namespace Builder

/-- The cursor stands in a block of the function that is built. -/
structure Placed (builder : Builder) : Prop where
  sound : builder.module.Sound
  inhabited : 0 < builder.module.types.kinds.length
  cursor : ∃ index, builder.block = some ⟨builder.function, index⟩ ∧
    (builder.module.block? ⟨builder.function, index⟩).isSome = true
  attached : builder.detached = 0

/-- The current block is one of the current function. -/
theorem Placed.function_eq {builder : Builder} (placed : builder.Placed)
    {block : BlockId} (current : builder.block = some block) :
    block.function = builder.function := by
  obtain ⟨index, cursor, -⟩ := placed.cursor
  cases cursor.symm.trans current
  rfl

/-- The cursor stands where an instruction may go. -/
structure Ready (builder : Builder) : Prop extends Placed builder where
  mode : builder.beforeTerminator = builder.isTerminated

/-- The cursor stays, and so does control flow.  Only the current block and
the first block of a function may get instructions. -/
structure Quiet (builder later : Builder) : Prop where
  module : builder.module.Quiet later.module
  others : ∀ id block, builder.block ≠ some id → id.index ≠ 0 →
    builder.module.block? id = some block →
      later.module.block? id = some block
  worksIn : builder.module.WorksIn builder.function later.module
  function : later.function = builder.function
  block : later.block = builder.block
  beforeTerminator : later.beforeTerminator = builder.beforeTerminator
  detached : later.detached = builder.detached

theorem Quiet.refl (builder : Builder) : builder.Quiet builder :=
  ⟨Module.Quiet.refl _, fun _ _ _ _ found => found, .refl _ _, rfl, rfl, rfl,
    rfl⟩

theorem Quiet.trans {builder later last : Builder}
    (first : builder.Quiet later) (second : later.Quiet last) :
    builder.Quiet last := by
  refine ⟨first.module.trans second.module, ?_,
    first.worksIn.trans first.module.toExtends
      (first.function ▸ second.worksIn),
    second.function.trans first.function, second.block.trans first.block,
    second.beforeTerminator.trans first.beforeTerminator,
    second.detached.trans first.detached⟩
  intro id block elsewhere notFirst found
  apply second.others id block (by rw [first.block]; exact elsewhere) notFirst
  exact first.others id block elsewhere notFirst found

instance : Std.Refl Quiet := ⟨Quiet.refl⟩

instance : Trans Quiet Quiet Quiet := ⟨Quiet.trans⟩

variable {builder later : Builder}

theorem isTerminatedBlock_eq (builder : Builder) (id : BlockId) :
    builder.isTerminatedBlock id = (builder.module.terminator? id).isSome := by
  unfold isTerminatedBlock Module.terminator?
  cases builder.module.block? id <;> rfl

theorem Placed.isTerminated_eq (placed : builder.Placed)
    (quiet : builder.Quiet later) :
    later.isTerminated = builder.isTerminated := by
  obtain ⟨index, cursor, known⟩ := placed.cursor
  rw [Builder.isTerminated, Builder.isTerminated, quiet.block, cursor]
  simp only [isTerminatedBlock_eq, quiet.module.terminator? known]

theorem Placed.of_quiet (placed : builder.Placed)
    (quiet : builder.Quiet later) (sound : later.module.Sound) :
    later.Placed := by
  obtain ⟨index, cursor, known⟩ := placed.cursor
  refine ⟨sound, ?_, ⟨index, ?_, ?_⟩, ?_⟩
  · exact Nat.lt_of_lt_of_le placed.inhabited quiet.module.types.length_le
  · rw [quiet.block, quiet.function, cursor]
  · rw [quiet.function]
    exact quiet.module.isSome_block? known
  · rw [quiet.detached, placed.attached]

theorem Ready.of_quiet (ready : builder.Ready) (quiet : builder.Quiet later)
    (sound : later.module.Sound) : later.Ready := by
  refine ⟨ready.toPlaced.of_quiet quiet sound, ?_⟩
  rw [quiet.beforeTerminator, ready.mode, ready.isTerminated_eq quiet]

/-- An operation leaves a ready builder ready at the same place. -/
abbrev Builds {Result : Type} (builder : Builder) (operation : Build Result)
    (good : Builder → Result → Prop) : Prop :=
  Preserves Ready Quiet builder operation good

/-! ## Operations on the module -/

theorem builds_onModule (ready : builder.Ready) {Result : Type}
    {operation : StateM Module Result} {good : Module → Result → Prop}
    (runs : builder.module.Runs operation good) :
    Builds builder (onModule operation) fun later result =>
      good later.module result := by
  have still := runs.follows
  have quiet : builder.Quiet (onModule operation builder).2 :=
    ⟨still.quiet, fun id block _ _ found => (still.block? id).trans found,
      still.worksIn _, rfl, rfl, rfl, rfl⟩
  exact ⟨ready.of_quiet quiet runs.holds, quiet, runs.good⟩

/-- The bodies of functions stay as they are. -/
theorem builds_onModule_still (ready : builder.Ready) {Result : Type}
    {operation : StateM Module Result} {good : Module → Result → Prop}
    (runs : builder.module.Runs operation good) :
    Builds builder (onModule operation) fun later result =>
      good later.module result ∧ builder.module.Still later.module :=
  have builds := builds_onModule ready runs
  ⟨builds.holds, builds.follows, builds.good, runs.follows⟩

theorem builds_onTypes (ready : builder.Ready) {Result : Type}
    {operation : StateM TypeTable Result} {good : TypeTable → Result → Prop}
    (yields : builder.module.types.Yields operation good) :
    Builds builder (onTypes operation) fun later result =>
      good later.module.types result :=
  builds_onModule ready (Module.runs_withTypes ready.sound yields)

/-- Looking at the types first. -/
theorem builds_types_bind {Result : Type} {next : TypeTable → Build Result}
    {good : Builder → Result → Prop}
    (rest : Builds builder (next builder.module.types) good) :
    Builds builder (types >>= next) good :=
  ⟨rest.holds, rest.follows, rest.good⟩

/-! ## Constants -/

/-- A value that is well typed, of a given type. -/
def Gives (type : TypeId) (builder : Builder) (value : Value) : Prop :=
  value.Typed builder.module.types ∧ value.type = type

theorem builds_pushContent (ready : builder.Ready) {content : Content}
    {type : TypeId} (has : builder.module.types.Has type)
    (fits : content.Fits builder.module.types type) :
    Builds builder (push content type) fun later value =>
      Gives type later value ∧ value.content = content := by
  apply (builds_onModule ready
    (Module.runs_pushValue ready.sound content type)).weaken
  rintro later value ⟨types, rfl, rfl⟩
  refine ⟨⟨⟨?_, ?_⟩, rfl⟩, rfl⟩
  · rw [types]
    exact has
  · rw [types]
    exact fits

theorem builds_push (ready : builder.Ready) {content : Content}
    {type : TypeId} (has : builder.module.types.Has type)
    (fits : content.Fits builder.module.types type) :
    Builds builder (push content type) (Gives type) :=
  (builds_pushContent ready has fits).weaken fun _ _ gives => gives.1

theorem builds_lower (ready : builder.Ready) (type : TypeId) :
    Builds builder (onModule (Module.lower type)) fun later irType =>
      later.module.types = builder.module.types ∧
        irType = lowered builder.module.types loweringLevels type :=
  builds_onModule ready (Module.runs_lower ready.sound type)

theorem builds_lowerFirstClass? (ready : builder.Ready) (type : TypeId) :
    Builds builder (onModule (Module.lowerFirstClass? type))
      fun later found => later.module.types = builder.module.types ∧
        ∀ irType, found = some irType →
          irType = lowered builder.module.types loweringLevels type := by
  apply (builds_onModule ready
    (Module.runs_lowerFirstClass? ready.sound type)).weaken
  rintro later found ⟨types, rfl⟩
  refine ⟨types, ?_⟩
  intro irType same
  split at same <;> cases same
  rfl

/-- What is not first-class is not so across a function boundary either. -/
theorem boundary_eq_false {table : TypeTable} {type : TypeId}
    (outside : (lowered table loweringLevels type).isFirstClass = false) :
    (lowered table boundaryLevels type).isFirstClass = false := by
  by_contra inside
  rw [Bool.not_eq_false] at inside
  have same : lowered table loweringLevels type =
      lowered table boundaryLevels type := lowered_succ inside
  rw [same, inside] at outside
  cases outside

theorem builds_constant (ready : builder.Ready) {type : TypeId}
    (has : builder.module.types.Has type) {make : IrType → Operand}
    (makes : ∀ irType, (make irType).type = irType) :
    Builds builder (constant make type) (Gives type) := by
  unfold constant
  apply (builds_lower ready type).bind
  rintro later irType laterReady _ ⟨types, same⟩
  rw [← types] at has same
  split
  · apply builds_push laterReady has
    exact .inl ((makes irType).trans same)
  · next outside =>
      rw [same, Bool.not_eq_true] at outside
      split
      · exact builds_push laterReady has (boundary_eq_false outside)
      · exact builds_push laterReady has (boundary_eq_false outside)

theorem zero_type (irType : IrType) : (Operand.zero irType).type = irType := by
  cases irType <;> rfl

theorem builds_constantUndef (ready : builder.Ready) {type : TypeId}
    (has : builder.module.types.Has type) :
    Builds builder (constantUndef type) (Gives type) :=
  builds_constant ready has fun _ => rfl

theorem builds_constantZero (ready : builder.Ready) {type : TypeId}
    (has : builder.module.types.Has type) :
    Builds builder (constantZero type) (Gives type) :=
  builds_constant ready has zero_type

theorem builds_constantInt (ready : builder.Ready) {type : TypeId}
    (has : builder.module.types.Has type) (value : Int) :
    Builds builder (constantInt type value) (Gives type) := by
  unfold constantInt
  apply (builds_lower ready type).bind
  rintro later irType laterReady _ ⟨types, same⟩
  rw [← types] at has same
  split
  · exact builds_push laterReady has (.inl same)
  · exact builds_constantZero laterReady has

theorem builds_constantFloat (ready : builder.Ready) {type : TypeId}
    (has : builder.module.types.Has type) (value : Double) :
    Builds builder (constantFloat type value) (Gives type) := by
  unfold constantFloat
  apply (builds_lower ready type).bind
  rintro later irType laterReady _ ⟨types, same⟩
  rw [← types] at has same
  split
  · next float =>
      apply builds_push laterReady has
      left
      rw [← same]
      unfold Operand.ofDouble
      cases irType <;> first | rfl | cases float
  · exact builds_constantZero laterReady has

theorem builds_atomic (ready : builder.Ready) {kind : TypeKind}
    (atomic : kind.parts = []) :
    Builds builder (onTypes (TypeTable.intern kind)) fun later type =>
      later.module.types.Has type ∧ later.module.types.kind type = kind :=
  builds_onTypes ready (TypeTable.yields_atomic ready.sound.types atomic)

theorem builds_pointer (ready : builder.Ready) {pointee : TypeId}
    (has : builder.module.types.Has pointee) :
    Builds builder (onTypes (TypeTable.pointer pointee)) fun later type =>
      later.module.types.Has type ∧
        later.module.types.kind type = .pointer pointee :=
  builds_onTypes ready (TypeTable.yields_pointer ready.sound.types has)

theorem builds_bytes (ready : builder.Ready) :
    Builds builder (onTypes TypeTable.bytePointer) fun later type => ∃ byte,
      later.module.types.Has type ∧
        later.module.types.kind type = .pointer byte ∧
        later.module.types.kind byte = .int 8 :=
  builds_onTypes ready (TypeTable.yields_bytes ready.sound.types)

theorem builds_bytePointer (ready : builder.Ready) :
    Builds builder (onTypes TypeTable.bytePointer) fun later type =>
      later.module.types.Has type ∧
        later.module.types.isPointer type = true :=
  builds_onTypes ready (TypeTable.yields_bytePointer ready.sound.types)

/-- A number of an integer type. -/
theorem builds_number (ready : builder.Ready) {type : TypeId} {bits : Nat}
    (kind : builder.module.types.Has type ∧
      builder.module.types.kind type = .int bits) (value : Int) :
    Builds builder (constantInt type value) fun later result =>
      result.Typed later.module.types ∧
        result.content = .firstClass (.ofInt bits value) := by
  unfold constantInt
  have lowers : lowered builder.module.types loweringLevels type =
      .int bits := by
    show lowered builder.module.types (64 + 1) type = .int bits
    rw [lowered, kind.2]
  apply (builds_lower ready type).bind
  rintro later irType laterReady _ ⟨types, rfl⟩
  rw [lowers]
  have has := kind.1
  rw [← types] at has lowers
  have fits : (Content.firstClass (.ofInt bits value)).Fits
      later.module.types type := .inl lowers.symm
  exact (builds_pushContent laterReady has fits).weaken
    fun _ _ both => ⟨both.1.1, both.2⟩

theorem builds_word (ready : builder.Ready) (value : Int) :
    Builds builder (constantI32 value) fun later result =>
      result.Typed later.module.types ∧
        result.content = .firstClass (.ofInt 32 value) := by
  apply (builds_atomic ready rfl).bind
  intro later type laterReady _ found
  exact builds_number laterReady found value

theorem builds_constantI32 (ready : builder.Ready) (value : Int) :
    Builds builder (constantI32 value) fun later result =>
      result.Typed later.module.types :=
  (builds_word ready value).weaken fun _ _ both => both.1

theorem builds_constantBool (ready : builder.Ready) (value : Bool) :
    Builds builder (constantBool value) fun later result =>
      result.Typed later.module.types ∧ result.operand.type = .int 1 := by
  apply (builds_atomic ready rfl).bind
  intro later type laterReady _ found
  apply (builds_constantInt laterReady found.1 _).imp
  rintro last value _ quiet ⟨typed, rfl⟩
  refine ⟨typed, (typed.operand_int ?_).2⟩
  rw [TypeTable.intWidth?, found.1.kind_eq quiet.module.types, found.2]

theorem builds_constantNone (ready : builder.Ready) :
    Builds builder constantNone fun later result =>
      result.Typed later.module.types := by
  apply (builds_atomic ready rfl).bind
  intro later type laterReady _ found
  exact (builds_constantZero laterReady found.1).weaken
    fun _ _ gives => gives.1

/-- An operand of the type of pointers fits a pointer type. -/
theorem fits_pointer {table : TypeTable} {type pointee : TypeId}
    (kind : table.kind type = .pointer pointee) {operand : Operand}
    (pointer : operand.type = .pointer) :
    (Content.firstClass operand).Fits table type := by
  left
  rw [pointer]
  show IrType.pointer = lowered table (64 + 1) type
  rw [lowered, kind]

theorem builds_globalAddress (ready : builder.Ready) (id : GlobalId) :
    Builds builder (globalAddress id) fun later value =>
      value.Typed later.module.types := by
  unfold globalAddress
  apply Preserves.get_bind
  apply (builds_pointer ready
    (ready.sound.global_has ready.inhabited id)).bind
  intro later type laterReady _ found
  exact (builds_push laterReady found.1 (fits_pointer found.2 rfl)).weaken
    fun _ _ gives => gives.1

/-- The address of a function, as a callee. -/
theorem builds_functionAddress (ready : builder.Ready) (id : FunctionId) :
    Builds builder (functionAddress id) fun later value =>
      value.Typed later.module.types ∧
        value.content = .firstClass (.function id) ∧
        later.module.types.pointee? value.type =
          some (builder.module.function id).type := by
  unfold functionAddress
  apply Preserves.get_bind
  apply (builds_pointer ready
    (ready.sound.function_has ready.inhabited id)).bind
  intro later type laterReady _ found
  apply (builds_pushContent laterReady found.1
    (fits_pointer found.2 rfl)).imp
  rintro last value _ quiet ⟨⟨typed, rfl⟩, content⟩
  refine ⟨typed, content, ?_⟩
  rw [TypeTable.pointee?, found.1.kind_eq quiet.module.types, found.2]

/-! ## Insertion -/

theorem attached_bind {Result : Type} {block : BlockId}
    (cursor : builder.block = some block)
    (next : Option BlockId → Build Result) :
    (attached >>= next) builder = next (some block) builder := by
  have same : attached builder = (some block, builder) := by
    unfold attached
    rw [stateM_get_bind, cursor]
    rfl
  rw [stateM_bind_apply, same]

/-- A ready builder has a current block. -/
theorem builds_attached_bind (ready : builder.Ready) {Result : Type}
    {next : Option BlockId → Build Result} {good : Builder → Result → Prop}
    (rest : ∀ block, builder.block = some block →
      Builds builder (next (some block)) good) :
    Builds builder (attached >>= next) good := by
  obtain ⟨index, cursor, -⟩ := ready.cursor
  obtain ⟨holds, follows, valid⟩ := rest _ cursor
  have run := attached_bind cursor next
  exact ⟨run ▸ holds, run ▸ follows, run ▸ valid⟩

/-- Where the cursor stands, an instruction may go. -/
theorem Ready.admits (ready : builder.Ready) {block : BlockId}
    (cursor : builder.block = some block) {inner : Block}
    (found : builder.module.block? block = some inner) :
    inner.Admits (inner.instructions.length -
        if builder.beforeTerminator then 1 else 0) ∧
      (inner.phi?.isSome = true → 0 < inner.instructions.length -
        if builder.beforeTerminator then 1 else 0) := by
  have mode := ready.mode
  rw [isTerminated, cursor] at mode
  simp only [isTerminatedBlock, found] at mode
  cases terminated : inner.isTerminated with
  | false =>
      rw [mode, terminated]
      refine ⟨Block.admits_end terminated, ?_⟩
      intro phi
      apply List.length_pos_iff.mpr
      intro empty
      simp [Block.phi?, empty] at phi
  | true =>
      rw [mode, terminated]
      refine ⟨Block.admits_before_end terminated, ?_⟩
      intro phi
      apply Nat.pos_of_ne_zero
      intro short
      -- a phi that stands alone would have to be the terminator
      cases instructions : inner.instructions with
      | nil => simp [Block.phi?, instructions] at phi
      | cons only rest =>
          have alone : rest = [] := by
            rw [instructions, List.length_cons, if_pos rfl,
              Nat.add_sub_cancel] at short
            exact List.length_eq_zero_iff.mp short
          simp [Block.phi?, instructions] at phi
          simp [Block.isTerminated, Block.terminator?, instructions, alone,
            isTerminator_of_isPhi phi] at terminated

/-- An instruction in the current block, or in the first one. -/
theorem builds_insertInstruction (ready : builder.Ready) (block : BlockId)
    (position : Block → Nat) {operation : Operation}
    (notEnding : operation.isTerminator = false) (name : String)
    (place : builder.block = some block ∨ block = ⟨builder.function, 0⟩)
    (admits : ∀ inner, builder.module.block? block = some inner →
      inner.Admits (position inner))
    (behindPhi : ∀ inner, builder.module.block? block = some inner →
      block.index ≠ 0 → inner.phi?.isSome = true → 0 < position inner) :
    Builds builder
      (onModule (Module.insertInstruction block position operation name))
      fun later register => later.module.types = builder.module.types ∧
        register = ⟨block.function,
          (builder.module.function block.function).registerCount⟩ ∧
        ∀ inner, builder.module.block? block = some inner →
          register.index <
            (later.module.function block.function).registerCount ∧
          ∃ final, later.module.block? block =
            some (inner.insertAt (position inner)
              ⟨register, final, operation⟩) := by
  obtain ⟨sound, quiet⟩ := ready.sound.insert block position notEnding name
    admits behindPhi
  have builderQuiet : builder.Quiet (onModule (Module.insertInstruction block
      position operation name) builder).2 := by
    have inside : block.function = builder.function := by
      rcases place with cursor | rfl
      · exact ready.function_eq cursor
      · rfl
    refine ⟨quiet, ?_, .of_blocks fun id other => ?_, rfl, rfl, rfl, rfl⟩
    · intro id inner elsewhere notFirst found
      refine (Module.block?_insertInstruction_of_ne _ _ _ _ _ ?_).trans found
      rintro rfl
      rcases place with cursor | rfl
      · exact elsewhere cursor
      · exact notFirst rfl
    · exact congrArg Function.blocks
        (Module.function_insertInstruction_of_ne _ _ _ _ _ (inside ▸ other))
  refine ⟨ready.of_quiet builderQuiet sound, builderQuiet, rfl, rfl, ?_⟩
  intro inner found
  refine ⟨?_, Module.block?_insertInstruction position operation name found⟩
  apply Nat.lt_of_lt_of_eq (Nat.lt_succ_self _)
  exact (Module.registerCount_insertInstruction position operation name
    (by rw [found]; rfl)).symm

/-- The cursor is in a block, so what is inserted there is in the block. -/
theorem builds_insertedAt (ready : builder.Ready) {block : BlockId}
    (cursor : builder.block = some block) {operation : Operation}
    (notEnding : operation.isTerminator = false) (name : String) :
    Builds builder (insert block operation name) fun later operand =>
      later.module.types = builder.module.types ∧
        ∃ register, operand = .register register operation.resultType ∧
          block.function = register.function ∧
          later.module.FillsAt block register operation := by
  unfold insert
  apply Preserves.get_bind
  apply (builds_insertInstruction ready block _ notEnding name (.inl cursor)
    (fun inner found => (ready.admits cursor found).1)
    (fun inner found _ => (ready.admits cursor found).2)).bind
  rintro later register laterReady _ ⟨types, fills, placed⟩
  refine Preserves.pure laterReady ⟨types, register, rfl, by rw [fills], ?_⟩
  obtain ⟨index, stands, known⟩ := ready.cursor
  cases stands.symm.trans cursor
  obtain ⟨inner, found⟩ := Option.isSome_iff_exists.mp known
  obtain ⟨-, final, inserted⟩ := placed inner found
  exact ⟨_, inserted, ⟨_, final, operation⟩,
    List.mem_append_right _ List.mem_cons_self, rfl, rfl⟩

theorem builds_inserted (ready : builder.Ready) {block : BlockId}
    (cursor : builder.block = some block) {operation : Operation}
    (notEnding : operation.isTerminator = false) (name : String) :
    Builds builder (insert block operation name) fun later operand =>
      later.module.types = builder.module.types ∧
        later.module.Produces operation operand := by
  refine (builds_insertedAt ready cursor notEnding name).weaken ?_
  rintro later operand ⟨types, register, same, inside, fills⟩
  exact ⟨types, register, same, fills.fills inside⟩

theorem builds_insert (ready : builder.Ready) {block : BlockId}
    (cursor : builder.block = some block) {operation : Operation}
    (notEnding : operation.isTerminator = false) (name : String) :
    Builds builder (insert block operation name) fun later operand =>
      later.module.types = builder.module.types ∧
        operand.type = operation.resultType :=
  (builds_inserted ready cursor notEnding name).weaken
    fun _ _ inserted => ⟨inserted.1, inserted.2.type_eq⟩

/-- An instruction whose result fits a type gives a value that is its
result. -/
theorem builds_produced (ready : builder.Ready) {block : BlockId}
    (cursor : builder.block = some block) {operation : Operation}
    (notEnding : operation.isTerminator = false) (name : String)
    {type : TypeId} (has : builder.module.types.Has type)
    (fits : operation.resultType =
        lowered builder.module.types loweringLevels type ∨
      operation.resultType =
        lowered builder.module.types boundaryLevels type) :
    Builds builder (insertValue block operation name type)
      fun later value => Gives type later value ∧
        later.module.Produces operation value.operand := by
  unfold insertValue
  apply (builds_inserted ready cursor notEnding _).bind
  rintro later operand laterReady _ ⟨types, produces⟩
  rw [← types] at has fits
  rw [← produces.type_eq] at fits
  have contentFits : (Content.firstClass operand).Fits later.module.types
      type := fits
  apply (builds_pushContent laterReady has contentFits).imp
  rintro last value _ quiet ⟨gives, content⟩
  refine ⟨gives, ?_⟩
  rw [Value.operand_eq content]
  exact produces.of_quiet quiet.module

theorem builds_insertValue (ready : builder.Ready) {block : BlockId}
    (cursor : builder.block = some block) {operation : Operation}
    (notEnding : operation.isTerminator = false) (name : String)
    {type : TypeId} (has : builder.module.types.Has type)
    (fits : operation.resultType =
        lowered builder.module.types loweringLevels type ∨
      operation.resultType =
        lowered builder.module.types boundaryLevels type) :
    Builds builder (insertValue block operation name type) (Gives type) :=
  (builds_produced ready cursor notEnding name has fits).weaken
    fun _ _ both => both.1

/-! ## Arithmetic -/

/-- A value that is like another one, but for where it comes from. -/
structure Resembles (left value : Value) : Prop where
  type : value.type = left.type
  firstClass : value.isFirstClass = true
  operand : value.operand.type = left.operand.type

theorem Resembles.typed {table : TypeTable} {left value : Value}
    (resembles : Resembles left value) (typed : left.Typed table)
    (firstClass : left.isFirstClass = true) : value.Typed table := by
  have fits := typed.fits
  obtain ⟨type, valueClass, operand⟩ := resembles
  refine ⟨type ▸ typed.has, ?_⟩
  unfold Value.isFirstClass at firstClass valueClass
  unfold Value.operand at operand
  cases content : left.content <;> rw [content] at firstClass <;>
    cases firstClass
  cases valueContent : value.content <;> rw [valueContent] at valueClass <;>
    cases valueClass
  rw [content] at fits operand
  rw [valueContent] at operand
  rw [Content.Fits, operand, type]
  exact fits

theorem builds_binary (ready : builder.Ready) (operator : BinaryOperator)
    (left right : Value) (name : String) :
    Builds builder (binary operator left right name) fun _ value =>
      Resembles left value := by
  unfold binary
  apply builds_attached_bind ready
  intro block cursor
  unfold insertValue
  apply (builds_insert ready cursor rfl _).bind
  rintro later operand laterReady _ ⟨types, result⟩
  apply (builds_onModule laterReady
    (Module.runs_pushValue laterReady.sound _ _)).weaken
  rintro last value ⟨-, type, content⟩
  refine ⟨type, ?_, ?_⟩
  · rw [Value.isFirstClass, content]
  · rw [Value.operand, content]
    exact result

/-- A truth value. -/
def IsTruth (builder : Builder) (value : Value) : Prop :=
  value.Typed builder.module.types ∧ value.operand.type = .int 1

theorem isTruth_of_kind {value : Value}
    (typed : value.Typed builder.module.types)
    (kind : builder.module.types.kind value.type = .int 1) :
    IsTruth builder value :=
  ⟨typed, (typed.operand_int (by rw [TypeTable.intWidth?, kind])).2⟩

theorem fits_int {table : TypeTable} {type : TypeId} {bits : Nat}
    (kind : table.kind type = .int bits) (levels : Nat) :
    lowered table (levels + 1) type = .int bits := by
  rw [lowered, kind]

theorem builds_comparedAt (ready : builder.Ready) {block : BlockId}
    (cursor : builder.block = some block) (predicate : IntPredicate)
    (left right : Value) (name : String) :
    Builds builder (compareInt predicate left right name)
      fun later value => IsTruth later value ∧
        ∃ register, value.operand = .register register (.int 1) ∧
          block.function = register.function ∧
          later.module.FillsAt block register
            (.compareInt predicate left.operand right.operand) := by
  unfold compareInt
  apply (builds_atomic ready rfl).bind
  rintro typed type typedReady typedQuiet ⟨has, kind⟩
  apply builds_attached_bind typedReady
  intro current stands
  cases (typedQuiet.block.trans cursor).symm.trans stands
  apply (builds_insertedAt typedReady stands rfl _).bind
  rintro later operand laterReady _ ⟨types, register, same, inside, fills⟩
  rw [← types] at has kind
  have fits : (Content.firstClass operand).Fits later.module.types type := by
    refine .inl (Eq.trans ?_ (fits_int kind 64).symm)
    rw [same]
    rfl
  apply (builds_pushContent laterReady has fits).imp
  rintro last value _ quiet ⟨⟨valueTyped, rfl⟩, content⟩
  refine ⟨isTruth_of_kind valueTyped ?_, register, ?_, inside, ?_⟩
  · rw [has.kind_eq quiet.module.types, kind]
  · rw [Value.operand_eq content, same]
    rfl
  · exact fills.of_blocks quiet.module.instructions

theorem builds_compared (ready : builder.Ready) (predicate : IntPredicate)
    (left right : Value) (name : String) :
    Builds builder (compareInt predicate left right name)
      fun later value => IsTruth later value ∧ later.module.Produces
        (.compareInt predicate left.operand right.operand) value.operand := by
  obtain ⟨index, cursor, -⟩ := ready.cursor
  refine (builds_comparedAt ready cursor predicate left right name).weaken ?_
  rintro later value ⟨truth, register, same, inside, fills⟩
  exact ⟨truth, register, same, fills.fills inside⟩

theorem builds_compareInt (ready : builder.Ready) (predicate : IntPredicate)
    (left right : Value) (name : String) :
    Builds builder (compareInt predicate left right name) IsTruth :=
  (builds_compared ready predicate left right name).weaken
    fun _ _ both => both.1

theorem builds_compareFloat (ready : builder.Ready)
    (predicate : FloatPredicate) (left right : Value) (name : String) :
    Builds builder (compareFloat predicate left right name) IsTruth := by
  unfold compareFloat
  apply (builds_atomic ready rfl).bind
  rintro typed type typedReady _ ⟨has, kind⟩
  have truth {operation : Build Value}
      (builds : Builds typed operation (Gives type)) :
      Builds typed operation IsTruth := by
    apply builds.imp
    rintro last value _ quiet ⟨valueTyped, rfl⟩
    apply isTruth_of_kind valueTyped
    rw [has.kind_eq quiet.module.types, kind]
  apply builds_attached_bind typedReady
  intro block cursor
  apply truth
  dsimp only
  split
  · exact builds_insertValue typedReady cursor rfl name has
      (.inl (fits_int kind 64).symm)
  · exact builds_constantUndef typedReady has

theorem builds_cast (ready : builder.Ready) (operator : CastOperator)
    {value : Value} (typed : value.Typed builder.module.types)
    {target : TypeId} (has : builder.module.types.Has target)
    (name : String) :
    Builds builder (cast operator value target name) (Gives target) := by
  unfold cast
  split
  · next same => exact Preserves.pure ready ⟨typed, same.2⟩
  · dsimp only
    apply (builds_lowerFirstClass? ready target).bind
    rintro later found laterReady _ ⟨types, lowers⟩
    rw [← types] at has lowers
    cases found with
    | none => exact builds_constantUndef laterReady has
    | some irType =>
        have target := lowers irType rfl
        have reuse (equal : (value.operand.type == irType) = true) :
            value.operand.type = lowered later.module.types loweringLevels _ :=
          (IrType.eq_of_equals _ _ equal).trans target
        dsimp only
        split
        · next equal =>
            exact builds_push laterReady has (.inl (reuse equal.2))
        · apply builds_attached_bind laterReady
          intro block cursor
          dsimp only
          split
          · next equal =>
              exact builds_push laterReady has (.inl (reuse equal))
          · exact builds_insertValue laterReady cursor rfl name has
              (.inl target)

theorem builds_bitcast (ready : builder.Ready) {value : Value}
    (typed : value.Typed builder.module.types) {target : TypeId}
    (has : builder.module.types.Has target) (name : String) :
    Builds builder (bitcast value target name) (Gives target) :=
  builds_cast ready .bitcast typed has name

/-! ## Memory -/

/-- A well-typed pointer to a type. -/
def PointsTo (pointee : TypeId) (builder : Builder) (value : Value) : Prop :=
  value.Typed builder.module.types ∧
    builder.module.types.pointee? value.type = some pointee

theorem Gives.pointsTo {type pointee : TypeId} {value : Value}
    (gives : Gives type later value) (has : builder.module.types.Has type)
    (kind : builder.module.types.kind type = .pointer pointee)
    (quiet : builder.Quiet later) : PointsTo pointee later value := by
  refine ⟨gives.1, ?_⟩
  rw [gives.2, TypeTable.pointee?, has.kind_eq quiet.module.types, kind]

theorem lowered_pointer {table : TypeTable} {type pointee : TypeId}
    (kind : table.kind type = .pointer pointee) (levels : Nat) :
    lowered table (levels + 1) type = .pointer := by
  rw [lowered, kind]

/-- The types of the table by then are those of the builder. -/
theorem builds_pointing (ready : builder.Ready) {pointee : TypeId}
    (has : builder.module.types.Has pointee)
    {next : TypeId → Build Value}
    (rest : ∀ later type, later.Ready → later.module.types.Has type →
      later.module.types.Has pointee →
      later.module.types.kind type = .pointer pointee →
      builder.Quiet later → Builds later (next type) (Gives type)) :
    Builds builder (onTypes (TypeTable.pointer pointee) >>= next)
      (PointsTo pointee) := by
  apply (builds_pointer ready has).bind
  rintro later type laterReady quiet ⟨hasPointer, kind⟩
  apply (rest later type laterReady hasPointer (has.mono quiet.module.types)
    kind quiet).imp
  intro last value _ lastQuiet gives
  exact gives.pointsTo hasPointer kind lastQuiet

/-- The address of a stack slot; there is no slot for a type that is not
first-class. -/
structure SlotFor (builder : Builder) (type : TypeId) (later : Builder)
    (value : Value) : Prop where
  points : PointsTo type later value
  produced :
    (lowered builder.module.types loweringLevels type).isFirstClass = true →
    later.module.Produces (.alloca (lowered builder.module.types
      loweringLevels type)) value.operand

theorem builds_slot (ready : builder.Ready) {type : TypeId}
    (has : builder.module.types.Has type) (name : String) :
    Builds builder (alloca type name) (SlotFor builder type) := by
  unfold alloca
  apply (builds_pointer ready has).bind
  rintro later pointer laterReady quiet ⟨hasPointer, kind⟩
  apply builds_attached_bind laterReady
  intro block cursor
  dsimp only
  apply (builds_onModule laterReady
    (Module.runs_lowerFirstClass? laterReady.sound type)).bind
  rintro last found lastReady lastQuiet ⟨types, lowering⟩
  rw [← types] at hasPointer kind
  rw [lowered_eq ready.sound.types quiet.module.types has] at lowering
  split at lowering
  · subst lowering
    have fits : (Operation.alloca (lowered builder.module.types
        loweringLevels type)).resultType =
        lowered last.module.types loweringLevels pointer :=
      (lowered_pointer kind 64).symm
    apply (builds_produced lastReady (lastQuiet.block.trans cursor) rfl name
      hasPointer (.inl fits)).imp
    intro final value _ finalQuiet both
    exact ⟨both.1.pointsTo hasPointer kind finalQuiet, fun _ => both.2⟩
  · next notFirstClass =>
      subst lowering
      apply (builds_constantUndef lastReady hasPointer).imp
      intro final value _ finalQuiet gives
      exact ⟨gives.pointsTo hasPointer kind finalQuiet,
        fun firstClass => absurd firstClass notFirstClass⟩

theorem builds_alloca (ready : builder.Ready) {type : TypeId}
    (has : builder.module.types.Has type) (name : String) :
    Builds builder (alloca type name) (PointsTo type) :=
  (builds_slot ready has name).weaken fun _ _ slot => slot.points

theorem isTerminator_of_isAlloca (operation : Operation)
    (slot : operation.isAlloca = true) : operation.isTerminator = false := by
  cases operation <;> simp_all [Operation.isAlloca, Operation.isTerminator]

theorem builds_entryAlloca (ready : builder.Ready) {type : TypeId}
    (has : builder.module.types.Has type) (name : String) :
    Builds builder (entryAlloca type name) (PointsTo type) := by
  unfold entryAlloca
  apply Preserves.get_bind
  split
  · exact builds_alloca ready has name
  · apply builds_pointing ready has
    intro later pointer laterReady hasPointer _ kind laterQuiet
    apply (builds_lowerFirstClass? laterReady type).bind
    rintro last found lastReady quiet ⟨types, -⟩
    rw [← types] at hasPointer kind
    have home : (⟨builder.function, 0⟩ : BlockId) = ⟨last.function, 0⟩ := by
      rw [quiet.function, laterQuiet.function]
    cases found with
    | none => exact builds_constantUndef lastReady hasPointer
    | some irType =>
        apply (builds_insertInstruction lastReady _ _ rfl _ (.inr home)
          (fun inner _ => Block.admits_leading isTerminator_of_isAlloca)
          (fun inner _ notFirst => absurd rfl notFirst)).bind
        rintro final register finalReady _ ⟨finalTypes, -, -⟩
        rw [← finalTypes] at hasPointer kind
        exact builds_push finalReady hasPointer (fits_pointer kind rfl)

/-- An operation that gives a well-typed value, if any. -/
abbrev MayBuild (builder : Builder) (operation : Build (Option Value)) :
    Prop :=
  Builds builder operation fun later found =>
    ∀ value ∈ found, value.Typed later.module.types

theorem mayBuild_none (ready : builder.Ready) :
    MayBuild builder (pure none) :=
  Preserves.pure ready (by simp)

theorem mayBuild_some {type : TypeId} {operation : Build Value}
    (builds : Builds builder operation (Gives type)) :
    MayBuild builder (some <$> operation) :=
  builds.map fun later result gives => by simpa using gives.1

/-- A value that was loaded; of a type that is not first-class there is
nothing to load. -/
structure LoadedAs (builder : Builder) (pointer : Value) (type : TypeId)
    (later : Builder) (value : Value) : Prop where
  gives : Gives type later value
  produced :
    (lowered builder.module.types loweringLevels type).isFirstClass = true →
    later.module.Produces (.load (lowered builder.module.types loweringLevels
      type) pointer.operand) value.operand

theorem builds_loaded (ready : builder.Ready) (pointer : Value)
    (name : String) :
    Builds builder (load pointer name) fun later found =>
      ∀ value ∈ found, ∃ type,
        builder.module.types.pointee? pointer.type = some type ∧
          LoadedAs builder pointer type later value := by
  unfold load
  apply builds_types_bind
  split
  · exact Preserves.pure ready (by simp)
  · next type pointee =>
      have has := ready.sound.types.pointee pointee
      apply builds_attached_bind ready
      intro block cursor
      dsimp only
      split
      · exact Preserves.pure ready (by simp)
      · apply (builds_onModule ready
          (Module.runs_lowerFirstClass? ready.sound type)).bind
        rintro later found laterReady quiet ⟨types, lowers⟩
        rw [← types] at has
        split at lowers
        · subst lowers
          have fits : (Operation.load (lowered builder.module.types
              loweringLevels type) pointer.operand).resultType =
              lowered later.module.types loweringLevels type := by
            rw [types]
            rfl
          refine (builds_produced laterReady (quiet.block.trans cursor)
            rfl name has (.inl fits)).map fun last result both => ?_
          rintro _ ⟨⟩
          exact ⟨type, pointee, both.1, fun _ => both.2⟩
        · next notFirstClass =>
            subst lowers
            refine (builds_constantUndef laterReady has).map
              fun last result gives => ?_
            rintro _ ⟨⟩
            exact ⟨type, pointee, gives,
              fun firstClass => absurd firstClass notFirstClass⟩

theorem builds_load (ready : builder.Ready) (pointer : Value)
    (name : String) : MayBuild builder (load pointer name) := by
  refine (builds_loaded ready pointer name).weaken
    fun later found loaded value member => ?_
  obtain ⟨type, -, as⟩ := loaded value member
  exact as.gives.1

theorem builds_store (ready : builder.Ready) (value pointer : Value) :
    Builds builder (store value pointer) fun _ _ => True := by
  unfold store
  apply builds_attached_bind ready
  intro block cursor
  dsimp only
  split
  · apply (builds_insert ready cursor rfl "").bind
    intro later _ laterReady _ _
    exact Preserves.pure laterReady trivial
  · exact Preserves.pure ready trivial

theorem walkIndices_has {table : TypeTable} (closed : table.Closed)
    {type reached : TypeId} (has : table.Has type) {indices : List Value}
    (walks : walkIndices table type indices = some reached) :
    table.Has reached := by
  induction indices generalizing type with
  | nil =>
      cases walks
      exact has
  | cons index indices ih =>
      unfold walkIndices at walks
      simp only at walks
      split at walks
      · cases walks
      · obtain ⟨element, found, rest⟩ := Option.bind_eq_some_iff.mp walks
        exact ih (closed.element found) rest

/-- The address of an element that indices reach. -/
structure AddressOf (builder : Builder) (base : Value) (indices : List Value)
    (pointee element : TypeId) (later : Builder) (value : Value) : Prop where
  pointsTo : builder.module.types.pointee? base.type = some pointee
  walks : walkIndices builder.module.types pointee (indices.drop 1) =
    some element
  points : PointsTo element later value
  produced : later.module.Produces (.elementPointer
    (lowered builder.module.types loweringLevels pointee) base.operand
    (indices.map Value.operand)) value.operand

theorem builds_address (ready : builder.Ready) (base : Value)
    (indices : List Value) (name : String) :
    Builds builder (elementPointer base indices name) fun later found =>
      ∀ value ∈ found, ∃ pointee element,
        AddressOf builder base indices pointee element later value := by
  unfold elementPointer
  apply builds_types_bind
  dsimp only
  split
  · exact Preserves.pure ready (by simp)
  · next pointee element reached =>
      obtain ⟨type, found, rest⟩ := Option.bind_eq_some_iff.mp reached
      obtain ⟨last, walks, same⟩ := Option.map_eq_some_iff.mp rest
      cases same
      have has := walkIndices_has ready.sound.types
        (ready.sound.types.pointee found) walks
      have hasPointee := ready.sound.types.pointee found
      apply (builds_pointer ready has).bind
      rintro middle type middleReady middleQuiet ⟨hasPointer, kind⟩
      apply builds_attached_bind middleReady
      intro block cursor
      dsimp only
      split
      · exact Preserves.pure middleReady (by simp)
      · apply (builds_lowerFirstClass? middleReady pointee).bind
        rintro later lowering laterReady quiet ⟨types, lowers⟩
        rw [← types] at hasPointer kind
        cases lowering with
        | none => exact Preserves.pure laterReady (by simp)
        | some irType =>
            obtain rfl : irType = lowered builder.module.types loweringLevels
                pointee :=
              (lowers irType rfl).trans (lowered_eq ready.sound.types
                middleQuiet.module.types hasPointee loweringLevels)
            dsimp only
            split
            · have fits : (Operation.elementPointer (lowered
                  builder.module.types loweringLevels pointee) base.operand
                  (indices.map Value.operand)).resultType =
                  lowered later.module.types loweringLevels type :=
                (lowered_pointer kind 64).symm
              have builds := builds_produced laterReady
                (quiet.block.trans cursor) rfl name hasPointer (.inl fits)
              refine (builds.imp fun final value _ finalQuiet both =>
                (⟨found, walks, both.1.pointsTo hasPointer kind finalQuiet,
                  both.2⟩ : AddressOf builder base indices pointee element
                    final value)).map ?_
              rintro final value address _ ⟨⟩
              exact ⟨pointee, element, address⟩
            · exact Preserves.pure laterReady (by simp)

theorem builds_elementPointer (ready : builder.Ready) (base : Value)
    (indices : List Value) (name : String) :
    MayBuild builder (elementPointer base indices name) := by
  refine (builds_address ready base indices name).weaken
    fun later found addresses value member => ?_
  obtain ⟨_, _, address⟩ := addresses value member
  exact address.points.1

/-- A number of some bits that is not negative is kept as it is. -/
theorem ofInt_natCast {bits number : Nat} (small : number < Nat.pow 2 bits) :
    Operand.ofInt (bits + 1) number = .int (bits + 1) number := by
  have double : Nat.pow 2 (bits + 1) = Nat.pow 2 bits * 2 :=
    Nat.pow_succ 2 bits
  unfold Operand.ofInt
  rw [double, Int.bmod_eq_of_le] <;> omega

theorem walkIndices_number {table : TypeTable} {type : TypeId}
    {index : Value} {bits number : Nat}
    (content : index.content = .firstClass (.int bits number)) :
    walkIndices table type [index] = table.element? type number := by
  have known : index.constantInt? = some (number : Int) := by
    rw [Value.constantInt?, content]
    rfl
  unfold walkIndices
  simp only [known, Option.getD_some, Int.toNat_natCast]
  rw [if_neg (Int.not_lt.mpr (Int.natCast_nonneg number))]
  cases table.element? type number <;> rfl

/-- The address of a field of a struct that a value points to. -/
structure FieldOf (builder : Builder) (base : Value) (field : Nat)
    (pointee element : TypeId) (later : Builder) (value : Value) : Prop where
  pointsTo : builder.module.types.pointee? base.type = some pointee
  reaches : later.module.types.element? pointee field = some element
  points : PointsTo element later value
  produced : later.module.Produces (.elementPointer
    (lowered builder.module.types loweringLevels pointee) base.operand
    [.int 32 0, .int 32 field]) value.operand

theorem builds_field (ready : builder.Ready) {base : Value}
    (typed : base.Typed builder.module.types) (field : Nat) (name : String) :
    Builds builder (fieldPointer base field name) fun later found =>
      ∀ value ∈ found, ∃ pointee element,
        FieldOf builder base field pointee element later value := by
  unfold fieldPointer
  apply (builds_word ready 0).bind
  rintro later zero laterReady quiet ⟨-, zeroContent⟩
  split
  · next small =>
      apply (builds_word laterReady field).bind
      rintro last index lastReady lastQuiet ⟨-, indexContent⟩
      rw [ofInt_natCast small] at indexContent
      have grows := quiet.module.types.trans lastQuiet.module.types
      apply (builds_address lastReady base [zero, index] name).imp
      intro final found _ finalQuiet addresses value member
      obtain ⟨pointee, element, address⟩ := addresses value member
      have pointsTo := address.pointsTo
      rw [typed.has.pointee_eq grows] at pointsTo
      have has := ready.sound.types.pointee pointsTo
      refine ⟨pointee, element, pointsTo, ?_, address.points, ?_⟩
      · have walks := address.walks
        rw [List.drop_one, List.tail_cons,
          walkIndices_number indexContent] at walks
        exact finalQuiet.module.types.element? walks
      · have produced := address.produced
        rwa [lowered_eq ready.sound.types grows has, List.map_cons,
          List.map_cons, List.map_nil, Value.operand_eq zeroContent,
          Value.operand_eq indexContent] at produced
  · exact Preserves.pure laterReady (by simp)

theorem builds_fieldPointer (ready : builder.Ready) (base : Value)
    (field : Nat) (name : String) :
    MayBuild builder (fieldPointer base field name) := by
  unfold fieldPointer
  apply (builds_constantI32 ready 0).bind
  intro later zero laterReady _ _
  split
  · apply (builds_constantI32 laterReady field).bind
    intro last index lastReady _ _
    exact builds_elementPointer lastReady base [zero, index] name
  · exact mayBuild_none laterReady

/-- A pointer that is taken for one to another type is the same address. -/
theorem builds_recast (ready : builder.Ready) {value : Value}
    (typed : value.Typed builder.module.types)
    (pointer : builder.module.types.isPointer value.type = true)
    {target pointee : TypeId} (has : builder.module.types.Has target)
    (kind : builder.module.types.kind target = .pointer pointee)
    (name : String) :
    Builds builder (bitcast value target name) fun later result =>
      Gives target later result ∧ result.operand = value.operand := by
  have address := (typed.operand_pointer pointer).2
  have lowers : lowered builder.module.types loweringLevels target =
      .pointer := lowered_pointer kind 64
  unfold bitcast cast
  split
  · next same => exact Preserves.pure ready ⟨⟨typed, same.2⟩, rfl⟩
  · dsimp only
    apply (builds_onModule ready
      (Module.runs_lowerFirstClass? ready.sound target)).bind
    rintro later found laterReady _ ⟨types, lowering⟩
    rw [lowers] at lowering
    simp only [IrType.isFirstClass, if_true] at lowering
    subst lowering
    rw [← types] at has kind
    have equal : (value.operand.type == IrType.pointer) = true := by
      rw [address]
      rfl
    dsimp only
    rw [if_pos ⟨rfl, equal⟩]
    apply (builds_pushContent laterReady has (fits_pointer kind address)).imp
    rintro last result _ _ ⟨gives, content⟩
    exact ⟨gives, Value.operand_eq content⟩

/-- The address a number of bytes further on. -/
theorem builds_offset (ready : builder.Ready) {base : Value}
    (typed : base.Typed builder.module.types)
    (pointer : builder.module.types.isPointer base.type = true)
    (offset : Nat) (name : String) :
    Builds builder (bytePointer base offset name) fun later found =>
      ∀ value ∈ found, value.Typed later.module.types ∧
        later.module.types.isPointer value.type = true ∧
        later.module.Produces (.elementPointer (.int 8) base.operand
          [.int 64 offset]) value.operand := by
  unfold bytePointer
  apply (builds_bytes ready).bind
  rintro typing target typingReady typingQuiet ⟨byte, has, kind, byteKind⟩
  have typingTyped := typed.mono ready.sound.types typingQuiet.module.types
  rw [TypeTable.isPointer, ← typed.has.pointee_eq typingQuiet.module.types]
    at pointer
  apply (builds_recast typingReady typingTyped pointer has kind "").bind
  rintro cast raw castReady castQuiet ⟨⟨rawTyped, rfl⟩, sameOperand⟩
  apply (builds_atomic castReady rfl).bind
  intro word type wordReady wordQuiet wordFound
  split
  · next small =>
      apply (builds_number wordReady wordFound offset).bind
      rintro last index lastReady lastQuiet ⟨-, indexContent⟩
      rw [ofInt_natCast small] at indexContent
      have grows := (castQuiet.module.types.trans
        wordQuiet.module.types).trans lastQuiet.module.types
      apply (builds_address lastReady raw [index] name).weaken
      intro final found addresses value member
      obtain ⟨pointee, element, address⟩ := addresses value member
      have pointsTo := address.pointsTo
      rw [has.pointee_eq grows, TypeTable.pointee?, kind] at pointsTo
      cases pointsTo
      refine ⟨address.points.1, ?_, ?_⟩
      · rw [TypeTable.isPointer, address.points.2]
        rfl
      · have produced := address.produced
        have hasByte : typing.module.types.Has byte :=
          TypeTable.has_of_kind (by rw [byteKind]; simp)
        rwa [lowered_eq typingReady.sound.types grows hasByte,
          show lowered typing.module.types loweringLevels byte = .int 8 from
            fits_int byteKind 64, sameOperand, List.map_cons, List.map_nil,
          Value.operand_eq indexContent] at produced
  · exact Preserves.pure wordReady (by simp)

theorem builds_offsetPointer (ready : builder.Ready) {base : Value}
    (typed : base.Typed builder.module.types) (offset : Nat)
    (name : String) : MayBuild builder (bytePointer base offset name) := by
  unfold bytePointer
  apply (builds_bytePointer ready).bind
  rintro middle pointer middleReady middleQuiet ⟨has, -⟩
  have middleTyped := typed.mono ready.sound.types middleQuiet.module.types
  apply (builds_bitcast middleReady middleTyped has "").bind
  intro later raw laterReady _ _
  apply (builds_atomic laterReady rfl).bind
  rintro last type lastReady _ ⟨hasWord, -⟩
  split
  · apply (builds_constantInt lastReady hasWord offset).bind
    intro final index finalReady _ _
    exact builds_elementPointer finalReady raw [index] name
  · exact mayBuild_none lastReady

/-! ## Calls -/

theorem calleeType?_eq_some {table : TypeTable} {callee : Value}
    {type : TypeId} {signature : TypeTable.Signature}
    (found : calleeType? table callee = some (type, signature)) :
    table.pointee? callee.type = some type ∧
      table.signature? type = some signature := by
  obtain ⟨pointee, pointeeFound, rest⟩ := Option.bind_eq_some_iff.mp found
  obtain ⟨last, signatureFound, same⟩ := Option.map_eq_some_iff.mp rest
  cases same
  exact ⟨pointeeFound, signatureFound⟩

/-- What a call gives fits the result type of its callee. -/
theorem fits_resultContent {table : TypeTable} {type : TypeId}
    {operand : Operand} {irType : IrType}
    (result : operand.type = lowered table boundaryLevels type)
    (lowers : irType = lowered table boundaryLevels type ∨
      irType = lowered table loweringLevels type) :
    (resultContent irType operand).Fits table type := by
  unfold resultContent
  split
  · exact .inr result
  · next outside =>
      rw [Bool.not_eq_true] at outside
      have notFirstClass :
          (lowered table boundaryLevels type).isFirstClass = false := by
        rcases lowers with rfl | rfl
        · exact outside
        · exact boundary_eq_false outside
      split <;> exact notFirstClass

/-- A call gives a value of the result type of its callee, if the callee is an
address. -/
theorem builds_callOf (ready : builder.Ready) {callee : Value} {type : TypeId}
    {signature : TypeTable.Signature}
    (found : calleeType? builder.module.types callee = some (type, signature))
    (arguments : List Value) (name : String) :
    Builds builder (call callee arguments name) fun later result =>
      (∀ value ∈ result, Gives signature.result later value) ∧
        (callee.operand.type.isPointer = true → result.isSome = true) := by
  obtain ⟨-, signatureFound⟩ := calleeType?_eq_some found
  have has := (ready.sound.types.signature signatureFound).1
  have gives {state : Builder} {operation : Build Value}
      (builds : Builds state operation (Gives signature.result)) :
      Builds state (some <$> operation) fun later result =>
        (∀ value ∈ result, Gives signature.result later value) ∧
          (callee.operand.type.isPointer = true → result.isSome = true) :=
    builds.map fun later result gives => by simpa using gives
  unfold call buildCall
  apply builds_types_bind
  rw [found]
  dsimp only
  apply builds_attached_bind ready
  intro block cursor
  dsimp only
  apply (builds_lower ready type).bind
  rintro middle irType middleReady quiet ⟨types, rfl⟩
  rw [show lowered builder.module.types loweringLevels type = _ from
    lowered_function signatureFound 64]
  dsimp only
  rw [← types] at has ⊢
  have middleCursor := quiet.block.trans cursor
  split
  · apply (builds_insert middleReady middleCursor rfl _).bind
    rintro inserted operand insertedReady _ ⟨insertedTypes, result⟩
    rw [← insertedTypes] at has result
    apply (builds_lower insertedReady signature.result).bind
    rintro later irType laterReady _ ⟨laterTypes, lowers⟩
    rw [← laterTypes] at has result lowers
    exact gives (builds_push laterReady has
      (fits_resultContent result (.inr lowers)))
  · split
    · apply (builds_insert middleReady middleCursor rfl _).bind
      rintro later operand laterReady _ ⟨laterTypes, result⟩
      rw [← laterTypes] at has result ⊢
      exact gives (builds_push laterReady has
        (fits_resultContent result (.inl rfl)))
    · next notPointer =>
        exact Preserves.pure middleReady ⟨by simp,
          fun isPointer => absurd isPointer notPointer⟩

theorem builds_call (ready : builder.Ready) (callee : Value)
    (arguments : List Value) (name : String) :
    MayBuild builder (call callee arguments name) := by
  cases found : calleeType? builder.module.types callee with
  | some called =>
      exact (builds_callOf ready found arguments name).weaken
        fun _ _ gives value member => (gives.1 value member).1
  | none =>
      unfold call buildCall
      apply builds_types_bind
      rw [found]
      exact mayBuild_none ready

theorem builds_vaArg (ready : builder.Ready) (list : Value) {type : TypeId}
    (has : builder.module.types.Has type) (name : String) :
    Builds builder (vaArg list type name) (Gives type) := by
  unfold vaArg
  apply builds_attached_bind ready
  intro block cursor
  dsimp only
  apply (builds_lowerFirstClass? ready type).bind
  rintro later found laterReady quiet ⟨types, lowers⟩
  rw [← types] at has lowers
  cases found with
  | none => exact builds_constantUndef laterReady has
  | some irType =>
      dsimp only
      split
      · exact builds_insertValue laterReady (quiet.block.trans cursor) rfl
          name has (.inl (lowers irType rfl))
      · exact builds_constantUndef laterReady has

/-! ## Phis and pads -/

/-- A phi was placed at the start of a block.  It fills a fresh register,
unless its type is not first-class. -/
structure PhiPlaced (builder : Builder) (block : BlockId) (type : TypeId)
    (later : Builder) (phi : Value) : Prop where
  gives : Gives type later phi
  fresh : ∀ register irType,
    phi.content = .firstClass (.register register irType) →
      register = ⟨block.function,
        (builder.module.function block.function).registerCount⟩ ∧
      register.index < (later.module.function block.function).registerCount
  /-- A block that was empty starts with the phi. -/
  leads : (lowered builder.module.types loweringLevels type).isFirstClass →
    ∀ name, builder.module.block? block = some ⟨name, []⟩ →
      ∃ register final, phi.content = .firstClass (.register register
          (lowered builder.module.types loweringLevels type)) ∧
        later.module.block? block = some ⟨name, [⟨register, final,
          .phi (lowered builder.module.types loweringLevels type) []⟩]⟩

theorem content_constantUndef (type : TypeId) (builder : Builder)
    (register : Register) (irType : IrType) :
    (constantUndef type builder).1.content ≠
      .firstClass (.register register irType) := by
  unfold constantUndef constant
  rw [stateM_bind_apply]
  generalize (onModule (Module.lower type) builder).1 = found
  cases found <;> nofun

theorem leading_pos {block : Block} (phi : block.phi?.isSome = true) :
    0 < block.leading Operation.isPhi := by
  unfold Block.phi? at phi
  unfold Block.leading
  cases instructions : block.instructions with
  | nil => simp [instructions] at phi
  | cons first rest =>
      simp [instructions] at phi
      simp [phi]

theorem builds_phiAtStart (ready : builder.Ready) {block : BlockId}
    (cursor : builder.block = some block) {type : TypeId}
    (has : builder.module.types.Has type) (name : String) :
    Builds builder (phiAtStart block type name)
      (PhiPlaced builder block type) := by
  unfold phiAtStart
  apply (builds_onModule_still ready
    (Module.runs_lowerFirstClass? ready.sound type)).bind
  rintro later found laterReady quiet ⟨⟨types, lowers⟩, still⟩
  split at lowers
  · subst lowers
    apply (builds_insertInstruction laterReady block _ rfl _
      (.inl (quiet.block.trans cursor))
      (fun inner _ => Block.admits_leading fun _ => isTerminator_of_isPhi)
      (fun inner _ _ => leading_pos)).bind
    rintro middle register middleReady _ ⟨middleTypes, fills, placed⟩
    apply (builds_onModule_still middleReady
      (Module.runs_pushValue middleReady.sound _ type)).imp
    rintro last phi _ _ ⟨⟨lastTypes, phiType, content⟩, lastStill⟩
    have sameTypes := lastTypes.trans (middleTypes.trans types)
    obtain ⟨index, stands, known⟩ := ready.cursor
    cases stands.symm.trans cursor
    obtain ⟨inner, innerFound⟩ := Option.isSome_iff_exists.mp known
    obtain ⟨bounded, final, blockFound⟩ :=
      placed inner ((still.block? _).trans innerFound)
    rw [(still.bodies _).2] at fills
    refine ⟨⟨⟨?_, ?_⟩, phiType⟩, ?_, ?_⟩
    · rw [sameTypes, phiType]
      exact has
    · rw [sameTypes, phiType, content]
      exact .inl rfl
    · intro other irType same
      cases content.symm.trans same
      refine ⟨fills, ?_⟩
      rw [(lastStill.bodies _).2]
      exact bounded
    · intro _ blockName empty
      cases innerFound.symm.trans empty
      refine ⟨register, final, content, ?_⟩
      rw [lastStill.block?, blockFound]
      rfl
  · next outside =>
      subst lowers
      rw [← types] at has
      have builds := builds_constantUndef laterReady has
      refine ⟨builds.holds, builds.follows, builds.good, ?_, ?_⟩
      · intro register irType same
        exact absurd same (content_constantUndef type later register irType)
      · intro firstClass
        exact absurd firstClass outside

theorem builds_landingPadType (ready : builder.Ready) :
    Builds builder landingPadType fun later type =>
      later.module.types.Has type := by
  unfold landingPadType
  apply (builds_bytePointer ready).bind
  rintro middle pointer middleReady _ ⟨hasPointer, -⟩
  apply (builds_atomic middleReady rfl).bind
  rintro later selector laterReady quiet ⟨hasSelector, -⟩
  have hasBoth : ∀ part ∈ (TypeKind.struct [pointer, selector]).parts,
      later.module.types.Has part := by
    simpa [TypeKind.parts] using
      ⟨hasPointer.mono quiet.module.types, hasSelector⟩
  exact (builds_onTypes laterReady (TypeTable.yields_intern
    laterReady.sound.types hasBoth)).weaken fun _ _ found => found.1

theorem builds_landingPad (ready : builder.Ready) (cleanup : Bool)
    (clauses : List Value) (name : String) :
    Builds builder (landingPad cleanup clauses name) fun later value =>
      value.Typed later.module.types := by
  unfold landingPad
  apply (builds_landingPadType ready).bind
  intro middle type middleReady _ has
  apply builds_attached_bind middleReady
  intro block cursor
  dsimp only
  apply (builds_lowerFirstClass? middleReady type).bind
  rintro later found laterReady quiet ⟨types, lowers⟩
  rw [← types] at has lowers
  cases found with
  | none =>
      exact (builds_constantUndef laterReady has).weaken
        fun _ _ gives => gives.1
  | some irType =>
      refine Preserves.weaken (builds_insertValue laterReady
        (quiet.block.trans cursor) rfl name has ?_) fun _ _ gives => gives.1
      exact .inl (lowers irType rfl)

theorem builds_insertPad (ready : builder.Ready) {operation : Operation}
    (notEnding : operation.isTerminator = false) (name : String) :
    Builds builder (insertPad operation name) fun later value =>
      value.Typed later.module.types := by
  unfold insertPad
  apply (builds_atomic ready rfl).bind
  rintro middle type middleReady _ ⟨has, kind⟩
  apply builds_attached_bind middleReady
  intro block cursor
  apply (builds_insert middleReady cursor notEnding _).bind
  rintro later operand laterReady _ ⟨types, -⟩
  rw [← types] at has kind
  refine Preserves.weaken (builds_push laterReady has ?_)
    fun _ _ gives => gives.1
  show (lowered later.module.types (63 + 1) type).isFirstClass = false
  rw [lowered, kind]
  rfl

end Builder

end FormCompiler.Ir
