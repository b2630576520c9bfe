import FormCompiler.Proofs.Building
import FormCompiler.Proofs.Drafts
import FormCompiler.Proofs.StatefulRuns

/-!
# Building as a trace

A builder is steady while its function has a first block, and while it stands
ahead of the end of a block only where the block is terminated.  From a steady
builder on, every operation that builds something is a trace of steps, and it
leaves the builder steady where it was.
-/

namespace FormCompiler

open Ir

/-! ## Terminated blocks -/

namespace Ir.Block

variable {block : Block}

/-- A terminator stays the last instruction when something is inserted ahead
of it. -/
theorem isTerminated_insertAt {position : Nat}
    (terminated : block.isTerminated = true)
    (inside : position < block.instructions.length)
    (instruction : Instruction) :
    (block.insertAt position instruction).isTerminated = true := by
  have nonempty : block.instructions.drop position ≠ [] := by
    simpa using inside
  have last : (block.insertAt position instruction).instructions.getLast? =
      block.instructions.getLast? := by
    unfold insertAt
    rw [List.getLast?_append_of_ne_nil _ (by simp),
      List.getLast?_cons_of_ne_nil nonempty, List.getLast?_drop,
      if_neg (by omega)]
  unfold isTerminated terminator? at terminated ⊢
  rw [last]
  exact terminated

theorem isTerminated_insertAt_leading {isKind : Operation → Bool}
    (quiet : ∀ operation, isKind operation = true →
      operation.isTerminator = false)
    (terminated : block.isTerminated = true) (instruction : Instruction) :
    (block.insertAt (block.leading isKind) instruction).isTerminated =
      true :=
  isTerminated_insertAt terminated
    ((admits_leading quiet).2 terminated) instruction

theorem isTerminated_rephi (register : Register)
    {change : Operation → Operation} (changes : ChangesPhis change) :
    (block.rephi register change).isTerminated = block.isTerminated := by
  unfold isTerminated terminator? Block.rephi
  simp only [List.getLast?_map]
  cases block.instructions.getLast? with
  | none => rfl
  | some last =>
      simp only [Option.map_some, Instruction.rephi_isTerminator changes]
      split
      · rfl
      · rfl

end Ir.Block

/-! ## Steady builders -/

namespace Ir.Builder

variable {builder later last : Builder} {block : BlockId} {events : List Event}

/-- The draft that a builder works on. -/
def draft (literals : LiteralPool) (builder : Builder) : Draft :=
  ⟨builder.module, literals⟩

structure Steady (builder : Builder) : Prop where
  entered : (builder.module.block? ⟨builder.function, 0⟩).isSome = true
  ends : builder.beforeTerminator = true → ∀ block,
    builder.block = some block → builder.isTerminatedBlock block = true

/-- From a steady builder on, what happens is a trace and leaves the builder
steady. -/
def Advances (builder later : Builder) : Prop :=
  builder.Steady → later.Steady ∧ ∃ events, ∀ literals,
    Draft.Trace (builder.draft literals) events (later.draft literals)

instance : Std.Refl Advances :=
  ⟨fun _ steady => ⟨steady, [], fun _ => .done⟩⟩

instance : Trans Advances Advances Advances := ⟨by
  intro builder middle later first second steady
  obtain ⟨middleSteady, events, trace⟩ := first steady
  obtain ⟨laterSteady, more, moreTrace⟩ := second middleSteady
  exact ⟨laterSteady, events ++ more,
    fun literals => (trace literals).trans (moreTrace literals)⟩⟩

/-- The same with the builder at the block where it was. -/
structure Drafts (builder later : Builder) : Prop where
  block : later.block = builder.block
  traces : builder.Advances later

instance : Std.Refl Drafts := ⟨fun builder => ⟨rfl, Std.Refl.refl builder⟩⟩

instance : Trans Drafts Drafts Drafts :=
  ⟨fun first second => ⟨second.block.trans first.block,
    Trans.trans first.traces second.traces⟩⟩

theorem isTerminatedBlock_eq_true :
    builder.isTerminatedBlock block = true ↔
      ∃ found, builder.module.block? block = some found ∧
        found.isTerminated = true := by
  unfold isTerminatedBlock
  cases builder.module.block? block <;> simp

/-- One step that leaves the builder where it is. -/
theorem drafts_of_step {module : Module} {events : List Event}
    (step : ∀ literals, Draft.Step (builder.draft literals) events
      ⟨module, literals⟩)
    (ends : builder.beforeTerminator = true → ∀ block found final,
      builder.block = some block → builder.module.block? block = some found →
      module.block? block = some final → found.isTerminated = true →
      final.isTerminated = true) :
    builder.Drafts { builder with module } := by
  refine ⟨rfl, fun steady => ⟨⟨(step {}).known steady.entered,
    fun before block placed => ?_⟩, events,
      fun literals => .single (step literals)⟩⟩
  obtain ⟨found, there, terminated⟩ :=
    isTerminatedBlock_eq_true.mp (steady.ends before block placed)
  obtain ⟨final, laterThere, -⟩ := (step {}).turns there
  exact isTerminatedBlock_eq_true.mpr ⟨final, laterThere,
    ends before block found final placed there laterThere terminated⟩

/-- A trace that leaves all blocks as they are. -/
theorem drafts_of_still {module : Module}
    (trace : ∀ literals, Draft.Trace (builder.draft literals) []
      ⟨module, literals⟩)
    (blocks : ∀ id block, builder.module.block? id = some block →
      module.block? id = some block) :
    builder.Drafts { builder with module } := by
  refine ⟨rfl, fun steady => ⟨⟨(trace {}).known steady.entered,
    fun before block placed => ?_⟩, [], trace⟩⟩
  obtain ⟨found, there, terminated⟩ :=
    isTerminatedBlock_eq_true.mp (steady.ends before block placed)
  exact isTerminatedBlock_eq_true.mpr
    ⟨found, blocks block found there, terminated⟩

/-- The builder may go to another place in its function. -/
theorem advances_of_moved (module : later.module = builder.module)
    (function : later.function = builder.function)
    (ends : later.beforeTerminator = true → ∀ block,
      later.block = some block → builder.isTerminatedBlock block = true) :
    builder.Advances later := by
  intro steady
  have draft (literals : LiteralPool) :
      later.draft literals = builder.draft literals := by
    rw [Builder.draft, Builder.draft, module]
  refine ⟨⟨?_, fun before block placed => ?_⟩, [], fun literals => ?_⟩
  · rw [module, function]
    exact steady.entered
  · have terminated := ends before block placed
    unfold isTerminatedBlock at terminated ⊢
    rw [module]
    exact terminated
  · rw [draft]
    exact .done

theorem advances_positionAtEnd (block : BlockId) :
    Relates Advances (positionAtEnd block) :=
  fun _ => advances_of_moved rfl rfl nofun

theorem advances_positionBeforeTerminator (block : BlockId) :
    Relates Advances (positionBeforeTerminator block) := by
  refine fun builder => advances_of_moved rfl rfl ?_
  rintro before _ ⟨⟩
  exact before

/-! ## The module around the blocks -/

variable {Result Other : Type}

/-- Types, bodies of structs, symbols and values. -/
theorem drafts_furnish {operation : StateM Module Result}
    (functions : ∀ module, (operation module).2.functions = module.functions)
    (globals : ∀ module, (operation module).2.globals = module.globals) :
    Relates Drafts (onModule operation) :=
  fun _ => drafts_of_still
    (fun _ => .single (.furnish (functions _) (globals _))) fun id _ there => (Draft.block?_of_functions_eq (functions _) id).trans
      there

theorem drafts_onTypes (operation : StateM TypeTable Result) :
    Relates Drafts (onTypes operation) :=
  drafts_furnish (fun _ => rfl) fun _ => rfl

theorem drafts_lower (type : TypeId) :
    Relates Drafts (onModule (Module.lower type)) :=
  drafts_furnish (fun _ => rfl) fun _ => rfl

theorem drafts_lowerFirstClass? (type : TypeId) :
    Relates Drafts (onModule (Module.lowerFirstClass? type)) :=
  drafts_furnish (fun _ => rfl) fun _ => rfl

theorem drafts_push (content : Content) (type : TypeId) :
    Relates Drafts (push content type) :=
  drafts_furnish (fun _ => rfl) fun _ => rfl

theorem drafts_modifyFunction (id : FunctionId) {change : Function → Function}
    (blocks : ∀ function, (change function).blocks = function.blocks) :
    Relates Drafts (onModule (Module.modifyFunction id change)) :=
  fun _ => drafts_of_still (fun _ => .single (.label id blocks))
    fun place _ there => (Draft.block?_modifyFunction _ blocks place).trans
      there

theorem drafts_setParameterName (id : FunctionId) (index : Nat)
    (name : String) :
    Relates Drafts (onModule (Module.setParameterName id index name)) := by
  refine drafts_modifyFunction id fun function => ?_
  split
  · dsimp only
    split <;> rfl
  · rfl

theorem drafts_addAttributes (id : FunctionId)
    (attributes : List Attribute) :
    Relates Drafts (onModule (Module.addAttributes id attributes)) :=
  drafts_modifyFunction id fun _ => rfl

theorem drafts_setPersonality (id personality : FunctionId) :
    Relates Drafts (onModule (Module.setPersonality id personality)) :=
  drafts_modifyFunction id fun _ => rfl

theorem drafts_addFunction (name : String) (type : TypeId)
    (linkage : Linkage) :
    Relates Drafts (onModule (Module.addFunction name type linkage)) :=
  fun builder => drafts_of_still
    (fun literals => Draft.trace_addFunction (builder.draft literals) name type
      linkage)
    fun _ _ there => Module.block?_addFunction there name type linkage

theorem drafts_appendBlock (name : String) :
    Relates Drafts (appendBlock name) := by
  refine .get_bind fun seen builder =>
    drafts_of_still (fun _ => .single (.append seen.function name))
      fun id block there => ?_
  show (Module.modifyFunction seen.function _ builder.module).2.block? id = _
  rw [Module.block?_eq, Module.function_modifyFunction]
  split
  · exact (List.getElem?_append_left
      (List.getElem?_eq_some_iff.mp there).1).trans there
  · exact there

/-- A function that got a block has a first block. -/
theorem isSome_entry_appendBlock {module : Module} {function : FunctionId}
    (known : function < module.functions.length) (name : String) :
    ((Module.appendBlock function name module).2.block?
      ⟨function, 0⟩).isSome = true := by
  have blocks : ∃ block, ((Module.appendBlock function name module).2.function
      function).blocks = (module.function function).blocks ++ [block] :=
    ⟨_, congrArg Function.blocks ((Module.function_modifyFunction module
      function _ function).trans (if_pos ⟨rfl, known⟩))⟩
  obtain ⟨block, blocks⟩ := blocks
  rw [Module.block?_eq, blocks]
  cases (module.function function).blocks <;> rfl

theorem drafts_addEnvironment (number : Nat) (type : TypeId)
    (initializer : Initializer) :
    Relates Drafts (onModule (Module.addGlobal
      s!"__edn.closure.env.{number}" type (some initializer) false
        .unlisted)) :=
  fun _ => drafts_of_still
    (fun _ => .single (.environment number type initializer))
    fun id _ there => (Draft.block?_of_functions_eq
      (Module.functions_addGlobal _ _ _ _ _ _) id).trans there

/-! ## Operations at a block -/

/-- Relations to later builders that are at the same block. -/
class Stays (Changes : Builder → Builder → Prop) : Prop where
  block : ∀ {builder later : Builder}, Changes builder later →
    later.block = builder.block

instance : Stays Drafts := ⟨fun drafts => drafts.block⟩

/-- What an operation does where the builder is at a block. -/
def RelatesAt (block : BlockId) (Changes : Builder → Builder → Prop)
    (operation : Build Result) : Prop :=
  ∀ builder : Builder, builder.block = some block →
    Changes builder (operation builder).2

variable {Changes : Builder → Builder → Prop} {operation : Build Result}

namespace RelatesAt

variable {next : Result → Build Other}

theorem of_relates (relates : Relates Changes operation) :
    RelatesAt block Changes operation :=
  fun builder _ => relates builder

theorem map (relates : RelatesAt block Changes operation)
    (change : Result → Other) :
    RelatesAt block Changes (change <$> operation) :=
  relates

theorem ite {condition : Prop} [Decidable condition]
    {other : Build Result} (holds : RelatesAt block Changes operation)
    (fails : RelatesAt block Changes other) :
    RelatesAt block Changes (if condition then operation else other) := by
  split
  · exact holds
  · exact fails

theorem bind [Trans Changes Changes Changes] [Stays Changes]
    (first : RelatesAt block Changes operation)
    (rest : ∀ result, RelatesAt block Changes (next result)) :
    RelatesAt block Changes (operation >>= next) := by
  intro builder placed
  have early := first builder placed
  exact Trans.trans early (rest _ _ ((Stays.block early).trans placed))

end RelatesAt

theorem attached_of_block (placed : builder.block = some block) :
    attached builder = (some block, builder) := by
  unfold attached
  rw [stateM_get_bind, placed]
  rfl

theorem attached_of_none (missing : builder.block = none) :
    attached builder =
      (none, { builder with detached := builder.detached + 1 }) := by
  obtain ⟨module, function, _, beforeTerminator, detached⟩ := builder
  subst missing
  rfl

/-- Building at the current block, if there is one. -/
theorem relates_attached [Trans Changes Changes Changes]
    (counts : ∀ builder : Builder,
      Changes builder { builder with detached := builder.detached + 1 })
    {next : Option BlockId → Build Result}
    (without : Relates Changes (next none))
    (within : ∀ block, RelatesAt block Changes (next (some block))) :
    Relates Changes (attached >>= next) := by
  intro builder
  rw [stateM_bind_apply]
  cases placed : builder.block with
  | some block =>
      rw [attached_of_block placed]
      exact within block builder placed
  | none =>
      rw [attached_of_none placed]
      exact Trans.trans (counts builder) (without _)

theorem drafts_counted (builder : Builder) :
    builder.Drafts { builder with detached := builder.detached + 1 } :=
  ⟨rfl, fun steady => ⟨⟨steady.entered, steady.ends⟩, [], fun _ => .done⟩⟩

/-! ## Insertion -/

/-- Where the cursor is in its block. -/
def cursor (builder : Builder) (block : Block) : Nat :=
  block.instructions.length - if builder.beforeTerminator then 1 else 0

theorem Steady.atCursor (steady : builder.Steady)
    (placed : builder.block = some block) (literals : LiteralPool) :
    (builder.draft literals).AtCursor block builder.cursor := by
  intro found there
  cases before : builder.beforeTerminator with
  | false => exact .inl (by simp [cursor, before])
  | true =>
      obtain ⟨same, sameThere, terminated⟩ :=
        isTerminatedBlock_eq_true.mp (steady.ends before block placed)
      cases sameThere.symm.trans there
      exact .inr ⟨terminated, by simp [cursor, before]⟩

/-- Inserting at the cursor keeps the end of the block. -/
theorem drafts_insert_of_step (placed : builder.block = some block)
    {operation : Operation} {name : String} {events : List Event}
    (step : ∀ literals, Draft.Step (builder.draft literals) events
      ((builder.draft literals).inserted block builder.cursor operation
        name)) :
    builder.Drafts (insert block operation name builder).2 := by
  refine drafts_of_step step ?_
  intro before here same final isHere sameThere later terminated
  cases isHere.symm.trans placed
  obtain ⟨_, inserts⟩ := Module.block?_insertInstruction builder.cursor
    operation name sameThere
  cases later.symm.trans inserts
  refine Block.isTerminated_insertAt terminated ?_ _
  have inside := (Block.admits_before_end terminated).2 terminated
  simpa [cursor, before] using inside

theorem drafts_insert (block : BlockId) {operation : Operation}
    (other : operation.isPhi = false) (name : String) :
    RelatesAt block Drafts (insert block operation name) :=
  fun _ placed => ⟨rfl, fun steady => (drafts_insert_of_step placed
    fun literals => .insert block name other
      (steady.atCursor placed literals)).traces steady⟩

/-- What opens a block with others of its kind leaves terminators alone. -/
theorem drafts_leading {block : BlockId} {operation : Operation}
    {isKind : Operation → Bool} {name : String} {events : List Event}
    (quiet : ∀ operation, isKind operation = true →
      operation.isTerminator = false)
    (step : ∀ literals, Draft.Step (builder.draft literals) events
      ((builder.draft literals).inserted block (·.leading isKind) operation
        name)) :
    builder.Drafts (onModule (Module.insertInstruction block
      (·.leading isKind) operation name) builder).2 := by
  refine drafts_of_step step ?_
  intro _ place found final _ there later terminated
  by_cases here : place = block
  · subst here
    obtain ⟨_, inserts⟩ := Module.block?_insertInstruction
      (·.leading isKind) operation name there
    cases later.symm.trans inserts
    exact Block.isTerminated_insertAt_leading quiet terminated _
  · have same := Module.block?_insertInstruction_of_ne builder.module block
      (·.leading isKind) operation name here
    cases later.symm.trans (same.trans there)
    exact terminated

/-- The register that the next instruction of the function fills. -/
def nextRegister (builder : Builder) : Register :=
  ⟨builder.function, builder.currentFunction.registerCount⟩

/-- A slot in the first block of the function. -/
theorem drafts_slot (entered : (builder.module.block?
      ⟨builder.function, 0⟩).isSome = true) (type : IrType) (name : String) :
    builder.Drafts (onModule (Module.insertInstruction ⟨builder.function, 0⟩
      (·.leading Operation.isAlloca) (.alloca type) name) builder).2 := by
  have step (literals : LiteralPool) : Draft.Step (builder.draft literals)
      [.slot builder.nextRegister type] ((builder.draft literals).inserted
        ⟨builder.function, 0⟩ (·.leading Operation.isAlloca) (.alloca type)
        name) :=
    .slot type name entered
  exact drafts_leading isTerminator_of_isAlloca step

theorem drafts_phi (block : BlockId) (type : IrType) (name : String) :
    Relates Drafts (onModule (Module.insertInstruction block
      (·.leading Operation.isPhi) (.phi type []) name)) :=
  fun _ => drafts_leading (fun _ => isTerminator_of_isPhi)
    fun _ => .phi block type name

theorem drafts_amend (register : Register) {change : Operation → Operation}
    (changes : ChangesPhis change) :
    Relates Drafts (onModule (Module.modifyOperation register change)) := by
  intro builder
  refine drafts_of_step (fun _ => .amend register changes) ?_
  intro _ place found final _ there later terminated
  cases later.symm.trans (Draft.block?_modifyOperation there register change)
  split
  · rw [Block.isTerminated_rephi register changes]
    exact terminated
  · exact terminated

end Ir.Builder

end FormCompiler
