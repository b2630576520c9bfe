import FormCompiler.Emit.Configuration
import FormCompiler.Proofs.Lowering
import FormCompiler.Proofs.PlainBuilding

/-!
# Where exceptions and branches lead

A block that exceptions continue in is opened by a pad.  In a guarded module
every call that may unwind does so to such a block of its own function, and no
branch leads to one; pads, and what ends them, are those of the personality.

Whatever is added to a guarded module leaves it guarded if it fits there and
pads are put into new blocks only.
-/

namespace FormCompiler.Ir

namespace Operation

/-- Operations that open a block which exceptions continue in. -/
def isPad : Operation → Bool
  | .landingPad .. | .catchSwitch .. | .cleanupPad .. => true
  | _ => false

def isCleanup : Operation → Bool
  | .cleanupPad .. => true
  | _ => false

/-- The blocks that are reached without an exception. -/
def leadsTo : Operation → List BlockId
  | .branch target => [target]
  | .branchIf _ thenTarget elseTarget => [thenTarget, elseTarget]
  | .invoke _ _ _ _ _ normal _ => [normal]
  | .catchReturn _ target => [target]
  | _ => []

/-- The block that an exception of a call continues in. -/
def unwindsTo : Operation → Option BlockId
  | .invoke _ _ _ _ _ _ unwind => some unwind
  | _ => none

/-- Whether an operation may be used under a personality. -/
def allowedUnder (personality : Option Personality) : Operation → Bool
  | .invoke .. => personality.isSome
  | .landingPad .. | .resume _ => personality = some .itanium
  | .catchSwitch .. | .catchPad .. | .catchReturn .. | .cleanupPad ..
  | .cleanupReturn .. => personality = some .seh
  | _ => true

/-- An operation of a personality that leads to no other block. -/
structure PassesOn (personality : Personality) (operation : Operation) :
    Prop where
  allowed : operation.allowedUnder (some personality) = true
  leads : operation.leadsTo = []
  unwinds : operation.unwindsTo = none

variable {operation : Operation}

theorem not_isPlain_of_isPad (pad : operation.isPad = true) :
    operation.isPlain = false := by
  cases operation <;> simp_all [isPad, isPlain]

theorem isPad_of_isCleanup (cleanup : operation.isCleanup = true) :
    operation.isPad = true := by
  cases operation <;> simp_all [isPad, isCleanup]

end Operation

namespace Module

variable {personality : Option Personality} {module later last : Module}
  {added : List (BlockId × Operation)} {id : BlockId} {operation : Operation}

/-- Exceptions continue in a block. -/
def IsPad (module : Module) (id : BlockId) : Prop :=
  ∃ operation, operation.isPad = true ∧ module.Performs id operation

/-- A block is there that exceptions do not continue in. -/
def IsTarget (module : Module) (id : BlockId) : Prop :=
  (module.block? id).isSome = true ∧ ¬module.IsPad id

/-- A block cleans up after exceptions that pass through. -/
def IsCleanup (module : Module) (id : BlockId) : Prop :=
  ∃ operation, operation.isCleanup = true ∧ module.Performs id operation

/-- An operation of a block is one of the personality and leads where it
should. -/
structure Fits (personality : Option Personality) (module : Module)
    (id : BlockId) (operation : Operation) : Prop where
  allowed : operation.allowedUnder personality = true
  unwinds : ∀ target, operation.unwindsTo = some target →
    target.function = id.function ∧ module.IsPad target
  leads : ∀ target ∈ operation.leadsTo, module.IsTarget target

/-- Every operation of a module fits. -/
def Guarded (personality : Option Personality) (module : Module) : Prop :=
  ∀ id operation, module.Performs id operation →
    module.Fits personality id operation

/-- Pads stay, and what is no pad does not become one. -/
structure Respects (module later : Module) : Prop where
  pads : ∀ id, module.IsPad id → later.IsPad id
  opens : ∀ id, module.IsTarget id → later.IsTarget id

theorem Respects.refl (module : Module) : module.Respects module :=
  ⟨fun _ pad => pad, fun _ isTarget => isTarget⟩

theorem Respects.trans (first : module.Respects later)
    (second : later.Respects last) : module.Respects last :=
  ⟨fun id pad => second.pads id (first.pads id pad),
    fun id isTarget => second.opens id (first.opens id isTarget)⟩

theorem Fits.mono (fits : module.Fits personality id operation)
    (respects : module.Respects later) :
    later.Fits personality id operation := by
  refine ⟨fits.allowed, fun target unwinds => ?_, fun target leads => ?_⟩
  · exact (fits.unwinds target unwinds).imp_right (respects.pads target)
  · exact respects.opens target (fits.leads target leads)

theorem Fits.of_isPlain (plain : operation.isPlain = true) :
    module.Fits personality id operation := by
  constructor
  · cases operation <;> simp_all [Operation.isPlain, Operation.allowedUnder]
  · cases operation <;> simp_all [Operation.isPlain, Operation.unwindsTo]
  · cases operation <;> simp_all [Operation.isPlain, Operation.leadsTo]

theorem Fits.of_passesOn {personality : Personality}
    (passesOn : operation.PassesOn personality) :
    module.Fits (some personality) id operation := by
  refine ⟨passesOn.allowed, fun target unwinds => ?_, fun target leads => ?_⟩
  · rw [passesOn.unwinds] at unwinds
    cases unwinds
  · rw [passesOn.leads] at leads
    cases leads

theorem Flows.isPad (flows : module.Flows added later)
    (pad : module.IsPad id) : later.IsPad id := by
  obtain ⟨operation, isPad, performs⟩ := pad
  exact ⟨operation, isPad,
    flows.kept (Operation.not_isPlain_of_isPad isPad) performs⟩

/-- Pads that are put into other blocks. -/
theorem Flows.isTarget (flows : module.Flows added later)
    (isTarget : module.IsTarget id)
    (apart : ∀ entry ∈ added, entry.2.isPad = true → entry.1 ≠ id) :
    later.IsTarget id := by
  refine ⟨flows.known isTarget.1, ?_⟩
  rintro ⟨operation, pad, performs⟩
  rcases flows.new (Operation.not_isPlain_of_isPad pad) performs
    with old | new
  · exact isTarget.2 ⟨operation, pad, old⟩
  · exact apart _ new pad rfl

/-- Pads that are put into new blocks. -/
theorem Flows.respects (flows : module.Flows added later)
    (fresh : ∀ entry ∈ added, entry.2.isPad = true →
      module.block? entry.1 = none) : module.Respects later := by
  refine ⟨fun id => flows.isPad, fun id isTarget => flows.isTarget isTarget ?_⟩
  rintro entry member pad rfl
  have known := isTarget.1
  rw [fresh entry member pad] at known
  cases known

/-- What fits may be added. -/
theorem Guarded.flows (guarded : module.Guarded personality)
    (flows : module.Flows added later) (respects : module.Respects later)
    (fits : ∀ entry ∈ added, later.Fits personality entry.1 entry.2) :
    later.Guarded personality := by
  intro id operation performs
  cases plain : operation.isPlain with
  | true => exact .of_isPlain plain
  | false =>
      rcases flows.new plain performs with old | new
      · exact (guarded id operation old).mono respects
      · exact fits _ new

/-- Blocks that clean up are old ones unless one is added. -/
theorem Flows.isCleanup (flows : module.Flows added later)
    (cleanup : later.IsCleanup id) :
    module.IsCleanup id ∨
      ∃ operation, (id, operation) ∈ added ∧ operation.isCleanup = true := by
  obtain ⟨operation, isCleanup, performs⟩ := cleanup
  have notPlain := Operation.not_isPlain_of_isPad
    (Operation.isPad_of_isCleanup isCleanup)
  exact (flows.new notPlain performs).imp
    (fun old => ⟨operation, isCleanup, old⟩)
    fun new => ⟨operation, new, isCleanup⟩

/-- A block that is added is new. -/
theorem block?_appendBlock (module : Module) (function : FunctionId)
    (name : String) :
    module.block? (appendBlock function name module).1 = none := by
  rw [block?_eq]
  exact List.getElem?_eq_none (Nat.le_refl _)

/-- A block that is added has no instructions. -/
theorem block?_appendBlock_self {function : FunctionId}
    (known : function < module.functions.length) (name : String) :
    ∃ block, (appendBlock function name module).2.block?
      (appendBlock function name module).1 = some block ∧
        block.instructions = [] := by
  have later : ∃ block, ((appendBlock function name module).2.function
      function).blocks = (module.function function).blocks ++ [block] ∧
        block.instructions = [] := by
    refine ⟨_, congrArg Function.blocks ((function_modifyFunction module
      function _ function).trans (if_pos ⟨rfl, known⟩)), rfl⟩
  obtain ⟨block, blocks, empty⟩ := later
  refine ⟨block, ?_, empty⟩
  rw [block?_eq]
  show ((appendBlock function name module).2.function
    function).blocks[(module.function function).blocks.length]? = _
  rw [blocks]
  exact List.getElem?_concat_length

theorem appendBlock_isTarget {function : FunctionId}
    (known : function < module.functions.length) (name : String) :
    (appendBlock function name module).2.IsTarget
      (appendBlock function name module).1 := by
  obtain ⟨block, found, empty⟩ := block?_appendBlock_self known name
  refine ⟨by rw [found]; rfl, ?_⟩
  rintro ⟨operation, -, inner, performs, instruction, member, -⟩
  cases found.symm.trans performs
  rw [empty] at member
  cases member

theorem IsPad.of_functions_eq (pad : module.IsPad id)
    (same : later.functions = module.functions) : later.IsPad id := by
  obtain ⟨operation, isPad, performs⟩ := pad
  rw [Performs, ← function_eq_of_functions_eq same] at performs
  exact ⟨operation, isPad, performs⟩

end Module

/-! ## Building at the current block -/

namespace Builder

variable {Result : Type} {Adds : Operation → Prop} {builder later : Builder}
  {block : BlockId}

/-- Only certain operations, other than plain ones, are added, and they are
added to the current block. -/
structure Fills (Adds : Operation → Prop) (builder later : Builder) : Prop
    extends Drafts builder later where
  module : ∃ added, builder.module.Flows added later.module ∧
    ∀ entry ∈ added, builder.block = some entry.1 ∧ Adds entry.2
  function : later.function = builder.function

instance : Std.Refl (Fills Adds) :=
  ⟨fun builder => ⟨Std.Refl.refl builder, ⟨[], .refl _,
    List.forall_mem_nil _⟩, rfl⟩⟩

instance : Trans (Fills Adds) (Fills Adds) (Fills Adds) where
  trans first second := by
    obtain ⟨drafts, ⟨added, flows, each⟩, function⟩ := first
    obtain ⟨moreDrafts, ⟨more, moreFlows, moreEach⟩, sameFunction⟩ := second
    refine ⟨Trans.trans drafts moreDrafts, ⟨added ++ more,
      flows.trans moreFlows, ?_⟩, sameFunction.trans function⟩
    intro entry member
    rcases List.mem_append.mp member with early | late
    · exact each entry early
    · rw [← drafts.block]
      exact moreEach entry late

instance : Stays (Fills Adds) := ⟨fun fills => fills.block⟩

/-- From every builder on, only certain operations are added. -/
abbrev Filling (Adds : Operation → Prop) (operation : Build Result) : Prop :=
  Relates (Fills Adds) operation

theorem Composes.fills (composes : builder.Composes later) :
    builder.Fills Adds later :=
  ⟨composes.toDrafts, ⟨[], composes.module, List.forall_mem_nil _⟩,
    composes.function⟩

theorem Fills.isPad (fills : builder.Fills Adds later)
    (pad : builder.module.IsPad block) : later.module.IsPad block := by
  obtain ⟨_, flows, -⟩ := fills.module
  exact flows.isPad pad

theorem Computes.filling {operation : Build Result}
    (computes : Computes operation) : Filling Adds operation :=
  fun builder => (computes builder).fills

/-- The same from every builder on that is at a certain block. -/
def FillingAt (block : BlockId) (Adds : Operation → Prop)
    (operation : Build Result) : Prop :=
  ∀ builder : Builder, builder.block = some block →
    builder.Fills Adds (operation builder).2

namespace FillingAt

variable {Other : Type} {operation : Build Result}
  {next : Result → Build Other}

theorem of_filling (filling : Filling Adds operation) :
    FillingAt block Adds operation :=
  fun builder _ => filling builder

theorem of_computes (computes : Computes operation) :
    FillingAt block Adds operation :=
  of_filling computes.filling

theorem weaken {Some : Operation → Prop}
    (filling : Filling Some operation)
    (implies : ∀ added, Some added → Adds added) :
    FillingAt block Adds operation := by
  intro builder _
  obtain ⟨drafts, ⟨added, flows, each⟩, function⟩ := filling builder
  exact ⟨drafts, ⟨added, flows, fun entry member =>
    (each entry member).imp_right (implies entry.2)⟩, function⟩

theorem bind (first : FillingAt block Adds operation)
    (second : ∀ result, FillingAt block Adds (next result)) :
    FillingAt block Adds (operation >>= next) := by
  intro builder placed
  have early := first builder placed
  exact Trans.trans early (second _ _ (early.block.trans placed))

theorem map (filling : FillingAt block Adds operation)
    (change : Result → Other) : FillingAt block Adds (change <$> operation) :=
  filling

theorem ite {condition : Prop} [Decidable condition]
    {other : Build Result} (holds : FillingAt block Adds operation)
    (fails : FillingAt block Adds other) :
    FillingAt block Adds (if condition then operation else other) := by
  split
  · exact holds
  · exact fails

theorem insert {operation : Operation} (adds : Adds operation)
    (other : operation.isPhi = false) (name : String) :
    FillingAt block Adds (Builder.insert block operation name) := by
  intro builder placed
  refine ⟨drafts_insert block other name builder placed,
    ⟨[(block, operation)], Module.flows_insertInstruction _ _ _ _ _, ?_⟩,
    rfl⟩
  intro entry member
  cases List.mem_singleton.mp member
  exact ⟨placed, adds⟩

end FillingAt

/-- Building at the current block, if there is one. -/
theorem filling_attached {next : Option BlockId → Build Result}
    (without : Filling Adds (next none))
    (within : ∀ block, FillingAt block Adds (next (some block))) :
    Filling Adds (attached >>= next) :=
  relates_attached (fun builder => (composes_counted builder).fills) without
    within

theorem filling_insertEffect {operation : Operation} (adds : Adds operation)
    (other : operation.isPhi = false) :
    Filling Adds (insertEffect operation) := by
  refine filling_attached (.pure ()) fun block => ?_
  exact .bind (.insert adds other "") fun _ => .of_filling (.pure ())

theorem flows_insertEffect {operation : Operation}
    (other : operation.isPhi = false) (builder : Builder) :
    ∃ added, builder.module.Flows added
      (insertEffect operation builder).2.module := by
  have fills : builder.Fills (operation = ·)
      (insertEffect operation builder).2 :=
    filling_insertEffect rfl other builder
  exact fills.module.imp fun _ => And.left

theorem filling_branch (target : BlockId) :
    Filling (· = .branch target) (branch target) :=
  filling_insertEffect rfl rfl

theorem filling_branchIf (condition : Value)
    (thenTarget elseTarget : BlockId) :
    Filling (fun operation => ∃ condition,
        operation = .branchIf condition thenTarget elseTarget)
      (branchIf condition thenTarget elseTarget) := by
  refine filling_attached (.pure ()) fun block => ?_
  refine .ite (.bind (.insert ?_ rfl "") fun _ => .of_filling (.pure ()))
    (.of_filling (.pure ()))
  exact ⟨_, rfl⟩

theorem filling_invoke (callee : Value) (arguments : List Value)
    (normal unwind : BlockId) (name : String) :
    Filling (fun operation =>
        ∃ result parameters variadic callee arguments, operation =
          .invoke result parameters variadic callee arguments normal unwind)
      (invoke callee arguments normal unwind name) :=
  relates_buildCall (fun composes => composes.fills)
    (fun _ _ _ _ _ _ _ => FillingAt.insert ⟨_, _, _, _, _, rfl⟩ rfl _) callee
    arguments name

theorem computes_landingPadType : Computes landingPadType :=
  .bind (computes_onTypes _) fun _ => .bind (computes_onTypes _) fun _ =>
    computes_onTypes _

theorem filling_landingPad (cleanup : Bool) (clauses : List Value)
    (name : String) :
    Filling (fun operation => ∃ type clauses,
        operation = .landingPad type cleanup clauses)
      (landingPad cleanup clauses name) := by
  refine .bind computes_landingPadType.filling fun type => ?_
  refine filling_attached (computes_constantUndef type).filling fun block => ?_
  refine .bind (.of_computes (computes_lowerFirstClass? type))
    fun lowered => ?_
  split
  · exact .of_computes (computes_constantUndef type)
  · exact .bind (.insert ⟨_, _, rfl⟩ rfl _) fun operand =>
      .of_computes (computes_push _ _)

theorem filling_insertPad {operation : Operation} (adds : Adds operation)
    (other : operation.isPhi = false) (name : String) :
    Filling Adds (insertPad operation name) := by
  refine .bind (computes_onTypes _).filling fun type => ?_
  refine filling_attached (computes_constantUndef type).filling fun block => ?_
  exact .bind (.insert adds other _) fun operand =>
    .of_computes (computes_push _ _)

/-! ## Building at several blocks -/

/-- Only certain operations, other than plain ones, are added. -/
structure Draws (Adds : BlockId → Operation → Prop)
    (builder later : Builder) : Prop where
  module : ∃ added, builder.module.Flows added later.module ∧
    ∀ entry ∈ added, Adds entry.1 entry.2
  function : later.function = builder.function
  traces : builder.Advances later

/-- From every builder on that is at a certain block, only certain operations
are added. -/
def DrawingAt (block : BlockId) (Adds : BlockId → Operation → Prop)
    (operation : Build Result) : Prop :=
  ∀ builder : Builder, builder.block = some block →
    builder.Draws Adds (operation builder).2

section Drawing

variable {Other : Type} {Adds : BlockId → Operation → Prop}
  {operation : Build Result} {next : Result → Build Other} {last : Builder}

theorem Draws.trans (first : builder.Draws Adds later)
    (second : later.Draws Adds last) : builder.Draws Adds last := by
  obtain ⟨⟨added, flows, each⟩, function, traces⟩ := first
  obtain ⟨⟨more, moreFlows, moreEach⟩, sameFunction, moreTraces⟩ := second
  exact ⟨⟨added ++ more, flows.trans moreFlows,
    List.forall_mem_append.mpr ⟨each, moreEach⟩⟩, sameFunction.trans function,
    Trans.trans traces moreTraces⟩

theorem Fills.draws {Some : Operation → Prop}
    (fills : builder.Fills Some later)
    (implies : ∀ block added, builder.block = some block → Some added →
      Adds block added) : builder.Draws Adds later := by
  obtain ⟨drafts, ⟨added, flows, each⟩, function⟩ := fills
  exact ⟨⟨added, flows, fun entry member =>
    implies entry.1 entry.2 (each entry member).1 (each entry member).2⟩,
    function, drafts.traces⟩

namespace DrawingAt

theorem of_fillingAt (filling : FillingAt block (Adds block) operation) :
    DrawingAt block Adds operation := by
  intro builder placed
  refine (filling builder placed).draws fun other added there adds => ?_
  cases placed.symm.trans there
  exact adds

theorem bind (first : FillingAt block (Adds block) operation)
    (rest : ∀ result, DrawingAt block Adds (next result)) :
    DrawingAt block Adds (operation >>= next) := by
  intro builder placed
  refine (of_fillingAt first builder placed).trans (rest _ _ ?_)
  exact (first builder placed).block.trans placed

/-- Going on at another block. -/
theorem position {other : BlockId}
    (rest : DrawingAt other Adds operation) :
    DrawingAt block Adds (positionAtEnd other >>= fun _ => operation) := by
  intro builder _
  obtain ⟨module, function, traces⟩ := rest (positionAtEnd other builder).2 rfl
  exact ⟨module, function,
    Trans.trans (advances_positionAtEnd other builder) traces⟩

end DrawingAt

end Drawing

/-! ## Pads are there -/

/-- A pad that is inserted into a block opens it. -/
theorem isPad_insert (builder : Builder)
    (known : (builder.module.block? block).isSome = true)
    {operation : Operation} (pad : operation.isPad = true) (name : String)
    (content : Operand → Content) (type : TypeId) :
    ((insert block operation name >>= fun operand =>
      push (content operand) type) builder).2.module.IsPad block := by
  have inserted : (insert block operation name builder).2.module.IsPad
      block :=
    ⟨operation, pad, Module.performs_insertInstruction known _ _ _⟩
  exact inserted.of_functions_eq rfl

/-- A pad is put into the current block. -/
def PaddingAt (block : BlockId) (operation : Build Result) : Prop :=
  ∀ builder : Builder, builder.block = some block →
    (builder.module.block? block).isSome = true →
    (operation builder).2.module.IsPad block

namespace PaddingAt

variable {Other : Type} {operation : Build Result}
  {next : Result → Build Other}

/-- What is put there after something else. -/
theorem after (first : Computes operation)
    (rest : ∀ result, PaddingAt block (next result)) :
    PaddingAt block (operation >>= next) := by
  intro builder placed known
  have early := first builder
  exact rest _ _ (early.block.trans placed) (early.module.known known)

/-- What is put there stays. -/
theorem followed (first : PaddingAt block operation)
    (rest : ∀ result (builder : Builder), ∃ added, builder.module.Flows added
      (next result builder).2.module) :
    PaddingAt block (operation >>= next) := by
  intro builder placed known
  obtain ⟨added, flows⟩ := rest (operation builder).1 (operation builder).2
  exact flows.isPad (first builder placed known)

end PaddingAt

theorem paddingAt_insertPad {operation : Operation}
    (pad : operation.isPad = true) (name : String) :
    PaddingAt block (insertPad operation name) := by
  intro builder placed known
  unfold insertPad
  rw [stateM_bind_apply, stateM_bind_apply, attached_of_block
    (show (onTypes TypeTable.token builder).2.block = some block from placed)]
  exact isPad_insert (onTypes TypeTable.token builder).2 known pad _ .token
    (onTypes TypeTable.token builder).1

theorem intern_spec (table : TypeTable) (kind : TypeKind) :
    table.Grows (TypeTable.intern kind table).2 ∧
      (TypeTable.intern kind table).2.Has (TypeTable.intern kind table).1 ∧
      (TypeTable.intern kind table).2.kind (TypeTable.intern kind table).1 =
        kind := by
  unfold TypeTable.intern
  cases found : table.find? kind with
  | some type =>
      obtain ⟨index, position, rfl⟩ := Option.map_eq_some_iff.mp found
      obtain ⟨inside, same, -⟩ := List.idxOf?_eq_some_iff.mp position
      refine ⟨.refl table, inside, ?_⟩
      simp [TypeTable.kind, inside, same]
  | none =>
      exact ⟨⟨List.prefix_append _ _, fun _ _ found => found⟩,
        by simp [TypeTable.Has], by simp [TypeTable.kind]⟩

/-- Landing pads have a type that a register may have. -/
theorem isFirstClass_landingPadType (builder : Builder) :
    (lowered (landingPadType builder).2.module.types loweringLevels
      (landingPadType builder).1).isFirstClass = true := by
  let byte := TypeTable.intern (.int 8) builder.module.types
  let pointer := TypeTable.intern (.pointer byte.1) byte.2
  let selector := TypeTable.intern (.int 32) pointer.2
  let both := TypeTable.intern (.struct [pointer.1, selector.1]) selector.2
  show (lowered both.2 (64 + 1) both.1).isFirstClass = true
  obtain ⟨-, hasPointer, pointerKind⟩ := intern_spec byte.2 (.pointer byte.1)
  obtain ⟨grows, hasSelector, selectorKind⟩ := intern_spec pointer.2 (.int 32)
  obtain ⟨more, -, bothKind⟩ := intern_spec selector.2
    (.struct [pointer.1, selector.1])
  have pointerLowered : lowered both.2 64 pointer.1 = .pointer := by
    rw [lowered, hasPointer.kind_eq (grows.trans more), pointerKind]
  have selectorLowered : lowered both.2 64 selector.1 = .int 32 := by
    rw [lowered, hasSelector.kind_eq more, selectorKind]
  rw [lowered, bothKind]
  simp [pointerLowered, selectorLowered, IrType.isFirstClass]

theorem paddingAt_landingPad (cleanup : Bool) (clauses : List Value)
    (name : String) : PaddingAt block (landingPad cleanup clauses name) := by
  intro builder placed known
  have typed := computes_landingPadType builder
  have firstClass := isFirstClass_landingPadType builder
  unfold landingPad
  rw [stateM_bind_apply, stateM_bind_apply,
    attached_of_block (typed.block.trans placed)]
  generalize landingPadType builder = result at *
  obtain ⟨type, later⟩ := result
  have lowers : (onModule (Module.lowerFirstClass? type) later).1 =
      some (lowered later.module.types loweringLevels type) := by
    show (if (lowerWithin later.module.types loweringLevels type
        later.module.structs).1.isFirstClass then
      some (lowerWithin later.module.types loweringLevels type
        later.module.structs).1 else none) = _
    rw [lowerWithin_fst, if_pos firstClass]
  dsimp only
  rw [stateM_bind_apply, lowers]
  exact isPad_insert (onModule (Module.lowerFirstClass? type) later).2
    (typed.module.known known) rfl _ .firstClass type

end Builder

end FormCompiler.Ir
