import FormCompiler.Emit.LiteralPool
import FormCompiler.Proofs.Modules

/-!
# Modules under construction

Emission does few things to a module and to the literals that the module
shares.  Types are entered, functions and blocks are added, an instruction is
inserted where the builder stands, a slot after the slots that open the first
block of a function, a phi after the phis that open its block, and a phi gets
its edges.

What happens is a trace of such steps, which notes the slots that were made
and the addresses of literals that were taken.  A step does one of few things
to a block that is there, and whatever those preserve holds along every trace.
-/

namespace FormCompiler

open Ir

/-! ## Blocks -/

namespace Ir.Instruction

variable {register : Register} {change : Operation → Operation}

theorem rephi_isPhi (changes : ChangesPhis change)
    (instruction : Instruction) :
    (instruction.rephi register change).operation.isPhi =
      instruction.operation.isPhi := by
  cases isPhi : instruction.operation.isPhi with
  | false => rw [rephi_of_not_isPhi changes isPhi, isPhi]
  | true =>
      unfold rephi
      split
      · exact changes.phi _ isPhi
      · exact isPhi

end Ir.Instruction

namespace Ir.Block

variable {block later : Block} {index : Nat}

/-- A position at the end of a block, or ahead of its terminator. -/
def IsCursor (block : Block) (position : Nat) : Prop :=
  position = block.instructions.length ∨
    block.isTerminated = true ∧ position = block.instructions.length - 1

/-- What one step does to a block, by the position of the block in its
function.  Slots are put into the first block only. -/
inductive Turns (index : Nat) (block : Block) : Block → Prop
  | stays : Turns index block block
  | grows {position : Nat} (instruction : Instruction)
      (other : instruction.operation.isPhi = false)
      (cursor : block.IsCursor position) :
      Turns index block (block.insertAt position instruction)
  | slot (instruction : Instruction)
      (isAlloca : instruction.operation.isAlloca = true)
      (first : index = 0) :
      Turns index block
        (block.insertAt (block.leading Operation.isAlloca) instruction)
  | phi (instruction : Instruction)
      (isPhi : instruction.operation.isPhi = true) :
      Turns index block
        (block.insertAt (block.leading Operation.isPhi) instruction)
  | rephi (register : Register) {change : Operation → Operation}
      (changes : ChangesPhis change) :
      Turns index block (block.rephi register change)

/-- Where a terminated block is inserted into at the cursor, its terminator
follows. -/
theorem IsCursor.drop_eq {position : Nat} (cursor : block.IsCursor position) :
    block.instructions.drop position = [] ∨
      ∃ last, block.instructions.drop position = [last] ∧
        last.operation.isTerminator = true := by
  rcases cursor with rfl | ⟨terminated, rfl⟩
  · exact .inl List.drop_length
  · rcases List.eq_nil_or_concat' block.instructions with empty |
      ⟨body, last, ends⟩
    · simp [isTerminated, terminator?, empty] at terminated
    · refine .inr ⟨last, by simp [ends], ?_⟩
      unfold isTerminated terminator? at terminated
      rw [ends, List.getLast?_concat] at terminated
      by_contra notEnding
      simp [notEnding] at terminated

theorem leading_all (block : Block) (isKind : Operation → Bool) :
    ∀ instruction ∈ block.instructions.take (block.leading isKind),
      isKind instruction.operation = true := by
  intro instruction member
  have taken : block.instructions.take (block.leading isKind) =
      block.instructions.takeWhile fun instruction =>
        isKind instruction.operation :=
    (List.prefix_iff_eq_take.mp (List.takeWhile_prefix _)).symm
  rw [taken] at member
  simpa using List.mem_takeWhile_imp member

end Ir.Block

/-! ## Steps -/

/-- A module under construction, with the literals that it shares. -/
structure Draft where
  module : Module
  literals : LiteralPool

/-- What is noted of what happens: slots of a type, and addresses of the
constant that holds a literal. -/
inductive Event where
  | slot (register : Register) (type : IrType)
  | address (literal : Literal) (id : GlobalId) (register : Register)

namespace Draft

/-- A draft whose module was changed. -/
def turned (draft : Draft) (operation : StateM Module Unit) : Draft :=
  { draft with module := (operation draft.module).2 }

/-- A draft with one more instruction. -/
def inserted (draft : Draft) (block : BlockId) (position : Block → Nat)
    (operation : Operation) (name : String) : Draft :=
  { draft with
    module := (Module.insertInstruction block position operation name
      draft.module).2 }

/-- The register that the next instruction of a block fills. -/
def register (draft : Draft) (block : BlockId) : Register :=
  ⟨block.function, (draft.module.function block.function).registerCount⟩

/-- Where an instruction is inserted while the builder stands at a block. -/
def AtCursor (draft : Draft) (block : BlockId) (position : Block → Nat) :
    Prop :=
  ∀ found, draft.module.block? block = some found →
    found.IsCursor (position found)

/-- The address of the first byte of a constant. -/
def firstByte (type : IrType) (id : GlobalId) : Operation :=
  .elementPointer type (.global id) [.ofInt 32 0, .ofInt 32 0]

/-- One thing that happens to a draft, with what is noted of it. -/
inductive Step : Draft → List Event → Draft → Prop
  /-- Types, bodies of structs, symbols and the numbers of values. -/
  | furnish {draft : Draft} {module : Module}
      (functions : module.functions = draft.module.functions)
      (globals : module.globals = draft.module.globals) :
      Step draft [] { draft with module }
  | declare {draft : Draft} {module : Module} (function : Function)
      (noBlocks : function.blocks = [])
      (functions : module.functions = draft.module.functions ++ [function])
      (globals : module.globals = draft.module.globals) :
      Step draft [] { draft with module }
  /-- What is known of a function besides its blocks. -/
  | label {draft : Draft} (id : FunctionId) {change : Function → Function}
      (blocks : ∀ function, (change function).blocks = function.blocks) :
      Step draft [] (draft.turned (Module.modifyFunction id change))
  | append {draft : Draft} (function : FunctionId) (name : String) :
      Step draft [] { draft with
        module := (Module.appendBlock function name draft.module).2 }
  | insert {draft : Draft} (block : BlockId) {position : Block → Nat}
      {operation : Operation} (name : String)
      (other : operation.isPhi = false)
      (cursor : draft.AtCursor block position) :
      Step draft [] (draft.inserted block position operation name)
  | slot {draft : Draft} {function : FunctionId} (type : IrType)
      (name : String)
      (entered : (draft.module.block? ⟨function, 0⟩).isSome = true) :
      Step draft [.slot (draft.register ⟨function, 0⟩) type]
        (draft.inserted ⟨function, 0⟩ (·.leading Operation.isAlloca)
          (.alloca type) name)
  | phi {draft : Draft} (block : BlockId) (type : IrType) (name : String) :
      Step draft []
        (draft.inserted block (·.leading Operation.isPhi) (.phi type []) name)
  | amend {draft : Draft} (register : Register)
      {change : Operation → Operation} (changes : ChangesPhis change) :
      Step draft [] (draft.turned (Module.modifyOperation register change))
  /-- The environment of a closure. -/
  | environment {draft : Draft} (number : Nat) (type : TypeId)
      (initializer : Initializer) :
      Step draft [] { draft with
        module := (Module.addGlobal s!"__edn.closure.env.{number}" type
          (some initializer) false .unlisted draft.module).2 }
  | intern {draft : Draft} (literal : Literal) :
      Step draft []
        ⟨(draft.literals.intern literal draft.module).2,
          (draft.literals.intern literal draft.module).1.2⟩
  | address {draft : Draft} {literal : Literal} {id : GlobalId}
      (found : draft.literals.find? literal = some id) {block : BlockId}
      (known : (draft.module.block? block).isSome = true)
      {position : Block → Nat} (cursor : draft.AtCursor block position)
      (type : IrType) (name : String) :
      Step draft [.address literal id (draft.register block)]
        (draft.inserted block position (firstByte type id) name)

/-- What happens step by step, with all that is noted of it in order. -/
inductive Trace (start : Draft) : List Event → Draft → Prop
  | done : Trace start [] start
  | step {events more : List Event} {middle later : Draft}
      (before : Trace start events middle) (step : Step middle more later) :
      Trace start (events ++ more) later

variable {start middle draft later : Draft} {events more : List Event}

theorem Trace.single (step : Step draft events later) :
    Trace draft events later :=
  .step .done step

theorem Trace.trans (first : Trace start events middle)
    (second : Trace middle more later) :
    Trace start (events ++ more) later := by
  induction second with
  | done => simpa using first
  | step _ step ih =>
      rw [← List.append_assoc]
      exact .step ih step

/-- What every step preserves holds along a trace. -/
theorem Trace.preserves (Holds : Draft → Prop)
    (each : ∀ {draft events later}, Step draft events later → Holds draft →
      Holds later)
    (trace : Trace start events later) (holds : Holds start) :
    Holds later := by
  induction trace with
  | done => exact holds
  | step _ step ih => exact each step ih

/-- What the step brings about that notes an event, and every step preserves,
holds for all that was noted. -/
theorem Trace.noted (Holds : Event → Draft → Prop)
    (arises : ∀ {draft events later}, Step draft events later →
      ∀ event ∈ events, Holds event later)
    (each : ∀ {draft events later}, Step draft events later →
      ∀ event, Holds event draft → Holds event later)
    (trace : Trace start events later) : ∀ event ∈ events,
      Holds event later := by
  induction trace with
  | done => exact List.forall_mem_nil _
  | step _ step ih =>
      refine List.forall_mem_append.mpr ⟨fun event member => ?_,
        arises step⟩
      exact each step event (ih event member)

/-- A function that is new is declared. -/
theorem trace_addFunction (draft : Draft) (name : String) (type : TypeId)
    (linkage : Linkage) :
    Trace draft [] { draft with
      module := (Module.addFunction name type linkage draft.module).2 } := by
  cases found : draft.module.function? name with
  | some id =>
      rw [Module.addFunction_of_found found]
      exact .done
  | none =>
      obtain ⟨added, -, functions, -, -, noBlocks⟩ :=
        Module.addFunction_append found type linkage
      exact .single (.declare added noBlocks functions
        (Module.globals_addFunction name type linkage draft.module))

/-! ## Blocks along a trace -/

/-- How a place for a block changes: what is there takes one turn, and a new
block is empty. -/
def Follows (index : Nat) : Option Block → Option Block → Prop
  | some block, some later => block.Turns index later
  | some _, none => False
  | none, later => ∀ block ∈ later, block.instructions = []

theorem Follows.same (index : Nat) {place later : Option Block}
    (same : later = place) : Follows index place later := by
  subst same
  cases later with
  | none => exact nofun
  | some block => exact .stays

theorem block?_of_functions_eq {module later : Module}
    (same : later.functions = module.functions) (id : BlockId) :
    later.block? id = module.block? id := by
  rw [Module.block?_eq, Module.block?_eq,
    Module.function_eq_of_functions_eq same]

theorem block?_modifyFunction (module : Module) {id : FunctionId}
    {change : Function → Function}
    (blocks : ∀ function, (change function).blocks = function.blocks)
    (place : BlockId) :
    (Module.modifyFunction id change module).2.block? place =
      module.block? place := by
  rw [Module.block?_eq, Module.block?_eq, Module.function_modifyFunction]
  split
  · rw [blocks]
  · rfl

theorem block?_modifyOperation {module : Module} {place : BlockId}
    {block : Block} (found : module.block? place = some block)
    (register : Register) (change : Operation → Operation) :
    (Module.modifyOperation register change module).2.block? place =
      some (if place.function = register.function then
        block.rephi register change
      else block) := by
  have inside := Module.lt_of_block? found
  rw [Module.block?_eq] at found
  unfold Module.modifyOperation
  rw [Module.block?_eq, Module.function_modifyFunction]
  by_cases same : place.function = register.function
  · rw [if_pos ⟨same, same ▸ inside⟩, if_pos same]
    dsimp only
    rw [List.getElem?_map, found]
    rfl
  · rw [if_neg same, if_neg fun both => same both.1, found]

theorem functions_intern (pool : LiteralPool) (literal : Literal)
    (module : Module) :
    (pool.intern literal module).2.functions = module.functions := by
  unfold LiteralPool.intern
  cases pool.find? literal with
  | some id => rfl
  | none => exact Module.functions_addGlobal _ _ _ _ _ _

/-- What is inserted into a block is one turn of it. -/
theorem follows_inserted {block : BlockId} {position : Block → Nat}
    {operation : Operation} {name : String}
    (turns : ∀ found, draft.module.block? block = some found → ∀ name,
      found.Turns block.index (found.insertAt (position found)
        ⟨draft.register block, name, operation⟩)) (id : BlockId) :
    Follows id.index (draft.module.block? id)
      ((draft.inserted block position operation name).module.block? id) := by
  by_cases here : id = block
  · subst here
    cases found : draft.module.block? id with
    | some inner =>
        obtain ⟨final, inserts⟩ := Module.block?_insertInstruction position
          operation name found
        unfold inserted
        rw [inserts]
        exact turns inner found final
    | none =>
        have none' : (draft.inserted id position operation name).module.block?
            id = none := by
          unfold inserted
          rw [Module.block?_eq, List.getElem?_eq_none_iff] at found ⊢
          rw [Module.insertInstruction_apply, Module.function_modifyFunction]
          split
          · exact (List.length_modify _ _ _).trans_le found
          · exact found
        rw [none']
        exact nofun
  · exact .same _ (Module.block?_insertInstruction_of_ne _ _ _ _ _ here)

theorem Step.follows (step : Step draft events later) (id : BlockId) :
    Follows id.index (draft.module.block? id) (later.module.block? id) := by
  cases step with
  | furnish functions => exact .same _ (block?_of_functions_eq functions id)
  | declare function noBlocks functions =>
      refine .same _ ?_
      rw [Module.block?_eq, Module.block?_eq,
        Module.function_append functions]
      split
      · next last =>
          rw [noBlocks, last, Module.function,
            List.getElem?_eq_none (Nat.le_refl _)]
          rfl
      · rfl
  | label function blocks => exact .same _ (block?_modifyFunction _ blocks id)
  | append function name =>
      show Follows _ _ ((Module.modifyFunction function _
        draft.module).2.block? id)
      rw [Module.block?_eq, Module.block?_eq, Module.function_modifyFunction]
      split
      · dsimp only
        rw [List.getElem?_append]
        split
        · exact .same _ rfl
        · next outside =>
            rw [List.getElem?_eq_none (Nat.le_of_not_lt outside)]
            intro block member
            have new := List.mem_of_getElem? (Option.mem_def.mp member)
            rw [List.mem_singleton.mp new]
      · exact .same _ rfl
  | insert block name other cursor =>
      exact follows_inserted (fun found there name =>
        .grows _ other (cursor found there)) id
  | slot type name =>
      exact follows_inserted (fun found _ name => .slot _ rfl rfl) id
  | phi block type name =>
      exact follows_inserted (fun found _ name => .phi _ rfl) id
  | amend register changes =>
      show Follows _ _ ((Module.modifyFunction register.function _
        draft.module).2.block? id)
      rw [Module.block?_eq, Module.block?_eq, Module.function_modifyFunction]
      split
      · dsimp only
        rw [List.getElem?_map]
        cases (draft.module.function id.function).blocks[id.index]? with
        | none => exact .same _ rfl
        | some block => exact .rephi register changes
      · exact .same _ rfl
  | environment number type initializer =>
      exact .same _ (block?_of_functions_eq
        (Module.functions_addGlobal _ _ _ _ _ _) id)
  | intern literal =>
      exact .same _ (block?_of_functions_eq (functions_intern _ _ _) id)
  | address found known cursor type name =>
      exact follows_inserted (fun found there name =>
        .grows _ rfl (cursor found there)) id

/-- A block that is there stays, and takes one turn. -/
theorem Step.turns (step : Step draft events later) {id : BlockId}
    {block : Block} (found : draft.module.block? id = some block) :
    ∃ laterBlock, later.module.block? id = some laterBlock ∧
      block.Turns id.index laterBlock := by
  have follows := step.follows id
  rw [found] at follows
  cases laterFound : later.module.block? id with
  | none =>
      rw [laterFound] at follows
      exact follows.elim
  | some laterBlock =>
      rw [laterFound] at follows
      exact ⟨laterBlock, rfl, follows⟩

theorem Step.known (step : Step draft events later) {id : BlockId}
    (known : (draft.module.block? id).isSome = true) :
    (later.module.block? id).isSome = true := by
  obtain ⟨block, found⟩ := Option.isSome_iff_exists.mp known
  obtain ⟨laterBlock, laterFound, -⟩ := step.turns found
  exact Option.isSome_of_eq_some laterFound

theorem Trace.known (trace : Trace start events later) {id : BlockId}
    (known : (start.module.block? id).isSome = true) :
    (later.module.block? id).isSome = true :=
  trace.preserves (fun draft => (draft.module.block? id).isSome = true)
    (fun step => step.known) known

/-- What a turn preserves of a block stays along a trace. -/
theorem Step.keepsIn (Holds : Block → Prop)
    (step : Step draft events later) {id : BlockId}
    (turns : ∀ {block later : Block}, block.Turns id.index later →
      Holds block → Holds later)
    (holds : ∃ block, draft.module.block? id = some block ∧ Holds block) :
    ∃ block, later.module.block? id = some block ∧ Holds block := by
  obtain ⟨block, found, holds⟩ := holds
  obtain ⟨laterBlock, laterFound, turn⟩ := step.turns found
  exact ⟨laterBlock, laterFound, turns turn holds⟩

/-- What a turn preserves, and empty blocks have, all blocks have along a
trace. -/
theorem Trace.everyBlock (Holds : Nat → Block → Prop)
    (turns : ∀ {index : Nat} {block later : Block},
      block.Turns index later → Holds index block → Holds index later)
    (empty : ∀ {index : Nat} {block : Block}, block.instructions = [] →
      Holds index block)
    (trace : Trace start events later)
    (holds : ∀ id block, start.module.block? id = some block →
      Holds id.index block) :
    ∀ id block, later.module.block? id = some block →
      Holds id.index block := by
  refine trace.preserves (fun draft => ∀ id block,
    draft.module.block? id = some block → Holds id.index block) ?_ holds
  intro draft events later step holds id laterBlock laterFound
  have follows := step.follows id
  rw [laterFound] at follows
  cases found : draft.module.block? id with
  | none =>
      rw [found] at follows
      exact empty (follows laterBlock rfl)
  | some block =>
      rw [found] at follows
      exact turns follows (holds id block found)

end Draft

end FormCompiler
