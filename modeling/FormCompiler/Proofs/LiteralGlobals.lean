import Mathlib.Data.List.Nodup
import FormCompiler.Proofs.Building
import FormCompiler.Proofs.Drafts
import FormCompiler.Proofs.PlainCode

/-!
# The constants of literals

Literals and globals stay in step as long as the module has no other global
under a name that is kept for literals.  Every literal has a constant of its
own, which holds the bytes of the literal and is left out of the symbol table,
and no global bears a number that the literals have not come to yet.

The address of a literal that was taken once leads to that constant for good.
-/

namespace FormCompiler

open Ir

/-! ## Names that are kept for literals -/

/-- The name of the constant that holds the literal of a number. -/
def LiteralKind.globalName (kind : LiteralKind) (number : Nat) : String :=
  kind.stem ++ "." ++ toString number

theorem LiteralKind.globalName_injective {kind other : LiteralKind}
    {number further : Nat}
    (same : kind.globalName number = other.globalName further) :
    number = further := by
  unfold globalName at same
  have kinds : kind = other := by
    have chars := congrArg (fun name : String => name.toList.take 7) same
    cases kind <;> cases other <;>
      simp [stem, String.toList_append] at chars <;> rfl
  subst kinds
  exact Nat.repr_injective (String.append_right_inj _ |>.mp same)

/-- Environments of closures have names of their own. -/
theorem LiteralKind.globalName_ne_environment (kind : LiteralKind)
    (number further : Nat) :
    s!"__edn.closure.env.{further}" ≠ kind.globalName number := by
  intro same
  have chars := congrArg (fun name : String => name.toList.take 8) same
  cases kind <;> simp [globalName, stem, String.toList_append,
    ToString.toString] at chars

/-! ## Constants -/

/-- A global is the constant of a literal. -/
structure Ir.Global.Holds (literal : Literal) (global : Global) : Prop where
  isConstant : global.isConstant = true
  linkage : global.linkage = .unlisted
  initializer : global.initializer = some (.bytes literal.contents)
  irType : global.irType =
    .array (min literal.contents.length 0xFFFFFFFF) (.int 8)
  initialOperand : global.initialOperand = some (.bytes literal.contents)

theorem TypeTable.kind_intern (table : TypeTable) (kind : TypeKind) :
    (intern kind table).2.kind (intern kind table).1 = kind := by
  unfold intern
  cases found : table.find? kind with
  | some type =>
      obtain ⟨index, isIndex, rfl⟩ := Option.map_eq_some_iff.mp found
      obtain ⟨inside, same⟩ := List.idxOf?_eq_some_iff.mp isIndex
      simp only [TypeTable.kind, List.getElem?_eq_getElem inside,
        Option.getD_some]
      exact same.1
  | none => simp [TypeTable.kind]

/-- A type that is there keeps its kind. -/
theorem TypeTable.kind_intern_of_kind {table : TypeTable} {type : TypeId}
    {kind : TypeKind} (isKind : table.kind type = kind)
    (notVoid : kind ≠ .void) (added : TypeKind) :
    (intern added table).2.kind type = kind := by
  unfold intern
  cases table.find? added with
  | some found => exact isKind
  | none =>
      have inside : type.index < table.kinds.length := by
        by_contra outside
        rw [TypeTable.kind,
          List.getElem?_eq_none (Nat.le_of_not_lt outside)] at isKind
        exact notVoid isKind.symm
      rw [← isKind]
      simp only [TypeTable.kind, List.getElem?_append_left inside]

/-- A global whose name is not there yet is the last one. -/
theorem Ir.Module.addGlobal_eq {module : Module} {name : String}
    (missing : module.global? name = none) (type : TypeId)
    (initializer : Option Initializer) (isConstant : Bool)
    (linkage : Linkage) :
    let irType := (lowerFirstClass? type module).1.getD (.int 8)
    let added := addGlobal name type initializer isConstant linkage module
    added.1 = module.globals.length ∧ ∃ symbol,
      added.2.globals = module.globals ++
        [⟨name, symbol, type, irType, initializer,
          initializer.map (initialOperand irType), isConstant, linkage⟩] := by
  unfold addGlobal
  rw [stateM_get_bind, missing]
  exact ⟨rfl, _, rfl⟩

theorem Ir.Module.addGlobal_of_found {module : Module} {name : String}
    {id : GlobalId} (found : module.global? name = some id) (type : TypeId)
    (initializer : Option Initializer) (isConstant : Bool)
    (linkage : Linkage) :
    addGlobal name type initializer isConstant linkage module =
      (id, module) := by
  unfold addGlobal
  rw [stateM_get_bind, found]
  rfl

theorem Ir.Module.global?_eq_none {module : Module} {name : String}
    (free : ∀ global ∈ module.globals, global.name ≠ name) :
    module.global? name = none := by
  rw [Module.global?, List.findIdx?_eq_none_iff]
  simpa using free

/-- The type of the constant of a literal is lowered to an array of bytes. -/
theorem lowerFirstClass?_bytes {module : Module} {array byte : TypeId}
    {length : Nat} (isArray : module.types.kind array = .array byte length)
    (isByte : module.types.kind byte = .int 8) :
    (Module.lowerFirstClass? array module).1 =
      some (.array (min length 0xFFFFFFFF) (.int 8)) := by
  have lowers : (Module.lower array module).1 =
      .array (min length 0xFFFFFFFF) (.int 8) := by
    show (lowerWithin module.types loweringLevels array module.structs).1 = _
    rw [lowerWithin_fst]
    simp [lowered, loweringLevels, isArray, isByte, IrType.isFirstClass]
  show (if (Module.lower array module).1.isFirstClass then
    some (Module.lower array module).1 else none) = _
  rw [lowers]
  rfl

/-- A literal that is new gets the last global of the module. -/
theorem LiteralPool.intern_new {pool : LiteralPool} {literal : Literal}
    {module : Module} (missing : pool.find? literal = none)
    (free : ∀ global ∈ module.globals,
      global.name ≠ literal.kind.globalName (pool.size + 1)) :
    (pool.intern literal module).1 = (module.globals.length,
        ⟨pool.entries ++ [(literal, module.globals.length)]⟩) ∧
      ∃ global, (pool.intern literal module).2.globals =
          module.globals ++ [global] ∧
        global.Holds literal ∧
        global.name = literal.kind.globalName (pool.size + 1) := by
  let length := literal.contents.length
  let name := literal.kind.globalName (pool.size + 1)
  obtain ⟨byte, bytes, isByte, made⟩ : ∃ byte bytes,
      bytes.kind byte = .int 8 ∧
      TypeTable.int 8 module.types = (byte, bytes) :=
    ⟨_, _, TypeTable.kind_intern _ _, rfl⟩
  obtain ⟨type, types, isArray, keeps, entered⟩ : ∃ type types,
      types.kind type = .array byte length ∧ types.kind byte = .int 8 ∧
      TypeTable.array byte length bytes = (type, types) :=
    ⟨_, _, TypeTable.kind_intern _ _,
      TypeTable.kind_intern_of_kind isByte (by simp) _, rfl⟩
  have first : Module.withTypes (TypeTable.int 8) module =
      (byte, { module with types := bytes }) := by
    unfold Module.withTypes
    rw [made]
  have second : Module.withTypes (TypeTable.array byte length)
      { module with types := bytes } = (type, { module with types }) := by
    unfold Module.withTypes
    rw [entered]
  have run : pool.intern literal module =
      let added := Module.addGlobal name type
        (some (.bytes literal.contents)) true .unlisted { module with types }
      ((added.1, ⟨pool.entries ++ [(literal, added.1)]⟩), added.2) := by
    unfold intern
    rw [missing]
    dsimp only
    rw [stateM_bind_apply, first]
    dsimp only
    rw [stateM_bind_apply, second]
    rfl
  have unused : Module.global? { module with types } name = none :=
    Module.global?_eq_none free
  obtain ⟨last, symbol, globals⟩ := Module.addGlobal_eq unused type
    (some (.bytes literal.contents)) true .unlisted
  have lowers : (Module.lowerFirstClass? type { module with types }).1 =
      some (.array (min length 0xFFFFFFFF) (.int 8)) :=
    lowerFirstClass?_bytes isArray keeps
  rw [lowers] at globals
  rw [run]
  refine ⟨?_, _, globals, ⟨rfl, rfl, rfl, rfl, rfl⟩, rfl⟩
  dsimp only
  rw [last]

theorem LiteralPool.entries_intern (pool : LiteralPool) (literal : Literal)
    (module : Module) :
    pool.entries <+: (pool.intern literal module).1.2.entries := by
  unfold intern
  cases pool.find? literal with
  | some id => exact List.prefix_refl _
  | none => exact List.prefix_append _ _

/-- A literal has its constant once it is interned. -/
theorem LiteralPool.find?_intern (pool : LiteralPool) (literal : Literal)
    (module : Module) :
    (pool.intern literal module).1.2.find? literal =
      some (pool.intern literal module).1.1 := by
  cases found : pool.find? literal with
  | some id =>
      unfold intern
      rw [found]
      exact found
  | none =>
      obtain ⟨id, run⟩ : ∃ id, (pool.intern literal module).1 =
          (id, ⟨pool.entries ++ [(literal, id)]⟩) := by
        unfold intern
        rw [found]
        exact ⟨_, rfl⟩
      rw [run]
      unfold find? at found ⊢
      rw [List.lookup_append, found]
      simp

theorem LiteralPool.find?_of_prefix {pool more : LiteralPool}
    {literal : Literal} {id : GlobalId}
    (grows : pool.entries <+: more.entries)
    (found : pool.find? literal = some id) :
    more.find? literal = some id := by
  obtain ⟨added, same⟩ := grows
  unfold find? at found ⊢
  rw [← same, List.lookup_append, found]
  rfl

theorem LiteralPool.mem_of_find? {pool : LiteralPool} {literal : Literal}
    {id : GlobalId} (found : pool.find? literal = some id) :
    (literal, id) ∈ pool.entries := by
  obtain ⟨before, after, split, -⟩ := List.lookup_eq_some_iff.mp found
  rw [split]
  simp

/-- A turn of a block keeps its instructions, edges of phis apart. -/
theorem Ir.Block.Turns.keeps {block later : Block} {index : Nat}
    (turns : block.Turns index later) {instruction : Instruction}
    (other : instruction.operation.isPhi = false)
    (member : instruction ∈ block.instructions) :
    instruction ∈ later.instructions := by
  have inserted (position : Nat) (added : Instruction) :
      instruction ∈ (block.insertAt position added).instructions :=
    (block.sublist_insertAt position added).subset member
  cases turns with
  | stays => exact member
  | grows added _ _ => exact inserted _ added
  | slot added _ _ => exact inserted _ added
  | phi added _ => exact inserted _ added
  | rephi register changes =>
      refine List.mem_map.mpr ⟨instruction, member, ?_⟩
      exact Instruction.rephi_of_not_isPhi changes other

namespace Draft

variable {start draft later : Draft} {events : List Event}
  {literal other : Literal} {id : GlobalId}

/-- Literals and globals are in step. -/
structure InStep (draft : Draft) : Prop where
  holds : ∀ entry ∈ draft.literals.entries, ∃ global,
    draft.module.globals[entry.2]? = some global ∧ global.Holds entry.1
  apart : (draft.literals.entries.map Prod.snd).Nodup
  free : ∀ global ∈ draft.module.globals, ∀ (kind : LiteralKind) number,
    draft.literals.size < number → global.name ≠ kind.globalName number

theorem InStep.of_same (inStep : draft.InStep)
    (globals : later.module.globals = draft.module.globals)
    (literals : later.literals = draft.literals) : later.InStep := by
  refine ⟨?_, ?_, ?_⟩
  · rw [globals, literals]
    exact inStep.holds
  · rw [literals]
    exact inStep.apart
  · rw [globals, literals]
    exact inStep.free

theorem InStep.environment (inStep : draft.InStep) (number : Nat)
    (type : TypeId) (initializer : Initializer) :
    InStep { draft with
      module := (Module.addGlobal s!"__edn.closure.env.{number}" type
        (some initializer) false .unlisted draft.module).2 } := by
  cases found : draft.module.global? s!"__edn.closure.env.{number}" with
  | some id =>
      rw [Module.addGlobal_of_found found]
      exact inStep
  | none =>
      obtain ⟨-, symbol, globals⟩ := Module.addGlobal_eq found type
        (some initializer) false .unlisted
      refine ⟨fun entry member => ?_, inStep.apart, ?_⟩
      · obtain ⟨global, there, holds⟩ := inStep.holds entry member
        refine ⟨global, ?_, holds⟩
        rw [globals, List.getElem?_append_left
          (List.getElem?_eq_some_iff.mp there).1]
        exact there
      · rw [globals]
        refine List.forall_mem_append.mpr ⟨inStep.free, ?_⟩
        refine List.forall_mem_singleton.mpr fun kind further _ => ?_
        exact kind.globalName_ne_environment further number

theorem InStep.intern (inStep : draft.InStep) (literal : Literal) :
    InStep ⟨(draft.literals.intern literal draft.module).2,
      (draft.literals.intern literal draft.module).1.2⟩ := by
  cases found : draft.literals.find? literal with
  | some id =>
      have run : draft.literals.intern literal draft.module =
          ((id, draft.literals), draft.module) := by
        unfold LiteralPool.intern
        rw [found]
        rfl
      rw [run]
      exact inStep
  | none =>
      obtain ⟨interned, global, globals, holds, name⟩ :=
        LiteralPool.intern_new found fun global member =>
          inStep.free global member _ _ (Nat.lt_succ_self _)
      have below : ∀ id ∈ draft.literals.entries.map Prod.snd,
          id < draft.module.globals.length := by
        intro id member
        obtain ⟨entry, entryMember, rfl⟩ := List.mem_map.mp member
        obtain ⟨global, there, -⟩ := inStep.holds entry entryMember
        exact (List.getElem?_eq_some_iff.mp there).1
      refine ⟨?_, ?_, ?_⟩
      · rw [interned, globals]
        refine List.forall_mem_append.mpr ⟨fun entry member => ?_, ?_⟩
        · obtain ⟨old, there, oldHolds⟩ := inStep.holds entry member
          refine ⟨old, ?_, oldHolds⟩
          rw [List.getElem?_append_left
            (List.getElem?_eq_some_iff.mp there).1]
          exact there
        · exact List.forall_mem_singleton.mpr ⟨global, by simp, holds⟩
      · rw [interned, List.map_append]
        refine List.nodup_append.mpr ⟨inStep.apart, by simp, ?_⟩
        intro id member last lastMember same
        rw [List.map_singleton, List.mem_singleton] at lastMember
        rw [same, lastMember] at member
        exact Nat.lt_irrefl _ (below _ member)
      · rw [interned, globals]
        have size : LiteralPool.size ⟨draft.literals.entries ++
            [(literal, draft.module.globals.length)]⟩ =
              draft.literals.size + 1 := by
          simp [LiteralPool.size]
        rw [size]
        refine List.forall_mem_append.mpr ⟨fun other member kind number
          above => ?_, List.forall_mem_singleton.mpr ?_⟩
        · exact inStep.free other member kind number
            (Nat.lt_of_succ_lt above)
        · intro kind number above same
          rw [name] at same
          have numbers := LiteralKind.globalName_injective same
          omega

theorem Step.inStep (step : Step draft events later)
    (inStep : draft.InStep) : later.InStep := by
  cases step with
  | furnish functions globals => exact inStep.of_same globals rfl
  | declare function noBlocks functions globals =>
      exact inStep.of_same globals rfl
  | environment number type initializer =>
      exact inStep.environment number type initializer
  | intern literal => exact inStep.intern literal
  | _ => exact inStep.of_same rfl rfl

theorem Trace.inStep (trace : Trace start events later)
    (inStep : start.InStep) : later.InStep :=
  trace.preserves InStep (fun step => step.inStep) inStep

/-! ## Addresses -/

/-- A register is filled with the address of the constant of a literal. -/
def Addresses (literal : Literal) (id : GlobalId) (register : Register)
    (draft : Draft) : Prop :=
  draft.literals.find? literal = some id ∧
    ∃ type, draft.module.Fills register (firstByte type id)

theorem Step.literals (step : Step draft events later) :
    draft.literals.entries <+: later.literals.entries := by
  cases step with
  | intern literal => exact draft.literals.entries_intern literal _
  | _ => exact List.prefix_refl _

theorem Step.fills (step : Step draft events later) {register : Register}
    {operation : Operation} (other : operation.isPhi = false)
    (fills : draft.module.Fills register operation) :
    later.module.Fills register operation := by
  obtain ⟨index, block, found, instruction, member, same, rfl⟩ := fills
  obtain ⟨laterBlock, laterFound, turns⟩ := step.turns found
  exact ⟨index, laterBlock, laterFound, instruction,
    turns.keeps other member, same, rfl⟩

/-- An address that was taken once is an address for good. -/
theorem Trace.addresses (trace : Trace start events later)
    {register : Register} (noted : .address literal id register ∈ events) :
    later.Addresses literal id register := by
  refine trace.noted (fun event draft => ∀ literal id register,
    event = .address literal id register →
      draft.Addresses literal id register) ?_ ?_ _ noted literal id register
        rfl
  · intro draft events later step event member literal id register same
    subst same
    cases step with
    | slot type name entered => cases List.mem_singleton.mp member
    | @address _ _ found block known position cursor type name =>
        cases List.mem_singleton.mp member
        obtain ⟨inner, there⟩ := Option.isSome_iff_exists.mp known
        obtain ⟨final, inserts⟩ := Module.block?_insertInstruction position
          (firstByte type id) name there
        exact ⟨found, type, block.index, _, inserts, _,
          Module.mem_insertAt.mpr (.inl rfl), rfl, rfl⟩
    | _ => cases member
  · rintro draft events later step event holds literal id register same
    obtain ⟨found, type, fills⟩ := holds literal id register same
    exact ⟨LiteralPool.find?_of_prefix step.literals found, type,
      step.fills rfl fills⟩

/-- The constant of a literal holds it, and no other literal has the same
constant. -/
theorem InStep.holds_of_find? (inStep : draft.InStep)
    (found : draft.literals.find? literal = some id) :
    ∃ global, draft.module.globals[id]? = some global ∧
      global.Holds literal :=
  inStep.holds (literal, id) (LiteralPool.mem_of_find? found)

theorem InStep.shares_iff (inStep : draft.InStep) {further : GlobalId}
    (found : draft.literals.find? literal = some id)
    (otherFound : draft.literals.find? other = some further) :
    id = further ↔ literal = other := by
  constructor
  · rintro rfl
    have same := List.inj_on_of_nodup_map inStep.apart
      (LiteralPool.mem_of_find? found) (LiteralPool.mem_of_find? otherFound)
        rfl
    exact congrArg Prod.fst same
  · rintro rfl
    exact Option.some.inj (found.symm.trans otherFound)

end Draft

end FormCompiler
