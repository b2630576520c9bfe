import Mathlib.Data.List.Nodup
import Mathlib.Data.List.Perm.Subperm
import Mathlib.Data.List.TakeWhile
import Mathlib.Tactic.Common
import Std.Data.String.ToNat
import FormCompiler.Ir.Module

/-!
# Blocks under construction

A block is straight when nothing but its last instruction may end it.  Any
instruction that does not end a block can be inserted ahead of the terminator
of a straight block, or anywhere in one without a terminator: control leaves
the block as before.

A function is sound when its blocks are straight and lead to blocks of the
same function, when a register tells the block it is filled in, and when no
two blocks share a name.
-/

namespace FormCompiler.Ir

namespace Block

variable {block : Block} {instruction : Instruction}

/-- Only the last instruction may end the block. -/
def Straight (block : Block) : Prop :=
  ∀ instruction ∈ block.instructions.dropLast,
    instruction.operation.isTerminator = false

/-- The phi that a block starts with. -/
def phi? (block : Block) : Option Instruction :=
  block.instructions.head?.filter fun instruction =>
    instruction.operation.isPhi

theorem isTerminated_eq_false_iff :
    block.isTerminated = false ↔ block.terminator? = none := by
  rw [isTerminated, Option.isSome_eq_false_iff, Option.isNone_iff_eq_none]

/-- A straight block has no terminator at all, or exactly one at its end. -/
theorem Straight.cases (straight : block.Straight) :
    (block.terminator? = none ∧ ∀ instruction ∈ block.instructions,
      instruction.operation.isTerminator = false) ∨
    ∃ body last, block.instructions = body ++ [last] ∧
      last.operation.isTerminator = true ∧
      block.terminator? = some last.operation ∧
      ∀ instruction ∈ body, instruction.operation.isTerminator = false := by
  rcases List.eq_nil_or_concat' block.instructions with empty |
    ⟨body, last, ends⟩
  · left
    simp [terminator?, empty]
  · unfold Straight at straight
    rw [ends, List.dropLast_concat] at straight
    cases ending : last.operation.isTerminator with
    | false =>
        left
        constructor
        · simp [terminator?, ends, ending]
        · intro instruction member
          rw [ends, List.mem_append, List.mem_singleton] at member
          rcases member with inside | rfl
          · exact straight instruction inside
          · exact ending
    | true =>
        right
        exact ⟨body, last, ends, ending, by simp [terminator?, ends, ending],
          straight⟩

/-- Positions where an instruction may be inserted. -/
def Admits (block : Block) (position : Nat) : Prop :=
  position ≤ block.instructions.length ∧
    (block.isTerminated = true → position < block.instructions.length)

theorem admits_end (isOpen : block.isTerminated = false) :
    block.Admits block.instructions.length := by
  simp [Admits, isOpen]

theorem admits_before_end (terminated : block.isTerminated = true) :
    block.Admits (block.instructions.length - 1) := by
  have nonempty : block.instructions ≠ [] := by
    intro empty
    simp [isTerminated, terminator?, empty] at terminated
  have positive := List.length_pos_iff.mpr nonempty
  exact ⟨by omega, fun _ => by omega⟩

/-- Leading instructions of a kind stand ahead of a terminator. -/
theorem admits_leading {isKind : Operation → Bool}
    (quiet : ∀ operation, isKind operation = true →
      operation.isTerminator = false) :
    block.Admits (block.leading isKind) := by
  have bounded : block.leading isKind ≤ block.instructions.length :=
    (List.takeWhile_sublist _).length_le
  refine ⟨bounded, ?_⟩
  intro terminated
  rcases List.eq_nil_or_concat' block.instructions with empty |
    ⟨body, last, ends⟩
  · simp [isTerminated, terminator?, empty] at terminated
  · apply Nat.lt_of_le_of_ne bounded
    intro all
    have everything := List.takeWhile_eq_self_iff.mp
      ((List.takeWhile_sublist _).eq_of_length all)
    have kind := everything last (by simp [ends])
    have quietLast := quiet _ kind
    simp [isTerminated, terminator?, ends, quietLast] at terminated

/-- What an insertion leaves as it was. -/
structure Keeps (index : Nat) (block later : Block) : Prop where
  name : later.name = block.name
  terminator : later.terminator? = block.terminator?
  /-- The first block of a function may get slots ahead of its phis. -/
  phi : index ≠ 0 → ∀ phi, block.phi? = some phi → later.phi? = some phi
  instructions : block.instructions.Sublist later.instructions

theorem Keeps.refl (index : Nat) (block : Block) : block.Keeps index block :=
  ⟨rfl, rfl, fun _ _ found => found, .refl _⟩

theorem Keeps.trans {index : Nat} {later last : Block}
    (first : block.Keeps index later) (second : later.Keeps index last) :
    block.Keeps index last :=
  ⟨second.name.trans first.name, second.terminator.trans first.terminator,
    fun other phi found => second.phi other phi (first.phi other phi found),
    first.instructions.trans second.instructions⟩

/-- An insertion leaves the instructions that were there. -/
theorem sublist_insertAt (block : Block) (position : Nat)
    (instruction : Instruction) :
    block.instructions.Sublist
      (block.insertAt position instruction).instructions := by
  have split := List.take_append_drop position block.instructions
  have keeps := (List.Sublist.refl (block.instructions.take position)).append
    (List.sublist_cons_self instruction (block.instructions.drop position))
  rwa [split] at keeps

theorem phi?_insertAt {position : Nat} (later : 0 < position)
    (inside : position ≤ block.instructions.length) :
    (block.insertAt position instruction).phi? = block.phi? := by
  cases instructions : block.instructions with
  | nil =>
      simp [instructions] at inside
      omega
  | cons first rest =>
      obtain ⟨before, rfl⟩ :=
        Nat.exists_eq_succ_of_ne_zero (Nat.ne_of_gt later)
      simp [phi?, insertAt, instructions]

/-- An instruction that does not end a block leaves a straight block
straight, with the terminator it has. -/
theorem Straight.insertAt (straight : block.Straight) {position : Nat}
    (instruction : Instruction)
    (quiet : instruction.operation.isTerminator = false)
    (admits : block.Admits position) :
    (block.insertAt position instruction).Straight ∧
      (block.insertAt position instruction).terminator? =
        block.terminator? := by
  rcases straight.cases with ⟨noTerminator, allQuiet⟩ |
    ⟨body, last, ends, ending, terminator, bodyQuiet⟩
  · have every : ∀ other ∈ (block.insertAt position instruction).instructions,
        other.operation.isTerminator = false := by
      intro other member
      simp only [Block.insertAt, List.mem_append, List.mem_cons] at member
      rcases member with before | rfl | after
      · exact allQuiet other (List.mem_of_mem_take before)
      · exact quiet
      · exact allQuiet other (List.mem_of_mem_drop after)
    constructor
    · intro other member
      exact every other (List.dropLast_subset _ member)
    · rw [noTerminator, terminator?]
      split
      · next final found =>
          simp [every final (List.mem_of_getLast? found)]
      · rfl
  · have inside : position ≤ body.length := by
      have := admits.2 (by rw [isTerminated, terminator, Option.isSome_some])
      rw [ends, List.length_append, List.length_singleton] at this
      omega
    have split : (block.insertAt position instruction).instructions =
        (body.take position ++ instruction :: body.drop position) ++
          [last] := by
      simp [Block.insertAt, ends, List.take_append_of_le_length inside,
        List.drop_append_of_le_length inside]
    constructor
    · unfold Straight
      rw [split, List.dropLast_concat]
      intro other member
      simp only [List.mem_append, List.mem_cons] at member
      rcases member with before | rfl | after
      · exact bodyQuiet other (List.mem_of_mem_take before)
      · exact quiet
      · exact bodyQuiet other (List.mem_of_mem_drop after)
    · rw [terminator, terminator?, split, List.getLast?_concat]
      simp [ending]

/-- A terminator at the end of an open block ends it. -/
theorem Straight.terminate (straight : block.Straight)
    (isOpen : block.isTerminated = false)
    (ending : instruction.operation.isTerminator = true) :
    (block.insertAt block.instructions.length instruction).Straight ∧
      (block.insertAt block.instructions.length instruction).terminator? =
        some instruction.operation := by
  have split :
      (block.insertAt block.instructions.length instruction).instructions =
        block.instructions ++ [instruction] := by
    simp [Block.insertAt]
  have allQuiet : ∀ other ∈ block.instructions,
      other.operation.isTerminator = false := by
    rcases straight.cases with ⟨-, allQuiet⟩ | ⟨_, _, _, _, terminator, _⟩
    · exact allQuiet
    · rw [isTerminated_eq_false_iff, terminator] at isOpen
      cases isOpen
  constructor
  · unfold Straight
    rw [split, List.dropLast_concat]
    exact allQuiet
  · rw [terminator?, split, List.getLast?_concat]
    simp [ending]

end Block

/-! ## Unique names -/

namespace NameTable

variable {table : NameTable} {name : String}

/-- A numbered name that is taken comes after taken ones only. -/
theorem taken_of_firstFree_mem {taken : List String} {stem : String}
    (attempts counter : Nat)
    (mem : (firstFree taken stem attempts counter).1 ∈ taken) :
    ∀ step ≤ attempts, stem ++ toString (counter + 1 + step) ∈ taken := by
  induction attempts generalizing counter with
  | zero =>
      intro step bounded
      rw [Nat.le_zero.mp bounded]
      exact mem
  | succ attempts ih =>
      unfold firstFree at mem
      simp only at mem
      split at mem
      · next found =>
          intro step bounded
          cases step with
          | zero => simpa using found
          | succ step =>
              have rest := ih (counter + 1) mem step (by omega)
              rw [show counter + 1 + (step + 1) = counter + 1 + 1 + step by
                omega]
              exact rest
      · next missing =>
          simp only [List.contains_iff_mem] at missing
          exact absurd mem missing

/-- More attempts than taken names find a free one. -/
theorem firstFree_notMem (taken : List String) (stem : String)
    (counter : Nat) :
    (firstFree taken stem taken.length counter).1 ∉ taken := by
  intro mem
  have allTaken := taken_of_firstFree_mem _ _ mem
  let candidates := (List.range (taken.length + 1)).map fun step =>
    stem ++ toString (counter + 1 + step)
  have distinct : candidates.Nodup := by
    apply List.Nodup.map _ List.nodup_range
    intro left right same
    have digits := String.append_right_inj stem |>.mp same
    have := Nat.repr_injective digits
    omega
  have inside : candidates ⊆ taken := by
    intro candidate member
    obtain ⟨step, bounded, rfl⟩ := List.mem_map.mp member
    exact allTaken step (by simpa [Nat.lt_succ_iff] using bounded)
  have count := (distinct.subperm inside).length_le
  simp only [candidates, List.length_map, List.length_range] at count
  omega

theorem firstFree_ne_empty {stem : String} (taken : List String)
    (attempts counter : Nat) (nonempty : stem ≠ "") :
    (firstFree taken stem attempts counter).1 ≠ "" := by
  induction attempts generalizing counter with
  | zero =>
      intro empty
      exact nonempty (String.append_eq_empty_iff.mp empty).1
  | succ attempts ih =>
      unfold firstFree
      simp only
      split
      · exact ih (counter + 1)
      · intro empty
        exact nonempty (String.append_eq_empty_iff.mp empty).1

/-- A reserved name is new to the table, unless it is empty. -/
theorem reserve_spec (table : NameTable) (separator : String)
    (nonempty : name ≠ "") :
    (table.reserve separator name).1 ≠ "" ∧
      (table.reserve separator name).1 ∉ table.taken ∧
      (table.reserve separator name).2.taken =
        (table.reserve separator name).1 :: table.taken := by
  unfold reserve
  rw [if_neg (by simpa using nonempty)]
  split
  · next taken =>
      refine ⟨?_, firstFree_notMem _ _ _, rfl⟩
      apply firstFree_ne_empty
      intro empty
      exact nonempty (String.append_eq_empty_iff.mp empty).1
  · next free =>
      exact ⟨nonempty, by simpa using free, rfl⟩

theorem reserve_empty (table : NameTable) (separator : String) :
    table.reserve separator "" = ("", table) := by
  simp [reserve]

/-- Reserving takes nothing back. -/
theorem taken_reserve (table : NameTable) (separator name : String) :
    table.taken ⊆ (table.reserve separator name).2.taken := by
  by_cases empty : name = ""
  · rw [empty, reserve_empty]
    exact List.Subset.refl _
  · rw [(table.reserve_spec separator empty).2.2]
    exact List.subset_cons_self _ _

end NameTable

/-! ## Functions -/

/-- What may be returned for a result type: nothing for `void`, and for a type
that is first-class an operand of that type. -/
def IrType.Gives (result : IrType) : Option Operand → Prop
  | none => result = .void
  | some operand => result.isFirstClass = true → operand.type = result

/-- Names that are kept for the thunks of closures. -/
def IsThunkName (name : String) : Prop :=
  "__edn.closure.thunk.".toList <+: name.toList

namespace Function

/-- A function may return a value.  What is returned under a name of a thunk
is another matter, since a closure may find the name in use. -/
def Returns (function : Function) (value : Option Operand) : Prop :=
  IsThunkName function.name ∨ function.result.Gives value

/-- What stays true of a function while it is built. -/
structure Sound (id : FunctionId) (function : Function) : Prop where
  straight : ∀ block ∈ function.blocks, block.Straight
  targets : ∀ block ∈ function.blocks, ∀ operation,
    block.terminator? = some operation → ∀ target ∈ operation.targets,
      target.function = id ∧ target.index < function.blocks.length
  registers : ∀ block ∈ function.blocks,
    ∀ instruction ∈ block.instructions,
      instruction.register.function = id ∧
        instruction.register.index < function.registerCount
  distinct : ∀ (left right : Nat) (leftBlock rightBlock : Block),
    function.blocks[left]? = some leftBlock →
    function.blocks[right]? = some rightBlock →
    ∀ first ∈ leftBlock.instructions, ∀ second ∈ rightBlock.instructions,
      first.register = second.register → left = right
  names : function.blockNames.Nodup
  taken : ∀ block ∈ function.blocks, block.name ≠ "" ∧
    block.name ∈ function.names.taken ∧
    block.name ∉ function.parameterNames
  parameterNames : ∀ name ∈ function.parameterNames,
    name = "" ∨ name ∈ function.names.taken
  parametersDistinct : ∀ (left right : Nat) (name : String), left ≠ right →
    function.parameterNames[left]? = some name →
    function.parameterNames[right]? = some name → name = ""
  returns : ∀ block ∈ function.blocks, ∀ value,
    block.terminator? = some (.ret value) → function.Returns value

variable {id : FunctionId} {function : Function}

theorem Returns.congr {later : Function} {value : Option Operand}
    (returns : function.Returns value) (name : later.name = function.name)
    (result : later.result = function.result) : later.Returns value := by
  unfold Returns
  rw [name, result]
  exact returns

theorem sound_of_noBlocks (noBlocks : function.blocks = [])
    (unnamed : ∀ name ∈ function.parameterNames, name = "") :
    function.Sound id := by
  refine ⟨?_, ?_, ?_, ?_, ?_, ?_, ?_, ?_, ?_⟩
  · simp [noBlocks]
  · simp [noBlocks]
  · simp [noBlocks]
  · simp [noBlocks]
  · simp [blockNames, noBlocks]
  · simp [noBlocks]
  · exact fun name member => .inl (unnamed name member)
  · intro left right name _ found _
    exact unnamed name (List.mem_of_getElem? found)
  · simp [noBlocks]

/-- A change that only touches what soundness does not speak of. -/
theorem Sound.congr {later : Function} (sound : function.Sound id)
    (name : later.name = function.name)
    (result : later.result = function.result)
    (blocks : later.blocks = function.blocks)
    (registerCount : later.registerCount = function.registerCount)
    (names : later.names = function.names)
    (parameterNames : later.parameterNames = function.parameterNames) :
    later.Sound id := by
  constructor
  · rw [blocks]
    exact sound.straight
  · rw [blocks]
    exact sound.targets
  · rw [blocks, registerCount]
    exact sound.registers
  · rw [blocks]
    exact sound.distinct
  · rw [blockNames, blocks]
    exact sound.names
  · rw [blocks, names, parameterNames]
    exact sound.taken
  · rw [names, parameterNames]
    exact sound.parameterNames
  · rw [parameterNames]
    exact sound.parametersDistinct
  · rw [blocks]
    intro block member value ends
    exact (sound.returns block member value ends).congr name result

/-- A block with one more instruction, which fills a fresh register. -/
structure Inserted (id : FunctionId) (index : Nat) (position : Block → Nat)
    (operation : Operation) (function later : Function) : Prop where
  name : later.name = function.name
  result : later.result = function.result
  blocks : ∃ name, later.blocks =
    function.blocks.modify index fun block =>
      block.insertAt (position block)
        ⟨⟨id, function.registerCount⟩, name, operation⟩
  registerCount : later.registerCount = function.registerCount + 1
  names : function.names.taken ⊆ later.names.taken
  parameterNames : later.parameterNames = function.parameterNames

namespace Inserted

variable {index : Nat} {position : Block → Nat} {operation : Operation}
  {later : Function}

/-- Blocks of the later function, by position. -/
theorem getElem? (inserted : Inserted id index position operation function
      later) {place : Nat} {laterBlock : Block}
    (found : later.blocks[place]? = some laterBlock) :
    ∃ block, function.blocks[place]? = some block ∧
      ((place ≠ index ∧ laterBlock = block) ∨
        (place = index ∧ ∃ name, laterBlock =
          block.insertAt (position block)
            ⟨⟨id, function.registerCount⟩, name, operation⟩)) := by
  obtain ⟨name, blocks⟩ := inserted.blocks
  rw [blocks, List.getElem?_modify] at found
  obtain ⟨block, blockFound, same⟩ := Option.map_eq_some_iff.mp found
  refine ⟨block, blockFound, ?_⟩
  split at same
  · next here => exact .inr ⟨here.symm, name, same.symm⟩
  · next elsewhere => exact .inl ⟨fun here => elsewhere here.symm, same.symm⟩

theorem length (inserted : Inserted id index position operation function
      later) : later.blocks.length = function.blocks.length := by
  obtain ⟨name, blocks⟩ := inserted.blocks
  rw [blocks, List.length_modify]

theorem blockNames (inserted : Inserted id index position operation function
      later) : later.blockNames = function.blockNames := by
  apply List.ext_getElem?
  intro place
  obtain ⟨name, blocks⟩ := inserted.blocks
  simp only [Function.blockNames, blocks, List.getElem?_map,
    List.getElem?_modify, Option.map_map, Functor.map]
  congr 1
  funext block
  simp only [Function.comp]
  split <;> rfl

/-- Soundness comes down to the block that is inserted into. -/
theorem sound (inserted : Inserted id index position operation function
      later) (sound : function.Sound id)
    (fresh : ∀ (block laterBlock : Block),
      function.blocks[index]? = some block →
      later.blocks[index]? = some laterBlock →
      laterBlock.Straight ∧ ∀ ending, laterBlock.terminator? = some ending →
        (∀ target ∈ ending.targets,
          target.function = id ∧ target.index < function.blocks.length) ∧
        ∀ value, ending = .ret value → function.Returns value) :
    later.Sound id := by
  have registersOf {place : Nat} {laterBlock : Block}
      (found : later.blocks[place]? = some laterBlock)
      {instruction : Instruction}
      (member : instruction ∈ laterBlock.instructions) :
      (∃ block, function.blocks[place]? = some block ∧
        instruction ∈ block.instructions) ∨
      (place = index ∧
        instruction.register = ⟨id, function.registerCount⟩) := by
    obtain ⟨block, blockFound, ⟨-, rfl⟩ | ⟨here, name, rfl⟩⟩ :=
      inserted.getElem? found
    · exact .inl ⟨laterBlock, blockFound, member⟩
    · simp only [Block.insertAt, List.mem_append, List.mem_cons] at member
      rcases member with before | rfl | after
      · exact .inl ⟨block, blockFound, List.mem_of_mem_take before⟩
      · exact .inr ⟨here, rfl⟩
      · exact .inl ⟨block, blockFound, List.mem_of_mem_drop after⟩
  have oldRegister {place : Nat} {block : Block} {instruction : Instruction}
      (found : function.blocks[place]? = some block)
      (member : instruction ∈ block.instructions) :
      instruction.register ≠ ⟨id, function.registerCount⟩ := by
    intro same
    have := (sound.registers block (List.mem_of_getElem? found) instruction
      member).2
    rw [same] at this
    exact Nat.lt_irrefl _ this
  constructor
  · intro laterBlock member
    obtain ⟨place, found⟩ := List.mem_iff_getElem?.mp member
    obtain ⟨block, blockFound, ⟨-, rfl⟩ | ⟨rfl, -⟩⟩ := inserted.getElem? found
    · exact sound.straight laterBlock (List.mem_of_getElem? blockFound)
    · exact (fresh block laterBlock blockFound found).1
  · intro laterBlock member ending terminator
    rw [inserted.length]
    obtain ⟨place, found⟩ := List.mem_iff_getElem?.mp member
    obtain ⟨block, blockFound, ⟨-, rfl⟩ | ⟨rfl, -⟩⟩ := inserted.getElem? found
    · exact sound.targets laterBlock (List.mem_of_getElem? blockFound) ending
        terminator
    · exact ((fresh block laterBlock blockFound found).2 ending terminator).1
  · intro laterBlock member instruction instructionMember
    rw [inserted.registerCount]
    obtain ⟨place, found⟩ := List.mem_iff_getElem?.mp member
    rcases registersOf found instructionMember with
      ⟨block, blockFound, old⟩ | ⟨-, new⟩
    · obtain ⟨same, bounded⟩ := sound.registers block
        (List.mem_of_getElem? blockFound) instruction old
      exact ⟨same, Nat.lt_succ_of_lt bounded⟩
    · rw [new]
      exact ⟨rfl, Nat.lt_succ_self _⟩
  · intro left right leftBlock rightBlock leftFound rightFound first
      firstMember second secondMember same
    rcases registersOf leftFound firstMember with
        ⟨block, blockFound, old⟩ | ⟨leftHere, new⟩ <;>
      rcases registersOf rightFound secondMember with
        ⟨other, otherFound, otherOld⟩ | ⟨rightHere, otherNew⟩
    · exact sound.distinct left right block other blockFound otherFound first
        old second otherOld same
    · exact absurd (same.trans otherNew) (oldRegister blockFound old)
    · exact absurd (same.symm.trans new) (oldRegister otherFound otherOld)
    · rw [leftHere, rightHere]
  · rw [inserted.blockNames]
    exact sound.names
  · intro laterBlock member
    rw [inserted.parameterNames]
    have named : laterBlock.name ∈ function.blockNames := by
      rw [← inserted.blockNames]
      exact List.mem_map_of_mem member
    obtain ⟨block, blockMember, same⟩ := List.mem_map.mp named
    obtain ⟨nonempty, taken, notParameter⟩ := sound.taken block blockMember
    rw [← same]
    exact ⟨nonempty, inserted.names taken, notParameter⟩
  · rw [inserted.parameterNames]
    intro name member
    rcases sound.parameterNames name member with empty | taken
    · exact .inl empty
    · exact .inr (inserted.names taken)
  · rw [inserted.parameterNames]
    exact sound.parametersDistinct
  · intro laterBlock member value terminator
    refine Returns.congr ?_ inserted.name inserted.result
    obtain ⟨place, found⟩ := List.mem_iff_getElem?.mp member
    obtain ⟨block, blockFound, ⟨-, rfl⟩ | ⟨rfl, -⟩⟩ := inserted.getElem? found
    · exact sound.returns laterBlock (List.mem_of_getElem? blockFound) value
        terminator
    · exact ((fresh block laterBlock blockFound found).2 _ terminator).2
        value rfl

/-- An instruction that does not end its block is inserted ahead of the
terminator, and behind the phi that the block starts with. -/
theorem quiet (inserted : Inserted id index position operation function
      later) (sound : function.Sound id)
    (notEnding : operation.isTerminator = false)
    (admits : ∀ block, function.blocks[index]? = some block →
      block.Admits (position block))
    (behindPhi : ∀ block, function.blocks[index]? = some block → index ≠ 0 →
      block.phi?.isSome = true → 0 < position block) :
    later.Sound id ∧ ∀ (place : Nat) (block laterBlock : Block),
      function.blocks[place]? = some block →
      later.blocks[place]? = some laterBlock →
        block.Keeps place laterBlock := by
  have inserts {block laterBlock : Block}
      (blockFound : function.blocks[index]? = some block)
      (found : later.blocks[index]? = some laterBlock) :
      laterBlock.Straight ∧ block.Keeps index laterBlock := by
    obtain ⟨same, sameFound, ⟨elsewhere, -⟩ | ⟨-, name, rfl⟩⟩ :=
      inserted.getElem? found
    · exact absurd rfl elsewhere
    · cases blockFound.symm.trans sameFound
      have admitted := admits block blockFound
      obtain ⟨straight, terminator⟩ :=
        (sound.straight block (List.mem_of_getElem? blockFound)).insertAt
          ⟨⟨id, function.registerCount⟩, name, operation⟩ notEnding admitted
      refine ⟨straight, rfl, terminator, ?_, block.sublist_insertAt _ _⟩
      intro other phi phiFound
      rw [Block.phi?_insertAt _ admitted.1, phiFound]
      exact behindPhi block blockFound other (by rw [phiFound]; rfl)
  constructor
  · apply inserted.sound sound
    intro block laterBlock blockFound found
    obtain ⟨straight, keeps⟩ := inserts blockFound found
    have member := List.mem_of_getElem? blockFound
    refine ⟨straight, ?_⟩
    rw [keeps.terminator]
    intro ending terminator
    refine ⟨sound.targets block member ending terminator, ?_⟩
    rintro value rfl
    exact sound.returns block member value terminator
  · intro place block laterBlock blockFound found
    obtain ⟨same, sameFound, ⟨-, rfl⟩ | ⟨rfl, -⟩⟩ := inserted.getElem? found
    · cases blockFound.symm.trans sameFound
      exact Block.Keeps.refl place block
    · exact (inserts blockFound found).2

end Inserted

/-- An empty block under a name that is new to the function. -/
theorem Sound.append {later : Function} (sound : function.Sound id)
    (sameName : later.name = function.name)
    (result : later.result = function.result)
    {name : String} (nonempty : name ≠ "")
    (free : name ∉ function.names.taken)
    (blocks : later.blocks = function.blocks ++ [⟨name, []⟩])
    (registerCount : later.registerCount = function.registerCount)
    (names : later.names.taken = name :: function.names.taken)
    (parameterNames : later.parameterNames = function.parameterNames) :
    later.Sound id := by
  have cases {place : Nat} {block : Block}
      (found : later.blocks[place]? = some block) :
      function.blocks[place]? = some block ∨ block = ⟨name, []⟩ := by
    rw [blocks, List.getElem?_append] at found
    split at found
    · exact .inl found
    · exact .inr (List.mem_singleton.mp (List.mem_of_getElem? found))
  have memCases {block : Block} (member : block ∈ later.blocks) :
      block ∈ function.blocks ∨ block = ⟨name, []⟩ := by
    rw [blocks, List.mem_append, List.mem_singleton] at member
    exact member
  have notParameter : name ∉ function.parameterNames := by
    intro member
    rcases sound.parameterNames name member with empty | taken
    · exact nonempty empty
    · exact free taken
  constructor
  · intro block member
    rcases memCases member with old | rfl
    · exact sound.straight block old
    · simp [Block.Straight]
  · intro block member operation terminator target targetMember
    rcases memCases member with old | rfl
    · obtain ⟨same, bounded⟩ := sound.targets block old operation terminator
        target targetMember
      refine ⟨same, ?_⟩
      rw [blocks, List.length_append]
      omega
    · simp [Block.terminator?] at terminator
  · intro block member
    rw [registerCount]
    rcases memCases member with old | rfl
    · exact sound.registers block old
    · simp
  · intro left right leftBlock rightBlock leftFound rightFound first
      firstMember second secondMember
    rcases cases leftFound with leftOld | rfl
    · rcases cases rightFound with rightOld | rfl
      · exact sound.distinct left right leftBlock rightBlock leftOld rightOld
          first firstMember second secondMember
      · simp at secondMember
    · simp at firstMember
  · rw [blockNames, blocks, List.map_append, List.nodup_append]
    refine ⟨sound.names, by simp, ?_⟩
    intro other otherMember fresh freshMember
    obtain ⟨block, member, rfl⟩ := List.mem_map.mp otherMember
    rw [List.map_singleton, List.mem_singleton] at freshMember
    rintro rfl
    have taken := (sound.taken block member).2.1
    rw [freshMember] at taken
    exact free taken
  · intro block member
    rw [names, parameterNames]
    rcases memCases member with old | rfl
    · obtain ⟨filled, taken, outside⟩ := sound.taken block old
      exact ⟨filled, List.mem_cons_of_mem _ taken, outside⟩
    · exact ⟨nonempty, List.mem_cons_self, notParameter⟩
  · rw [names, parameterNames]
    intro other member
    rcases sound.parameterNames other member with empty | taken
    · exact .inl empty
    · exact .inr (List.mem_cons_of_mem _ taken)
  · rw [parameterNames]
    exact sound.parametersDistinct
  · intro block member value terminator
    rcases memCases member with old | rfl
    · exact (sound.returns block old value terminator).congr sameName result
    · simp [Block.terminator?] at terminator

/-- Renaming a parameter gives its old name back and no other. -/
theorem Sound.rename {later : Function} (sound : function.Sound id)
    (sameName : later.name = function.name)
    (result : later.result = function.result)
    {index : Nat} {old : String}
    (was : old = (function.parameterNames[index]?).getD "") (name : String)
    (blocks : later.blocks = function.blocks)
    (registerCount : later.registerCount = function.registerCount)
    (names : later.names =
      ((function.names.release old).reserve "" name).2)
    (parameterNames : later.parameterNames = function.parameterNames.set index
      ((function.names.release old).reserve "" name).1) :
    later.Sound id := by
  have kept {other : String} (taken : other ∈ function.names.taken)
      (different : other ≠ old) :
      other ∈ (function.names.release old).taken := by
    simpa [NameTable.release] using ⟨taken, different⟩
  have keptLater {other : String} (taken : other ∈ function.names.taken)
      (different : other ≠ old) : other ∈ later.names.taken := by
    rw [names]
    exact NameTable.taken_reserve _ _ _ (kept taken different)
  have fresh : ((function.names.release old).reserve "" name).1 = "" ∨
      (((function.names.release old).reserve "" name).1 ∉
          (function.names.release old).taken ∧
        ((function.names.release old).reserve "" name).1 ∈
          later.names.taken) := by
    by_cases empty : name = ""
    · rw [empty, NameTable.reserve_empty]
      exact .inl rfl
    · obtain ⟨-, free, taken⟩ :=
        NameTable.reserve_spec (function.names.release old) "" empty
      refine .inr ⟨free, ?_⟩
      rw [names, taken]
      exact List.mem_cons_self
  have wasParameter : old = "" ∨
      function.parameterNames[index]? = some old := by
    cases found : function.parameterNames[index]? with
    | none =>
        rw [found] at was
        exact .inl was
    | some other =>
        rw [found] at was
        exact .inr (congrArg some was.symm)
  -- a parameter under another position has another name, or none
  have others {place : Nat} {other : String} (elsewhere : place ≠ index)
      (found : function.parameterNames[place]? = some other) :
      other = "" ∨ (other ∈ function.names.taken ∧ other ≠ old) := by
    rcases sound.parameterNames other (List.mem_of_getElem? found) with
      empty | taken
    · exact .inl empty
    · by_cases same : other = old
      · left
        rcases wasParameter with empty | recorded
        · exact same.trans empty
        · rw [← same] at recorded
          exact sound.parametersDistinct place index other elsewhere found
            recorded
      · exact .inr ⟨taken, same⟩
  have parameterCases {place : Nat} {other : String}
      (found : later.parameterNames[place]? = some other) :
      (place = index ∧
        other = ((function.names.release old).reserve "" name).1) ∨
      (place ≠ index ∧ function.parameterNames[place]? = some other) := by
    rw [parameterNames, List.getElem?_set] at found
    split at found
    · next same =>
        split at found <;> cases found
        exact .inl ⟨same.symm, rfl⟩
    · next different => exact .inr ⟨fun same => different same.symm, found⟩
  constructor
  · rw [blocks]
    exact sound.straight
  · rw [blocks]
    exact sound.targets
  · rw [blocks, registerCount]
    exact sound.registers
  · rw [blocks]
    exact sound.distinct
  · rw [blockNames, blocks]
    exact sound.names
  · rw [blocks]
    intro block member
    obtain ⟨nonempty, taken, outside⟩ := sound.taken block member
    have different : block.name ≠ old := by
      intro same
      rcases wasParameter with empty | recorded
      · exact nonempty (same.trans empty)
      · rw [same] at outside
        exact outside (List.mem_of_getElem? recorded)
    refine ⟨nonempty, keptLater taken different, ?_⟩
    intro parameter
    obtain ⟨place, found⟩ := List.mem_iff_getElem?.mp parameter
    rcases parameterCases found with ⟨-, same⟩ | ⟨-, oldFound⟩
    · rcases fresh with empty | ⟨free, -⟩
      · exact nonempty (same.trans empty)
      · rw [← same] at free
        exact free (kept taken different)
    · exact outside (List.mem_of_getElem? oldFound)
  · intro other member
    obtain ⟨place, found⟩ := List.mem_iff_getElem?.mp member
    rcases parameterCases found with ⟨-, rfl⟩ | ⟨elsewhere, oldFound⟩
    · rcases fresh with empty | ⟨-, taken⟩
      · exact .inl empty
      · exact .inr taken
    · rcases others elsewhere oldFound with empty | ⟨taken, different⟩
      · exact .inl empty
      · exact .inr (keptLater taken different)
  · intro left right other apart leftFound rightFound
    have clash {place : Nat} (elsewhere : place ≠ index)
        (found : function.parameterNames[place]? = some other)
        (same : other =
          ((function.names.release old).reserve "" name).1) : other = "" := by
      rcases others elsewhere found with empty | ⟨taken, different⟩
      · exact empty
      · rcases fresh with empty | ⟨free, -⟩
        · exact same.trans empty
        · rw [← same] at free
          exact absurd (kept taken different) free
    rcases parameterCases leftFound with ⟨leftHere, leftSame⟩ |
        ⟨leftElsewhere, leftOld⟩ <;>
      rcases parameterCases rightFound with ⟨rightHere, rightSame⟩ |
        ⟨rightElsewhere, rightOld⟩
    · exact absurd (leftHere.trans rightHere.symm) apart
    · exact clash rightElsewhere rightOld leftSame
    · exact clash leftElsewhere leftOld rightSame
    · exact sound.parametersDistinct left right other apart leftOld rightOld
  · rw [blocks]
    intro block member value terminator
    exact (sound.returns block member value terminator).congr sameName result

end Function

/-- A change of operations that leaves all but phis alone, and phis phis. -/
structure ChangesPhis (change : Operation → Operation) : Prop where
  other : ∀ operation, operation.isPhi = false → change operation = operation
  phi : ∀ operation, operation.isPhi = true →
    (change operation).isPhi = true

theorem isTerminator_of_isPhi {operation : Operation}
    (phi : operation.isPhi = true) : operation.isTerminator = false := by
  cases operation <;> simp_all [Operation.isPhi, Operation.isTerminator]

theorem ChangesPhis.isTerminator {change : Operation → Operation}
    (changes : ChangesPhis change) (operation : Operation) :
    (change operation).isTerminator = operation.isTerminator := by
  cases phi : operation.isPhi with
  | false => rw [changes.other operation phi]
  | true =>
      rw [isTerminator_of_isPhi phi,
        isTerminator_of_isPhi (changes.phi operation phi)]

/-- Applies a change to the instruction that fills a register. -/
def Instruction.rephi (register : Register) (change : Operation → Operation)
    (instruction : Instruction) : Instruction :=
  if instruction.register = register then
    { instruction with operation := change instruction.operation }
  else instruction

namespace Instruction

variable {register : Register} {change : Operation → Operation}

@[simp]
theorem rephi_register (instruction : Instruction) :
    (instruction.rephi register change).register = instruction.register := by
  unfold rephi
  split <;> rfl

theorem rephi_isTerminator (changes : ChangesPhis change)
    (instruction : Instruction) :
    (instruction.rephi register change).operation.isTerminator =
      instruction.operation.isTerminator := by
  unfold rephi
  split
  · exact changes.isTerminator _
  · rfl

theorem rephi_of_not_isPhi (changes : ChangesPhis change)
    {instruction : Instruction}
    (other : instruction.operation.isPhi = false) :
    instruction.rephi register change = instruction := by
  unfold rephi
  rw [changes.other _ other]
  split <;> rfl

theorem rephi_of_isTerminator (changes : ChangesPhis change)
    {instruction : Instruction}
    (ending : instruction.operation.isTerminator = true) :
    instruction.rephi register change = instruction := by
  refine rephi_of_not_isPhi changes ?_
  by_contra phi
  rw [isTerminator_of_isPhi (by simpa using phi)] at ending
  cases ending

end Instruction

namespace Block

variable {block : Block} {register : Register}
  {change : Operation → Operation}

/-- A block after a change of one instruction. -/
def rephi (block : Block) (register : Register)
    (change : Operation → Operation) : Block :=
  { block with
    instructions := block.instructions.map
      (Instruction.rephi register change) }

theorem Straight.rephi (straight : block.Straight)
    (changes : ChangesPhis change) :
    (block.rephi register change).Straight ∧
      (block.rephi register change).terminator? = block.terminator? := by
  constructor
  · unfold Straight Block.rephi
    rw [← List.map_dropLast]
    intro instruction member
    obtain ⟨old, oldMember, rfl⟩ := List.mem_map.mp member
    rw [Instruction.rephi_isTerminator changes]
    exact straight old oldMember
  · unfold terminator? Block.rephi
    simp only [List.getLast?_map]
    cases block.instructions.getLast? with
    | none => rfl
    | some last =>
        simp only [Option.map_some, Instruction.rephi_isTerminator changes]
        split
        · next ending => rw [Instruction.rephi_of_isTerminator changes ending]
        · rfl

end Block

namespace Function

variable {id : FunctionId} {function : Function} {register : Register}
  {change : Operation → Operation}

/-- A function after a change of one instruction. -/
theorem Sound.rephi {later : Function} (sound : function.Sound id)
    (name : later.name = function.name)
    (result : later.result = function.result)
    (changes : ChangesPhis change)
    (blocks : later.blocks =
      function.blocks.map fun block => block.rephi register change)
    (registerCount : later.registerCount = function.registerCount)
    (names : later.names = function.names)
    (parameterNames : later.parameterNames = function.parameterNames) :
    later.Sound id := by
  have blockNames : later.blockNames = function.blockNames := by
    rw [Function.blockNames, blocks, List.map_map]
    rfl
  constructor
  · intro laterBlock member
    rw [blocks] at member
    obtain ⟨block, blockMember, rfl⟩ := List.mem_map.mp member
    exact ((sound.straight block blockMember).rephi changes).1
  · intro laterBlock member
    rw [blocks] at member
    obtain ⟨block, blockMember, rfl⟩ := List.mem_map.mp member
    rw [((sound.straight block blockMember).rephi changes).2, blocks,
      List.length_map]
    exact sound.targets block blockMember
  · intro laterBlock member instruction instructionMember
    rw [blocks] at member
    obtain ⟨block, blockMember, rfl⟩ := List.mem_map.mp member
    obtain ⟨old, oldMember, rfl⟩ := List.mem_map.mp instructionMember
    rw [Instruction.rephi_register, registerCount]
    exact sound.registers block blockMember old oldMember
  · intro left right leftBlock rightBlock leftFound rightFound first
      firstMember second secondMember same
    rw [blocks, List.getElem?_map] at leftFound rightFound
    obtain ⟨leftOld, leftOldFound, rfl⟩ := Option.map_eq_some_iff.mp leftFound
    obtain ⟨rightOld, rightOldFound, rfl⟩ :=
      Option.map_eq_some_iff.mp rightFound
    obtain ⟨firstOld, firstOldMember, rfl⟩ := List.mem_map.mp firstMember
    obtain ⟨secondOld, secondOldMember, rfl⟩ := List.mem_map.mp secondMember
    rw [Instruction.rephi_register, Instruction.rephi_register] at same
    exact sound.distinct left right leftOld rightOld leftOldFound
      rightOldFound firstOld firstOldMember secondOld secondOldMember same
  · rw [blockNames]
    exact sound.names
  · intro laterBlock member
    rw [blocks] at member
    obtain ⟨block, blockMember, rfl⟩ := List.mem_map.mp member
    rw [names, parameterNames]
    exact sound.taken block blockMember
  · rw [names, parameterNames]
    exact sound.parameterNames
  · rw [parameterNames]
    exact sound.parametersDistinct
  · intro laterBlock member value
    rw [blocks] at member
    obtain ⟨block, blockMember, rfl⟩ := List.mem_map.mp member
    rw [((sound.straight block blockMember).rephi changes).2]
    intro terminator
    exact (sound.returns block blockMember value terminator).congr name result

end Function

end FormCompiler.Ir
