import FormCompiler.Proofs.Building

/-!
# Blocks that are added and ended

Control flow grows in two ways: an empty block is added to the current
function, or the current block is ended by an operation.  Whatever is built,
a block keeps its name, its terminator once it has one, and the phi it starts
with.
-/

namespace FormCompiler.Ir

/-- What a block keeps for good. -/
structure Block.Develops (index : Nat) (block later : Block) : Prop where
  name : later.name = block.name
  terminator : ∀ ending, block.terminator? = some ending →
    later.terminator? = some ending
  phi : index ≠ 0 → ∀ phi, block.phi? = some phi → later.phi? = some phi
  instructions : block.instructions.Sublist later.instructions

theorem Block.Develops.refl (index : Nat) (block : Block) :
    block.Develops index block :=
  ⟨rfl, fun _ found => found, fun _ _ found => found, .refl _⟩

theorem Block.Keeps.develops {index : Nat} {block later : Block}
    (keeps : block.Keeps index later) : block.Develops index later :=
  ⟨keeps.name, fun _ found => keeps.terminator.trans found, keeps.phi,
    keeps.instructions⟩

namespace Module

/-- Control may pass from a block to another one. -/
def Leads (module : Module) (source target : BlockId) : Prop :=
  ∃ ending, module.terminator? source = some ending ∧
    target ∈ ending.targets

/-- What a module keeps for good. -/
structure Develops (module later : Module) : Prop extends
    module.Extends later where
  registers : ∀ id, (module.function id).registerCount ≤
    (later.function id).registerCount
  blocks : ∀ id block, module.block? id = some block →
    ∃ laterBlock, later.block? id = some laterBlock ∧
      block.Develops id.index laterBlock

variable {module later last : Module} {id source target : BlockId}

theorem Quiet.develops (quiet : module.Quiet later) :
    module.Develops later := by
  refine ⟨quiet.toExtends, quiet.registers, ?_⟩
  intro id block found
  obtain ⟨laterBlock, laterFound, keeps⟩ := quiet.blocks id block found
  exact ⟨laterBlock, laterFound, keeps.develops⟩

namespace Develops

theorem refl (module : Module) : module.Develops module :=
  (Quiet.refl module).develops

theorem trans (first : module.Develops later)
    (second : later.Develops last) : module.Develops last := by
  refine ⟨first.toExtends.trans second.toExtends,
    fun id => (first.registers id).trans (second.registers id), ?_⟩
  intro id block found
  obtain ⟨laterBlock, laterFound, one⟩ := first.blocks id block found
  obtain ⟨lastBlock, lastFound, two⟩ :=
    second.blocks id laterBlock laterFound
  exact ⟨lastBlock, lastFound, two.name.trans one.name,
    fun ending ends => two.terminator ending (one.terminator ending ends),
    fun notFirst phi leads =>
      two.phi notFirst phi (one.phi notFirst phi leads),
    one.instructions.trans two.instructions⟩

theorem known (develops : module.Develops later)
    (known : (module.block? id).isSome = true) :
    (later.block? id).isSome = true := by
  obtain ⟨block, found⟩ := Option.isSome_iff_exists.mp known
  obtain ⟨laterBlock, laterFound, -⟩ := develops.blocks id block found
  rw [laterFound]
  rfl

theorem missing (develops : module.Develops later)
    (missing : later.block? id = none) : module.block? id = none := by
  cases found : module.block? id with
  | none => rfl
  | some block =>
      obtain ⟨_, laterFound, -⟩ := develops.blocks id block found
      rw [missing] at laterFound
      cases laterFound

theorem terminator? (develops : module.Develops later) {ending : Operation}
    (ends : module.terminator? id = some ending) :
    later.terminator? id = some ending := by
  obtain ⟨block, found, ends⟩ := Option.bind_eq_some_iff.mp ends
  obtain ⟨laterBlock, laterFound, grows⟩ := develops.blocks id block found
  rw [Module.terminator?, laterFound]
  exact grows.terminator ending ends

theorem leads (develops : module.Develops later)
    (leads : module.Leads source target) : later.Leads source target := by
  obtain ⟨ending, ends, member⟩ := leads
  exact ⟨ending, develops.terminator? ends, member⟩

theorem blockName (develops : module.Develops later)
    (known : (module.block? id).isSome = true) :
    later.blockName id = module.blockName id := by
  obtain ⟨block, found⟩ := Option.isSome_iff_exists.mp known
  obtain ⟨laterBlock, laterFound, grows⟩ := develops.blocks id block found
  simp only [Module.blockName, found, laterFound, Option.map_some,
    Option.getD_some, grows.name]

end Develops

theorem Leads.known (leads : module.Leads source target) :
    (module.block? source).isSome = true := by
  obtain ⟨ending, ends, -⟩ := leads
  obtain ⟨block, found, -⟩ := Option.bind_eq_some_iff.mp ends
  rw [found]
  rfl

/-- Control stays within a function. -/
theorem Sound.leads (sound : module.Sound)
    (leads : module.Leads source target) :
    target.function = source.function ∧
      (module.block? target).isSome = true := by
  obtain ⟨ending, ends, member⟩ := leads
  obtain ⟨block, found, terminator⟩ := Option.bind_eq_some_iff.mp ends
  obtain ⟨same, bounded⟩ := (sound.bodies source.function).targets block
    (List.mem_of_getElem? found) ending terminator target member
  refine ⟨same, ?_⟩
  rw [block?_eq, same, List.getElem?_eq_getElem bounded]
  rfl

/-- Quiet changes open no new way. -/
theorem Quiet.leads (quiet : module.Quiet later)
    (leads : later.Leads source target) : module.Leads source target := by
  obtain ⟨ending, ends, member⟩ := leads
  cases found : module.block? source with
  | some block =>
      refine ⟨ending, ?_, member⟩
      rw [← quiet.terminator? (by rw [found]; rfl)]
      exact ends
  | none =>
      obtain ⟨laterBlock, laterFound, terminator⟩ :=
        Option.bind_eq_some_iff.mp ends
      obtain ⟨fresh, freshEnds, nowhere⟩ :=
        quiet.fresh source laterBlock found laterFound
      cases terminator.symm.trans freshEnds
      rw [nowhere] at member
      cases member

/-- A terminator at the end of an open block. -/
theorem Sound.terminate (sound : module.Sound) {block : BlockId}
    {inner : Block} (found : module.block? block = some inner)
    (isOpen : inner.isTerminated = false) (position : Block → Nat)
    (atEnd : position inner = inner.instructions.length)
    {operation : Operation} (ending : operation.isTerminator = true)
    (targets : ∀ target ∈ operation.targets,
      target.function = block.function ∧
        (module.block? target).isSome = true)
    (returns : ∀ value, operation = .ret value →
      (module.function block.function).Returns value) (name : String) :
    (insertInstruction block position operation name module).2.Sound ∧
      module.Develops
        (insertInstruction block position operation name module).2 ∧
      (insertInstruction block position operation name module).2.terminator?
        block = some operation := by
  have inserted := inserted_inserting module block position operation name
  have straight := (sound.bodies block.function).straight inner
    (List.mem_of_getElem? found)
  have laterBlock {laterInner : Block}
      (laterFound : (module.inserting block position operation name
        (module.function block.function)).blocks[block.index]? =
          some laterInner) :
      ∃ final, laterInner = inner.insertAt inner.instructions.length
        ⟨⟨block.function, (module.function block.function).registerCount⟩,
          final, operation⟩ := by
    obtain ⟨same, sameFound, ⟨elsewhere, -⟩ | ⟨-, final, rfl⟩⟩ :=
      inserted.getElem? laterFound
    · exact absurd rfl elsewhere
    · cases (sameFound.symm.trans found : some same = some inner)
      exact ⟨final, by rw [atEnd]⟩
  have body := inserted.sound (sound.bodies block.function) (by
    intro before laterInner _ laterFound
    obtain ⟨final, rfl⟩ := laterBlock laterFound
    obtain ⟨laterStraight, terminator⟩ := straight.terminate isOpen
      (show Operation.isTerminator (Instruction.operation ⟨_, final, _⟩) =
        true from ending)
    refine ⟨laterStraight, ?_⟩
    intro last ends
    cases ends.symm.trans terminator
    refine ⟨fun target member => ?_, returns⟩
    obtain ⟨same, known⟩ := targets target member
    refine ⟨same, ?_⟩
    obtain ⟨targetBlock, targetFound⟩ := Option.isSome_iff_exists.mp known
    rw [block?_eq, same] at targetFound
    exact (List.getElem?_eq_some_iff.mp targetFound).1)
  obtain ⟨laterSound, extends_⟩ :=
    sound.changeFunction block.function _ ⟨rfl, rfl, rfl, rfl⟩ body
  obtain ⟨final, blockFound⟩ :=
    block?_insertInstruction position operation name found
  rw [atEnd] at blockFound
  obtain ⟨-, terminator⟩ := straight.terminate isOpen
    (show Operation.isTerminator (Instruction.operation ⟨_, final, _⟩) =
      true from ending)
  refine ⟨laterSound, ⟨extends_, ?_, ?_⟩, ?_⟩
  · intro id
    rw [insertInstruction_apply, function_modifyFunction]
    split
    · next same =>
        rw [same.1, inserted.registerCount]
        exact Nat.le_succ _
    · exact Nat.le_refl _
  · intro id other otherFound
    by_cases same : id = block
    · subst same
      cases found.symm.trans otherFound
      refine ⟨_, blockFound, rfl, ?_, ?_, Block.sublist_insertAt _ _ _⟩
      · intro last ends
        rw [Block.isTerminated_eq_false_iff, ends] at isOpen
        cases isOpen
      · intro _ phi leads
        rw [Block.phi?_insertAt _ (Nat.le_refl _), leads]
        apply List.length_pos_iff.mpr
        intro empty
        simp [Block.phi?, empty] at leads
    · exact ⟨other, by rw [block?_insertInstruction_of_ne _ _ _ _ _ same,
        otherFound], Block.Develops.refl _ _⟩
  · rw [Module.terminator?, blockFound]
    exact terminator

end Module

/-! ## Names of blocks -/

theorem nameBeforeNul_append {stem : String} (rest : String)
    (named : nameBeforeNul stem ≠ "") :
    nameBeforeNul (stem ++ rest) ≠ "" := by
  intro empty
  apply named
  have characters : (stem ++ rest).toList.takeWhile (· ≠ '\x00') = [] := by
    have := congrArg String.toList empty
    simpa [nameBeforeNul] using this
  have stemCharacters : stem.toList.takeWhile (· ≠ '\x00') = [] := by
    cases letters : stem.toList with
    | nil => rfl
    | cons letter letters =>
        simp_all [String.toList_append]
  rw [nameBeforeNul, stemCharacters]

namespace Builder

variable {builder later : Builder}

/-! ## New blocks -/

/-- An empty block was added to the current function. -/
structure Appended (builder later : Builder) (added : BlockId) : Prop where
  sound : later.module.Sound
  module : builder.module.Develops later.module
  missing : builder.module.block? added = none
  found : ∃ name, later.module.block? added = some ⟨name, []⟩
  others : ∀ id, id ≠ added →
    later.module.block? id = builder.module.block? id
  inside : added.function = builder.function
  function : later.function = builder.function
  block : later.block = builder.block
  beforeTerminator : later.beforeTerminator = builder.beforeTerminator
  detached : later.detached = builder.detached

theorem appended_appendBlock (sound : builder.module.Sound)
    (inside : builder.function < builder.module.functions.length)
    {name : String} (named : nameBeforeNul name ≠ "") :
    builder.Appended (appendBlock name builder).2
      (appendBlock name builder).1 := by
  let old := builder.module.function builder.function
  let change (function : Function) : Function :=
    { function with
      names := (function.names.reserve "" (nameBeforeNul name)).2
      blocks := function.blocks ++
        [⟨(function.names.reserve "" (nameBeforeNul name)).1, []⟩] }
  have run : appendBlock name builder =
      (⟨builder.function, old.blocks.length⟩,
        { builder with
          module := (Module.modifyFunction builder.function change
            builder.module).2 }) := rfl
  obtain ⟨nonempty, free, taken⟩ := old.names.reserve_spec "" named
  have body : (change old).Sound builder.function :=
    (sound.bodies builder.function).append rfl rfl nonempty free rfl rfl taken
      rfl
  obtain ⟨laterSound, extends_⟩ :=
    sound.changeFunction builder.function change ⟨rfl, rfl, rfl, rfl⟩ body
  have function (id : FunctionId) :=
    Module.function_modifyFunction builder.module builder.function change id
  have others (id : BlockId)
      (elsewhere : id ≠ ⟨builder.function, old.blocks.length⟩) :
      (Module.modifyFunction builder.function change
        builder.module).2.block? id = builder.module.block? id := by
    rw [Module.block?_eq, Module.block?_eq, function]
    split
    · next same =>
        have different : id.index ≠ old.blocks.length := by
          intro sameIndex
          apply elsewhere
          cases id
          simp_all
        have sameOld : builder.module.function id.function = old := by
          rw [same.1]
        rw [sameOld]
        show (old.blocks ++ [_])[id.index]? = old.blocks[id.index]?
        rw [List.getElem?_append]
        split
        · rfl
        · next outside =>
            rw [List.getElem?_eq_none (Nat.le_of_not_lt outside),
              List.getElem?_eq_none]
            rw [List.length_singleton]
            omega
    · rfl
  rw [run]
  refine ⟨laterSound, ⟨extends_, ?_, ?_⟩, ?_, ?_, others, rfl, rfl, rfl, rfl,
    rfl⟩
  · intro id
    rw [function]
    split
    · exact Nat.le_refl _
    · exact Nat.le_refl _
  · intro id block found
    refine ⟨block, ?_, Block.Develops.refl _ _⟩
    rw [others id ?_, found]
    rintro rfl
    rw [Module.block?_eq, List.getElem?_eq_none (Nat.le_refl _)] at found
    cases found
  · exact List.getElem?_eq_none (Nat.le_refl _)
  · refine ⟨(old.names.reserve "" (nameBeforeNul name)).1, ?_⟩
    rw [Module.block?_eq, function, if_pos ⟨rfl, inside⟩]
    exact List.getElem?_concat_length

theorem Appended.known {added : BlockId}
    (appended : builder.Appended later added) :
    (later.module.block? added).isSome = true := by
  obtain ⟨name, found⟩ := appended.found
  rw [found]
  rfl

/-- The current block is not the new one. -/
theorem Appended.elsewhere {added : BlockId}
    (appended : builder.Appended later added) (placed : builder.Placed) :
    builder.block ≠ some added := by
  intro same
  obtain ⟨index, cursor, known⟩ := placed.cursor
  cases cursor.symm.trans same
  rw [appended.missing] at known
  cases known

theorem Appended.isTerminated_eq {added : BlockId}
    (appended : builder.Appended later added) (placed : builder.Placed) :
    later.isTerminated = builder.isTerminated := by
  have elsewhere := appended.elsewhere placed
  rw [isTerminated, isTerminated, appended.block]
  split
  · next block current =>
      rw [isTerminatedBlock, isTerminatedBlock, appended.others]
      rintro rfl
      exact elsewhere current
  · rfl

/-- Functions that have the same blocks everywhere have the same code. -/
theorem Module.blocks_eq {module later : Module} {id : FunctionId}
    (same : ∀ index, later.block? ⟨id, index⟩ = module.block? ⟨id, index⟩) :
    (later.function id).blocks = (module.function id).blocks :=
  List.ext_getElem? same

theorem Appended.worksIn {added : BlockId}
    (appended : builder.Appended later added) :
    builder.module.WorksIn builder.function later.module :=
  .of_blocks fun _ other => Module.blocks_eq fun _ => appended.others _
    fun same => other ((congrArg BlockId.function same).trans appended.inside)

/-- An empty block leads nowhere. -/
theorem Appended.leads {added source target : BlockId}
    (appended : builder.Appended later added)
    (leads : later.module.Leads source target) :
    builder.module.Leads source target := by
  obtain ⟨ending, ends, member⟩ := leads
  refine ⟨ending, ?_, member⟩
  by_cases same : source = added
  · subst same
    obtain ⟨name, found⟩ := appended.found
    rw [Module.terminator?, found] at ends
    cases ends
  · rw [Module.terminator?, ← appended.others source same]
    exact ends

/-! ## Ends of blocks -/

/-- The current block was ended by an operation that leads to some
targets. -/
structure Ended (targets : List BlockId) (builder later : Builder) :
    Prop where
  sound : later.module.Sound
  module : builder.module.Develops later.module
  ended : ∀ block, builder.block = some block →
    ∃ ending, later.module.terminator? block = some ending ∧
      ending.targets = targets
  others : ∀ id, builder.block ≠ some id →
    later.module.block? id = builder.module.block? id
  function : later.function = builder.function
  block : later.block = builder.block
  beforeTerminator : later.beforeTerminator = builder.beforeTerminator
  detached : later.detached = builder.detached

theorem Ended.worksIn {targets : List BlockId}
    (ended : builder.Ended targets later) (placed : builder.Placed) :
    builder.module.WorksIn builder.function later.module :=
  .of_blocks fun _ other => Module.blocks_eq fun _ => ended.others _
    fun current => other (placed.function_eq current)

/-- The only new ways are from the current block to the targets. -/
theorem Ended.leads {targets : List BlockId} {source target : BlockId}
    (ended : builder.Ended targets later)
    (leads : later.module.Leads source target) :
    builder.module.Leads source target ∨
      (builder.block = some source ∧ target ∈ targets) := by
  obtain ⟨ending, ends, member⟩ := leads
  by_cases cursor : builder.block = some source
  · obtain ⟨other, otherEnds, same⟩ := ended.ended source cursor
    cases ends.symm.trans otherEnds
    exact .inr ⟨cursor, same ▸ member⟩
  · refine .inl ⟨ending, ?_, member⟩
    rw [Module.terminator?, ← ended.others source cursor]
    exact ends

/-- The current block is open. -/
theorem Ready.openBlock (ready : builder.Ready)
    (isOpen : builder.isTerminated = false) :
    ∃ block inner, builder.block = some block ∧
      block.function = builder.function ∧
      builder.module.block? block = some inner ∧
      inner.isTerminated = false := by
  obtain ⟨index, cursor, known⟩ := ready.cursor
  obtain ⟨inner, found⟩ := Option.isSome_iff_exists.mp known
  refine ⟨_, inner, cursor, rfl, found, ?_⟩
  rw [isTerminated, cursor] at isOpen
  simp only [isTerminatedBlock, found] at isOpen
  exact isOpen

/-- A terminator ends the current block, and stands at its end. -/
theorem ends_insert (ready : builder.Ready)
    (isOpen : builder.isTerminated = false) {block : BlockId}
    (cursor : builder.block = some block) (operation : Operation)
    (ending : operation.isTerminator = true)
    (targets : ∀ target ∈ operation.targets,
      target.function = builder.function ∧
        (builder.module.block? target).isSome = true)
    (returns : ∀ value, operation = .ret value →
      builder.currentFunction.Returns value) (name : String) :
    builder.Ended operation.targets
        (insert block operation name builder).2 ∧
      (insert block operation name builder).2.module.terminator? block =
        some operation := by
  obtain ⟨same, inner, sameCursor, inside, found, innerOpen⟩ :=
    ready.openBlock isOpen
  cases cursor.symm.trans sameCursor
  have mode := ready.mode
  rw [isOpen] at mode
  unfold currentFunction at returns
  rw [← inside] at targets returns
  obtain ⟨sound, develops, terminator⟩ := ready.sound.terminate found
    innerOpen (fun block => block.instructions.length -
      if builder.beforeTerminator then 1 else 0) (by simp [mode]) ending
    targets returns name
  refine ⟨⟨sound, develops, ?_, ?_, rfl, rfl, rfl, rfl⟩, terminator⟩
  · intro other otherCursor
    cases cursor.symm.trans otherCursor
    exact ⟨operation, terminator, rfl⟩
  · intro id elsewhere
    apply Module.block?_insertInstruction_of_ne
    rintro rfl
    exact elsewhere cursor

theorem ended_insert (ready : builder.Ready)
    (isOpen : builder.isTerminated = false) {block : BlockId}
    (cursor : builder.block = some block) (operation : Operation)
    (ending : operation.isTerminator = true)
    (targets : ∀ target ∈ operation.targets,
      target.function = builder.function ∧
        (builder.module.block? target).isSome = true)
    (returns : ∀ value, operation = .ret value →
      builder.currentFunction.Returns value) (name : String) :
    builder.Ended operation.targets
      (insert block operation name builder).2 :=
  (ends_insert ready isOpen cursor operation ending targets returns name).1

/-- Nothing but the cursor and the bodies matters ahead of the end. -/
theorem Ended.after {middle : Builder} {targets : List BlockId}
    (ended : middle.Ended targets later) (quiet : builder.Quiet middle)
    (still : builder.module.Still middle.module) :
    builder.Ended targets later := by
  refine ⟨ended.sound, still.quiet.develops.trans ended.module, ?_, ?_,
    ended.function.trans quiet.function, ended.block.trans quiet.block,
    ended.beforeTerminator.trans quiet.beforeTerminator,
    ended.detached.trans quiet.detached⟩
  · rw [← quiet.block]
    exact ended.ended
  · intro id elsewhere
    rw [← still.block?]
    exact ended.others id (by rw [quiet.block]; exact elsewhere)

/-- Nothing that leaves bodies alone undoes the end of a block. -/
theorem Ended.still {targets : List BlockId}
    (ended : builder.Ended targets later) {Result : Type}
    {operation : StateM Module Result} {good : Module → Result → Prop}
    (runs : later.module.Runs operation good) :
    builder.Ended targets (onModule operation later).2 := by
  have still := runs.follows
  refine ⟨runs.holds, ended.module.trans still.quiet.develops, ?_, ?_,
    ended.function, ended.block, ended.beforeTerminator, ended.detached⟩
  · intro current cursor
    obtain ⟨ending, ends, same⟩ := ended.ended current cursor
    exact ⟨ending, still.quiet.develops.terminator? ends, same⟩
  · intro id elsewhere
    exact (still.block? id).trans (ended.others id elsewhere)

theorem ended_insertEffect (ready : builder.Ready)
    (isOpen : builder.isTerminated = false) {operation : Operation}
    (ending : operation.isTerminator = true)
    (targets : ∀ target ∈ operation.targets,
      target.function = builder.function ∧
        (builder.module.block? target).isSome = true)
    (returns : ∀ value, operation = .ret value →
      builder.currentFunction.Returns value) :
    builder.Ended operation.targets (insertEffect operation builder).2 := by
  obtain ⟨block, -, cursor, -⟩ := ready.openBlock isOpen
  unfold insertEffect
  rw [attached_bind cursor]
  exact ended_insert ready isOpen cursor operation ending targets returns ""

theorem ends_branch (ready : builder.Ready)
    (isOpen : builder.isTerminated = false) {target : BlockId}
    (targets : ∀ other ∈ [target], other.function = builder.function ∧
      (builder.module.block? other).isSome = true) :
    builder.Ended [target] (branch target builder).2 ∧
      ∀ block, builder.block = some block →
        (branch target builder).2.module.terminator? block =
          some (.branch target) := by
  obtain ⟨block, -, cursor, -⟩ := ready.openBlock isOpen
  unfold branch insertEffect
  rw [attached_bind cursor]
  obtain ⟨ended, terminator⟩ := ends_insert ready isOpen cursor
    (.branch target) rfl targets (by rintro _ ⟨⟩) ""
  refine ⟨ended, ?_⟩
  intro other otherCursor
  cases cursor.symm.trans otherCursor
  exact terminator

theorem ended_branch (ready : builder.Ready)
    (isOpen : builder.isTerminated = false) {target : BlockId}
    (targets : ∀ other ∈ [target], other.function = builder.function ∧
      (builder.module.block? other).isSome = true) :
    builder.Ended [target] (branch target builder).2 :=
  (ends_branch ready isOpen targets).1

theorem ends_branchIf (ready : builder.Ready)
    (isOpen : builder.isTerminated = false) {condition : Value} {bits : Nat}
    (int : condition.operand.type = .int bits)
    {thenTarget elseTarget : BlockId}
    (targets : ∀ target ∈ [thenTarget, elseTarget],
      target.function = builder.function ∧
        (builder.module.block? target).isSome = true) :
    builder.Ended [thenTarget, elseTarget]
        (branchIf condition thenTarget elseTarget builder).2 ∧
      ∀ block, builder.block = some block →
        (branchIf condition thenTarget elseTarget
          builder).2.module.terminator? block =
          some (.branchIf condition.operand thenTarget elseTarget) := by
  obtain ⟨block, -, cursor, -⟩ := ready.openBlock isOpen
  unfold branchIf
  rw [attached_bind cursor]
  simp only [int, IrType.isInt, if_true]
  obtain ⟨ended, terminator⟩ := ends_insert ready isOpen cursor
    (.branchIf condition.operand thenTarget elseTarget) rfl targets
    (by rintro _ ⟨⟩) ""
  refine ⟨ended, ?_⟩
  intro other otherCursor
  cases cursor.symm.trans otherCursor
  exact terminator

theorem ended_branchIf (ready : builder.Ready)
    (isOpen : builder.isTerminated = false) {condition : Value} {bits : Nat}
    (int : condition.operand.type = .int bits)
    {thenTarget elseTarget : BlockId}
    (targets : ∀ target ∈ [thenTarget, elseTarget],
      target.function = builder.function ∧
        (builder.module.block? target).isSome = true) :
    builder.Ended [thenTarget, elseTarget]
      (branchIf condition thenTarget elseTarget builder).2 :=
  (ends_branchIf ready isOpen int targets).1

/-- A pad that ends its block. -/
theorem ended_insertPad (ready : builder.Ready)
    (isOpen : builder.isTerminated = false) {operation : Operation}
    (ending : operation.isTerminator = true)
    (targets : ∀ target ∈ operation.targets,
      target.function = builder.function ∧
        (builder.module.block? target).isSome = true)
    (noReturn : ∀ value, operation ≠ .ret value) (name : String) :
    builder.Ended operation.targets (insertPad operation name builder).2 := by
  obtain ⟨block, -, cursor, -⟩ := ready.openBlock isOpen
  have interns := TypeTable.yields_atomic ready.sound.types
    (show TypeKind.token.parts = [] from rfl)
  obtain ⟨middleReady, quiet, -, still⟩ := builds_onModule_still ready
    (Module.runs_withTypes ready.sound interns)
  unfold insertPad TypeTable.token onTypes
  rw [stateM_bind_apply]
  generalize onModule (Module.withTypes (TypeTable.intern .token)) builder =
    middle at *
  have middleOpen : middle.2.isTerminated = false := by
    rw [ready.isTerminated_eq quiet, isOpen]
  have middleCursor := quiet.block.trans cursor
  have middleTargets : ∀ target ∈ operation.targets,
      target.function = middle.2.function ∧
        (middle.2.module.block? target).isSome = true := by
    intro target member
    rw [quiet.function, still.block?]
    exact targets target member
  have ended := (ended_insert middleReady middleOpen middleCursor operation
    ending middleTargets (fun value same => absurd same (noReturn value))
    (nameWithoutNul name)).after quiet still
  rw [attached_bind middleCursor]
  dsimp only
  rw [stateM_bind_apply]
  exact ended.still (Module.runs_pushValue ended.sound _ _)

/-- An invocation ends the current block and may give a value. -/
def Invokes (builder : Builder) (targets : List BlockId)
    (result : Option Value × Builder) : Prop :=
  builder.Ended targets result.2 ∧
    ∀ value ∈ result.1, value.Typed result.2.module.types

theorem invokes_push {targets : List BlockId}
    (ended : builder.Ended targets later) {content : Content} {type : TypeId}
    (has : later.module.types.Has type)
    (fits : content.Fits later.module.types type) :
    builder.Invokes targets ((some <$> push content type : Build _) later) := by
  refine ⟨ended.still (Module.runs_pushValue ended.sound content type), ?_⟩
  rintro value ⟨⟩
  exact ⟨has, fits⟩

/-- An invocation of what points to a function is built. -/
theorem invokes_invoke (ready : builder.Ready)
    (isOpen : builder.isTerminated = false) {callee : Value}
    (typed : callee.Typed builder.module.types)
    (calls : (calleeType? builder.module.types callee).isSome = true)
    {normal unwind : BlockId}
    (targets : ∀ target ∈ [normal, unwind],
      target.function = builder.function ∧
        (builder.module.block? target).isSome = true)
    (arguments : List Value) (name : String) :
    builder.Invokes [normal, unwind]
      (invoke callee arguments normal unwind name builder) := by
  obtain ⟨⟨type, signature⟩, found⟩ := Option.isSome_iff_exists.mp calls
  obtain ⟨pointee, signatureFound⟩ := calleeType?_eq_some found
  obtain ⟨block, -, cursor, -⟩ := ready.openBlock isOpen
  have has := (ready.sound.types.signature signatureFound).1
  have pointer : callee.operand.type = .pointer := by
    apply (typed.operand_pointer _).2
    rw [TypeTable.isPointer, pointee]
    rfl
  have signatureLowers : lowered builder.module.types loweringLevels type =
      _ := lowered_function signatureFound 64
  obtain ⟨middleReady, quiet, ⟨types, function⟩, still⟩ :=
    builds_onModule_still ready (Module.runs_lower ready.sound type)
  rw [signatureLowers] at function
  generalize lowering : onModule (Module.lower type) builder = middle at *
  obtain ⟨irType, middle⟩ := middle
  dsimp only at middleReady quiet types function still
  subst function
  have middleOpen : middle.isTerminated = false := by
    rw [ready.isTerminated_eq quiet, isOpen]
  have middleTargets : ∀ target ∈ [normal, unwind],
      target.function = middle.function ∧
        (middle.module.block? target).isSome = true := by
    intro target member
    rw [quiet.function, still.block?]
    exact targets target member
  -- the invocation itself, whatever its operands are
  have ends (parameters : List IrType) (variadic : Bool)
      (calleeOperand : Operand) (operands : List Operand) (name : String) :
      builder.Ended [normal, unwind] (insert block (.invoke
        (lowered builder.module.types boundaryLevels signature.result)
        parameters variadic calleeOperand operands normal unwind) name
        middle).2 :=
    (ended_insert middleReady middleOpen (quiet.block.trans cursor)
      (.invoke _ _ _ _ _ normal unwind) rfl middleTargets (by rintro _ ⟨⟩)
      name).after quiet still
  unfold invoke buildCall
  rw [stateM_bind_apply, show Builder.types builder =
    (builder.module.types, builder) from rfl]
  simp only [found]
  rw [attached_bind cursor]
  dsimp only
  rw [stateM_bind_apply, lowering]
  dsimp only
  rw [← types] at has
  have result : ∀ irType, irType = lowered builder.module.types
      boundaryLevels signature.result →
      irType = lowered middle.module.types boundaryLevels
        signature.result := by
    rw [types]
    exact fun _ same => same
  split
  · rw [stateM_bind_apply, stateM_bind_apply]
    have ended := ends (signature.parameters.map
      (lowered builder.module.types 64)) signature.variadic
      callee.operandOrToken (arguments.map Value.operandOrToken)
      (nameWithoutNul (if builder.module.types.isVoid signature.result then ""
        else name))
    have lowersResult := Module.runs_lower ended.sound signature.result
    apply invokes_push (ended.still lowersResult) has
    exact fits_resultContent (result _ rfl) (.inr lowersResult.good.2)
  · rw [pointer, if_pos (show IrType.isPointer .pointer = true from rfl),
      stateM_bind_apply]
    apply invokes_push (ends _ _ _ _ _) has
    exact fits_resultContent (result _ rfl) (.inl (result _ rfl))

end Builder

end FormCompiler.Ir
