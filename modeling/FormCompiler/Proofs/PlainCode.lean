import FormCompiler.Proofs.Modules

/-!
# Plain code

Most operations compute: they neither lead to another block nor take part in
the unwinding of exceptions.  The other ones are told apart here, and every
change of a module is described by the operations of that kind that it adds to
blocks.  Computing adds none, wherever it is done, and it marks no function
for unwinding.
-/

namespace FormCompiler.Ir

/-- Operations that neither lead anywhere nor take part in unwinding. -/
def Operation.isPlain : Operation → Bool
  | .invoke .. | .branch _ | .branchIf .. | .landingPad .. | .resume _
  | .catchSwitch .. | .catchPad .. | .cleanupPad .. | .catchReturn ..
  | .cleanupReturn .. => false
  | _ => true

namespace Function

/-- Some instruction of a block performs an operation. -/
def Performs (function : Function) (index : Nat) (operation : Operation) :
    Prop :=
  ∃ block, function.blocks[index]? = some block ∧
    ∃ instruction ∈ block.instructions, instruction.operation = operation

/-- The routine that unwinds a function, and whether it has an unwind
table. -/
def unwinding (function : Function) : Option FunctionId × Bool :=
  (function.personality, function.attributes.contains .unwindTable)

/-- The operations of a function that are not plain stay, and only certain
ones are added. -/
structure Flows (id : FunctionId) (added : List (BlockId × Operation))
    (function later : Function) : Prop where
  kept : ∀ index operation, operation.isPlain = false →
    function.Performs index operation → later.Performs index operation
  new : ∀ index operation, operation.isPlain = false →
    later.Performs index operation → function.Performs index operation ∨
      (⟨id, index⟩, operation) ∈ added
  known : function.blocks.length ≤ later.blocks.length
  unwinding : later.unwinding = function.unwinding

theorem Flows.of_blocks_eq {id : FunctionId} {function later : Function}
    (blocks : later.blocks = function.blocks)
    (unwinding : later.unwinding = function.unwinding) :
    function.Flows id [] later := by
  have same (index : Nat) (operation : Operation) :
      later.Performs index operation ↔ function.Performs index operation := by
    rw [Performs, Performs, blocks]
  exact ⟨fun index operation _ => (same index operation).mpr,
    fun index operation _ performs => .inl ((same index operation).mp performs),
    blocks ▸ Nat.le_refl _, unwinding⟩

end Function

namespace Module

variable {module later last : Module}
  {added more : List (BlockId × Operation)}

/-- Some instruction of a block performs an operation. -/
def Performs (module : Module) (id : BlockId) (operation : Operation) :
    Prop :=
  (module.function id.function).Performs id.index operation

/-- A function is found where it was. -/
theorem function?_of_names {name : String} {id : FunctionId}
    (names : module.functions.map Function.name <+:
      later.functions.map Function.name)
    (found : module.function? name = some id) :
    later.function? name = some id := by
  have byName (module : Module) : module.function? name =
      (module.functions.map Function.name).findIdx? (· = name) := by
    rw [Module.function?, List.findIdx?_map]
    rfl
  obtain ⟨more, same⟩ := names
  rw [byName] at found ⊢
  rw [← same, List.findIdx?_append, found, Option.some_or]

/-- The operations that are not plain stay, only certain ones are added, and
no function changes its name or how it unwinds. -/
structure Flows (added : List (BlockId × Operation))
    (module later : Module) : Prop where
  functions : ∀ id,
    (module.function id).Flows id added (later.function id)
  names : module.functions.map Function.name <+:
    later.functions.map Function.name

theorem Flows.count (flows : module.Flows added later) :
    module.functions.length ≤ later.functions.length := by
  simpa using flows.names.length_le

theorem Flows.kept (flows : module.Flows added later) {id : BlockId}
    {operation : Operation} (notPlain : operation.isPlain = false)
    (performs : module.Performs id operation) : later.Performs id operation :=
  (flows.functions id.function).kept id.index operation notPlain performs

theorem Flows.new (flows : module.Flows added later) {id : BlockId}
    {operation : Operation} (notPlain : operation.isPlain = false)
    (performs : later.Performs id operation) :
    module.Performs id operation ∨ (id, operation) ∈ added :=
  (flows.functions id.function).new id.index operation notPlain performs

theorem Flows.known (flows : module.Flows added later) {id : BlockId}
    (known : (module.block? id).isSome = true) :
    (later.block? id).isSome = true := by
  rw [block?_eq, Option.isSome_iff_ne_none, Ne,
    List.getElem?_eq_none_iff] at known ⊢
  have length := (flows.functions id.function).known
  omega

theorem Flows.of_functions_eq (same : later.functions = module.functions) :
    module.Flows [] later := by
  refine ⟨fun id => ?_, same ▸ List.prefix_refl _⟩
  rw [function_eq_of_functions_eq same]
  exact .of_blocks_eq rfl rfl

theorem Flows.refl (module : Module) : module.Flows [] module :=
  .of_functions_eq rfl

theorem Flows.trans (first : module.Flows added later)
    (second : later.Flows more last) : module.Flows (added ++ more) last := by
  refine ⟨fun id => ?_, first.names.trans second.names⟩
  have early := first.functions id
  have late := second.functions id
  refine ⟨?_, ?_, early.known.trans late.known,
    late.unwinding.trans early.unwinding⟩
  · intro index operation notPlain performs
    exact late.kept index operation notPlain
      (early.kept index operation notPlain performs)
  · intro index operation notPlain performs
    rw [List.mem_append]
    rcases late.new index operation notPlain performs with old | new
    · exact (early.new index operation notPlain old).imp_right .inl
    · exact .inr (.inr new)

theorem Flows.mono (flows : module.Flows added later)
    (subset : ∀ entry ∈ added, entry.2.isPlain = false → entry ∈ more) :
    module.Flows more later := by
  refine ⟨fun id => ?_, flows.names⟩
  have all := flows.functions id
  refine ⟨all.kept, ?_, all.known, all.unwinding⟩
  intro index operation notPlain performs
  exact (all.new index operation notPlain performs).imp_right fun member =>
    subset _ member notPlain

theorem map_modify_eq {Item Part : Type} {part : Item → Part}
    {change : Item → Item} (same : ∀ item, part (change item) = part item)
    (items : List Item) (index : Nat) :
    (items.modify index change).map part = items.map part := by
  refine List.ext_getElem? fun other => ?_
  rw [List.getElem?_map, List.getElem?_map, List.getElem?_modify]
  split
  · cases items[other]? <;> simp [same]
  · simp

/-- A change of one function. -/
theorem flows_modifyFunction (module : Module) (id : FunctionId)
    {change : Function → Function}
    (name : ∀ function, (change function).name = function.name)
    (flows : (module.function id).Flows id added
      (change (module.function id))) :
    module.Flows added (modifyFunction id change module).2 := by
  have names : (modifyFunction id change module).2.functions.map
      Function.name = module.functions.map Function.name :=
    map_modify_eq name module.functions id
  refine ⟨fun other => ?_, names ▸ List.prefix_refl _⟩
  rw [function_modifyFunction]
  split
  · next same =>
      rw [same.1]
      exact flows
  · have nothing : (module.function other).Flows other []
        (module.function other) := .of_blocks_eq rfl rfl
    exact ⟨nothing.kept, fun index operation notPlain performs =>
      (nothing.new index operation notPlain performs).imp_right nofun,
      nothing.known, rfl⟩

instance : Std.Refl (Flows []) := ⟨Flows.refl⟩

instance : Trans (Flows []) (Flows []) (Flows []) := ⟨Flows.trans⟩

/-- An operation adds nothing but plain code. -/
abbrev Computes {Result : Type} (operation : StateM Module Result) : Prop :=
  Relates (Flows []) operation

/-- Functions are left alone. -/
theorem computes_of_functions_eq {Result : Type}
    {operation : StateM Module Result}
    (same : ∀ module, (operation module).2.functions = module.functions) :
    Computes operation :=
  fun module => .of_functions_eq (same module)

theorem computes_pushParameters (table : TypeTable) (function : FunctionId)
    (index : Nat) (parameters : List (TypeId × IrType)) :
    Computes (pushParameters table function index parameters) := by
  induction parameters generalizing index with
  | nil => exact .pure []
  | cons parameter parameters ih =>
      refine .bind (computes_of_functions_eq fun _ => rfl) fun value => ?_
      exact .bind (ih (index + 1)) fun values => .pure _

/-- A function without a body that is not marked for unwinding is added. -/
theorem Flows.append {function : Function} (noBlocks : function.blocks = [])
    (unmarked : function.unwinding = (none, false)) :
    module.Flows [] { module with
      functions := module.functions ++ [function] } := by
  have appended (id : FunctionId) : Module.function { module with
      functions := module.functions ++ [function] } id =
        if id = module.functions.length then function
        else module.function id := function_append rfl id
  refine ⟨fun id => ?_, ?_⟩
  · rw [appended]
    split
    · next last =>
        have missing : module.function id = default := by
          rw [Module.function, List.getElem?_eq_none (Nat.le_of_eq last.symm)]
          rfl
        rw [missing]
        exact .of_blocks_eq noBlocks unmarked
    · exact .of_blocks_eq rfl rfl
  · rw [List.map_append]
    exact List.prefix_append _ _

theorem computes_addFunction (name : String) (type : TypeId)
    (linkage : Linkage) : Computes (addFunction name type linkage) := by
  refine .get_bind fun seen => ?_
  split
  · exact .pure _
  · refine .bind (computes_of_functions_eq fun _ => rfl) fun lowered => ?_
    refine .bind (computes_of_functions_eq fun _ => rfl) fun symbol => ?_
    refine .bind (computes_pushParameters _ _ 0 _) fun parameters => ?_
    exact .bind (fun _ => .append rfl rfl) fun _ => .pure _

theorem computes_addGlobal (name : String) (type : TypeId)
    (initializer : Option Initializer) (isConstant : Bool)
    (linkage : Linkage) :
    Computes (addGlobal name type initializer isConstant linkage) := by
  refine .get_bind fun seen => ?_
  split
  · exact .pure _
  · exact computes_of_functions_eq fun _ => rfl

theorem computes_setParameterName (id : FunctionId) (index : Nat)
    (name : String) : Computes (setParameterName id index name) := by
  refine fun module => flows_modifyFunction module id (fun function => ?_) ?_
  · split
    · dsimp only
      split <;> rfl
    · rfl
  · split
    · dsimp only
      split <;> exact .of_blocks_eq rfl rfl
    · exact .of_blocks_eq rfl rfl

theorem computes_addAttributes (id : FunctionId)
    {attributes : List Attribute} (others : .unwindTable ∉ attributes) :
    Computes (addAttributes id attributes) := by
  refine fun module => flows_modifyFunction module id (fun _ => rfl)
    (.of_blocks_eq rfl ?_)
  unfold Function.unwinding
  simp [Attribute.all, others]

theorem computes_appendBlock (function : FunctionId) (name : String) :
    Computes (appendBlock function name) := by
  refine fun module =>
    flows_modifyFunction module function (fun _ => rfl) ⟨?_, ?_, ?_, rfl⟩
  · rintro index operation - ⟨block, found, performs⟩
    refine ⟨block, ?_, performs⟩
    exact List.getElem?_append_left (List.getElem?_eq_some_iff.mp found).1 ▸
      found
  · rintro index operation - ⟨block, found, instruction, member, same⟩
    refine .inl ⟨block, ?_, instruction, member, same⟩
    rw [List.getElem?_append] at found
    split at found
    · exact found
    · -- The new block has no instructions yet.
      obtain rfl := List.mem_singleton.mp (List.mem_of_getElem? found)
      cases member
  · exact Nat.le_of_lt (by simp)

theorem mem_insertAt {block : Block} {position : Nat}
    {instruction other : Instruction} :
    other ∈ (block.insertAt position instruction).instructions ↔
      other = instruction ∨ other ∈ block.instructions := by
  have split : other ∈ block.instructions ↔
      other ∈ block.instructions.take position ∨
        other ∈ block.instructions.drop position := by
    rw [← List.mem_append, List.take_append_drop]
  unfold Block.insertAt
  rw [List.mem_append, List.mem_cons, split]
  tauto

theorem flows_insertInstruction (module : Module) (block : BlockId)
    (position : Block → Nat) (operation : Operation) (name : String) :
    module.Flows [(block, operation)]
      (insertInstruction block position operation name module).2 := by
  rw [insertInstruction_apply]
  refine flows_modifyFunction module block.function (fun _ => rfl)
    ⟨?_, ?_, ?_, rfl⟩
  · rintro index performed - ⟨inner, found, instruction, member, same⟩
    unfold Function.Performs inserting
    simp only [List.getElem?_modify, found]
    split
    · exact ⟨_, rfl, instruction, mem_insertAt.mpr (.inr member), same⟩
    · exact ⟨_, rfl, instruction, member, same⟩
  · rintro index performed - ⟨inner, found, instruction, member, same⟩
    unfold inserting at found
    simp only [List.getElem?_modify, Option.map_eq_map,
      Option.map_eq_some_iff] at found
    obtain ⟨old, oldFound, inserted⟩ := found
    split at inserted
    · next here =>
        subst inserted
        rcases mem_insertAt.mp member with rfl | early
        · refine .inr ?_
          rw [← same, ← here]
          exact List.mem_cons_self
        · exact .inl ⟨old, oldFound, instruction, early, same⟩
    · subst inserted
      exact .inl ⟨old, oldFound, instruction, member, same⟩
  · exact Nat.le_of_eq (List.length_modify _ _ _).symm

/-- An instruction that is inserted into an existing block is there. -/
theorem performs_insertInstruction {block : BlockId}
    (known : (module.block? block).isSome = true) (position : Block → Nat)
    (operation : Operation) (name : String) :
    (insertInstruction block position operation name module).2.Performs block
      operation := by
  obtain ⟨inner, found⟩ := Option.isSome_iff_exists.mp known
  obtain ⟨final, inserted⟩ :=
    block?_insertInstruction position operation name found
  exact ⟨_, inserted, _, mem_insertAt.mpr (.inl rfl), rfl⟩

/-- Changing operations that are plain into others that are. -/
theorem computes_modifyOperation (register : Register)
    {change : Operation → Operation}
    (plain : ∀ operation, operation.isPlain = true →
      (change operation).isPlain = true)
    (others : ∀ operation, operation.isPlain = false →
      change operation = operation) :
    Computes (modifyOperation register change) := by
  refine fun module => flows_modifyFunction module register.function
    (fun _ => rfl) ⟨?_, ?_, ?_, rfl⟩
  · rintro index operation notPlain ⟨block, found, instruction, member, rfl⟩
    refine ⟨_, by rw [List.getElem?_map, found]; rfl, ?_⟩
    refine ⟨_, List.mem_map.mpr ⟨instruction, member, rfl⟩, ?_⟩
    split
    · exact others _ notPlain
    · rfl
  · rintro index operation notPlain ⟨block, found, instruction, member, rfl⟩
    rw [List.getElem?_map, Option.map_eq_some_iff] at found
    obtain ⟨old, oldFound, rfl⟩ := found
    obtain ⟨earlier, earlierMember, rfl⟩ := List.mem_map.mp member
    refine .inl ⟨old, oldFound, earlier, earlierMember, ?_⟩
    by_cases changed : earlier.register = register
    · rw [if_pos changed] at notPlain ⊢
      cases isPlain : earlier.operation.isPlain with
      | false => exact (others _ isPlain).symm
      | true =>
          rw [plain _ isPlain] at notPlain
          cases notPlain
    · rw [if_neg changed]
  · exact Nat.le_of_eq (List.length_map _).symm

end Module

end FormCompiler.Ir
