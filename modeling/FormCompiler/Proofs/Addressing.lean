import FormCompiler.Emit.Aggregate
import FormCompiler.Proofs.Effects

/-!
# Finding places in memory

Instructions that find a place in memory or read it store nothing.  Looking up
the operands of an instruction builds no other instructions, and it changes
nothing but what is built: names keep their values and slots.
-/

namespace FormCompiler.Ir

/-- Operations that find a place in memory or read it. -/
def Operation.isAddressing : Operation → Bool
  | .alloca _ | .load .. | .elementPointer .. | .cast .. => true
  | _ => false

/-- The value that an operation stores, and the pointer that it is stored
through. -/
def Operation.stored? : Operation → Option (Operand × Operand)
  | .store value pointer => some (value, pointer)
  | _ => none

theorem Operation.stored?_of_isAddressing {operation : Operation}
    (addressing : operation.isAddressing = true) :
    operation.stored? = none := by
  cases operation <;> first | rfl | cases addressing

/-- What a block stores, in order. -/
def Block.stores (block : Block) : List (Operand × Operand) :=
  block.instructions.filterMap fun instruction =>
    instruction.operation.stored?

/-- What ends a block is its last instruction. -/
theorem Block.exists_append_of_isTerminated {block : Block}
    (ended : block.isTerminated = true) :
    ∃ front ending, block.instructions = front ++ [ending] ∧
      ending.operation.isTerminator = true := by
  unfold Block.isTerminated Block.terminator? at ended
  cases final : block.instructions.getLast? with
  | none => simp [final] at ended
  | some ending =>
      obtain ⟨front, split⟩ := List.getLast?_eq_some_iff.mp final
      rw [final] at ended
      exact ⟨front, ending, split, by simpa using ended⟩

theorem Block.stores_insertAt {block : Block} {position : Nat}
    {instruction : Instruction}
    (silent : instruction.operation.stored? = none) :
    (block.insertAt position instruction).stores = block.stores := by
  unfold stores insertAt
  rw [List.filterMap_append, List.filterMap_cons, silent,
    ← List.filterMap_append, List.take_append_drop]

namespace Module

variable {module : Module}

/-- What a block of a module stores, in order. -/
def stores (module : Module) (id : BlockId) : List (Operand × Operand) :=
  ((module.block? id).map Block.stores).getD []

/-- Nothing goes into a block that is not there. -/
theorem block?_insertInstruction_of_none {module : Module} {id : BlockId}
    (missing : module.block? id = none) (position : Block → Nat)
    (operation : Operation) (name : String) :
    (insertInstruction id position operation name module).2.block? id =
      none := by
  rw [insertInstruction_apply, block?_eq, function_modifyFunction]
  rw [block?_eq] at missing
  split
  · unfold inserting
    simp [missing]
  · exact missing

theorem stores_insertInstruction (module : Module) (block : BlockId)
    (position : Block → Nat) {operation : Operation}
    (silent : operation.stored? = none) (name : String) (id : BlockId) :
    (insertInstruction block position operation name module).2.stores id =
      module.stores id := by
  by_cases same : id = block
  · subst same
    unfold stores
    cases found : module.block? id with
    | none => rw [block?_insertInstruction_of_none found]
    | some inner =>
        obtain ⟨final, inserted⟩ :=
          block?_insertInstruction position operation name found
        rw [inserted]
        exact Block.stores_insertAt silent
  · unfold stores
    rw [block?_insertInstruction_of_ne _ _ _ _ _ same]

end Module

namespace Builder

variable {Result : Type} {builder later last : Builder}

/-- What the current block stores, in order. -/
def written (builder : Builder) : List (Operand × Operand) :=
  (builder.block.map builder.module.stores).getD []

/-- Only instructions that find places in memory or read them are built, and
the cursor stays. -/
inductive Addresses (builder : Builder) : Builder → Prop
  | refl : Addresses builder builder
  | same {middle later : Builder} : Addresses builder middle →
      later.module.functions = middle.module.functions →
      later.module.globals = middle.module.globals →
      later.function = middle.function → later.block = middle.block →
      later.beforeTerminator = middle.beforeTerminator →
      Addresses builder later
  | insert {middle : Builder} (block : BlockId) (position : Block → Nat)
      (operation : Operation) (name : String) : Addresses builder middle →
      operation.isAddressing = true →
      Addresses builder (onModule (Module.insertInstruction block position
        operation name) middle).2

namespace Addresses

theorem trans (first : builder.Addresses later)
    (second : later.Addresses last) : builder.Addresses last := by
  induction second with
  | refl => exact first
  | same _ functions globals function block mode ih =>
      exact ih.same functions globals function block mode
  | insert block position operation name _ addressing ih =>
      exact ih.insert block position operation name addressing

theorem block_eq (addresses : builder.Addresses later) :
    later.block = builder.block := by
  induction addresses with
  | refl => rfl
  | same _ _ _ _ block _ ih => exact block.trans ih
  | insert _ _ _ _ _ _ ih => exact ih

/-- Nothing is stored. -/
theorem stores_eq (addresses : builder.Addresses later) (id : BlockId) :
    later.module.stores id = builder.module.stores id := by
  induction addresses with
  | refl => rfl
  | same _ functions _ _ _ _ ih =>
      refine Eq.trans ?_ ih
      unfold Module.stores
      rw [Module.block?_eq, Module.block?_eq,
        Module.function_eq_of_functions_eq functions]
  | insert block position operation name _ addressing ih =>
      refine Eq.trans (Module.stores_insertInstruction _ block position ?_
        name id) ih
      exact Operation.stored?_of_isAddressing addressing

theorem written_eq (addresses : builder.Addresses later) :
    later.written = builder.written := by
  unfold written
  rw [addresses.block_eq]
  cases builder.block with
  | none => rfl
  | some id => exact addresses.stores_eq id

end Addresses

instance : Std.Refl Addresses := ⟨fun _ => .refl⟩

instance : Trans Addresses Addresses Addresses := ⟨Addresses.trans⟩

/-! ## Constants -/

theorem addresses_onModule {operation : StateM Module Result}
    (functions : ∀ module, (operation module).2.functions = module.functions)
    (globals : ∀ module, (operation module).2.globals = module.globals) :
    Relates Addresses (onModule operation) :=
  fun builder => .same .refl (functions builder.module)
    (globals builder.module) rfl rfl rfl

theorem addresses_onTypes (operation : StateM TypeTable Result) :
    Relates Addresses (onTypes operation) :=
  addresses_onModule (fun _ => rfl) fun _ => rfl

theorem addresses_lower (type : TypeId) :
    Relates Addresses (onModule (Module.lower type)) :=
  addresses_onModule (fun _ => rfl) fun _ => rfl

theorem addresses_lowerFirstClass? (type : TypeId) :
    Relates Addresses (onModule (Module.lowerFirstClass? type)) :=
  addresses_onModule (fun _ => rfl) fun _ => rfl

theorem addresses_push (content : Content) (type : TypeId) :
    Relates Addresses (push content type) :=
  addresses_onModule (fun _ => rfl) fun _ => rfl

theorem addresses_constant (make : IrType → Operand) (type : TypeId) :
    Relates Addresses (constant make type) := by
  refine .bind (addresses_lower type) fun lowered => .ite ?_ ?_
  · exact addresses_push _ type
  · split
    · exact addresses_push _ type
    · exact addresses_push _ type

theorem addresses_constantInt (type : TypeId) (value : Int) :
    Relates Addresses (constantInt type value) := by
  refine .bind (addresses_lower type) fun lowered => ?_
  split
  · exact addresses_push _ type
  · exact addresses_constant _ type

theorem addresses_constantFloat (type : TypeId) (value : Double) :
    Relates Addresses (constantFloat type value) := by
  refine .bind (addresses_lower type) fun lowered => .ite ?_ ?_
  · exact addresses_push _ type
  · exact addresses_constant _ type

theorem addresses_constantI32 (value : Int) :
    Relates Addresses (constantI32 value) :=
  .bind (addresses_onTypes _) fun type => addresses_constantInt type value

/-! ## Places -/

theorem addresses_attached : Relates Addresses attached := by
  refine .get_bind fun builder => ?_
  split
  · exact .pure _
  · exact .bind (fun _ => .same .refl rfl rfl rfl rfl rfl) fun _ => .pure _

theorem addresses_insertValue (block : BlockId) {operation : Operation}
    (addressing : operation.isAddressing = true) (name : String)
    (type : TypeId) :
    Relates Addresses (insertValue block operation name type) := by
  refine .bind (.get_bind fun builder => ?_) fun _ => addresses_push _ type
  exact .bind (fun _ => .insert block _ operation _ .refl addressing)
    fun _ => .pure _

theorem addresses_cast (operator : CastOperator) (value : Value)
    (target : TypeId) (name : String) :
    Relates Addresses (cast operator value target name) := by
  refine .ite (.pure value) ?_
  refine .bind (addresses_lowerFirstClass? target) fun lowered => ?_
  split
  · exact addresses_constant _ target
  · refine .ite (addresses_push _ target) ?_
    refine .bind addresses_attached fun block => ?_
    split
    · exact addresses_constant _ target
    · exact .ite (addresses_push _ target)
        (addresses_insertValue _ rfl name target)

theorem addresses_alloca (type : TypeId) (name : String) :
    Relates Addresses (alloca type name) := by
  refine .bind (addresses_onTypes _) fun pointer => ?_
  refine .bind addresses_attached fun block => ?_
  split
  · exact addresses_constant _ pointer
  · refine .bind (addresses_lowerFirstClass? type) fun lowered => ?_
    split
    · exact addresses_constant _ pointer
    · exact addresses_insertValue _ rfl name pointer

theorem addresses_entryAlloca (type : TypeId) (name : String) :
    Relates Addresses (entryAlloca type name) := by
  refine .get_bind fun builder => .ite (addresses_alloca type name) ?_
  refine .bind (addresses_onTypes _) fun pointer => ?_
  refine .bind (addresses_lowerFirstClass? type) fun lowered => ?_
  split
  · exact addresses_constant _ pointer
  · exact .bind (fun _ => .insert _ _ _ _ .refl rfl) fun _ =>
      addresses_push _ pointer

theorem addresses_load (pointer : Value) (name : String) :
    Relates Addresses (load pointer name) := by
  refine .get_bind fun builder => ?_
  split
  · exact .pure none
  · next type _ =>
      refine .bind addresses_attached fun block => ?_
      split
      · exact .map (addresses_constant _ type) some
      · refine .ite (.pure none) ?_
        refine .bind (addresses_lowerFirstClass? type) fun lowered => ?_
        split
        · exact .map (addresses_constant _ type) some
        · exact .map (addresses_insertValue _ rfl name type) some

theorem addresses_elementPointer (base : Value) (indices : List Value)
    (name : String) :
    Relates Addresses (elementPointer base indices name) := by
  refine .get_bind fun builder => ?_
  dsimp only [pure_bind]
  split
  · exact .pure none
  · next pointee element _ =>
      refine .bind (addresses_onTypes _) fun type => ?_
      refine .bind addresses_attached fun block => ?_
      split
      · exact .map (addresses_constant _ type) some
      · refine .ite (.pure none) ?_
        refine .bind (addresses_lowerFirstClass? pointee) fun lowered => ?_
        split
        · exact .pure none
        · exact .ite (.map (addresses_insertValue _ rfl name type) some)
            (.pure none)

theorem addresses_fieldPointer (base : Value) (field : Nat) (name : String) :
    Relates Addresses (fieldPointer base field name) := by
  refine .bind (addresses_constantI32 0) fun zero => .ite ?_ (.pure none)
  exact .bind (addresses_constantI32 field) fun index =>
    addresses_elementPointer base _ name

theorem addresses_bytePointer (base : Value) (offset : Nat) (name : String) :
    Relates Addresses (bytePointer base offset name) := by
  refine .bind (addresses_onTypes _) fun bytes => ?_
  refine .bind (addresses_cast _ base bytes "") fun raw => ?_
  refine .bind (addresses_onTypes _) fun type => .ite ?_ (.pure none)
  exact .bind (addresses_constantInt type offset) fun index =>
    addresses_elementPointer raw _ name

end Builder

end FormCompiler.Ir

namespace FormCompiler

open Ir

/-! ## Operands -/

namespace EmitState

variable {environment : Environment} {uses : List NameUse}
  {state later : EmitState}

/-- Nothing changes but what is built and which problems are met, and nothing
is built but what finds places in memory or reads them. -/
structure Looks (_ : Environment) (_ : List NameUse)
    (state later : EmitState) : Prop where
  builder : state.builder.Addresses later.builder
  others : later =
    { state with builder := later.builder, problems := later.problems }

instance : Graded Looks where
  refl _ _ := ⟨.refl, rfl⟩
  trans first second := ⟨first.builder.trans second.builder, by
    rw [second.others, first.others]⟩
  mono _ looks := ⟨looks.builder, looks.others⟩

theorem Looks.context_eq (looks : state.Looks environment uses later) :
    later.context = state.context := by
  rw [looks.others]

end EmitState

open EmitState (Looks)

variable {Result Part : Type}

theorem looks_onBuilder {operation : Build Result}
    (addresses : Relates Builder.Addresses operation) :
    Does Looks [] (onBuilder operation) :=
  fun _ state => ⟨addresses state.builder, rfl⟩

/-- Looking at the state changes nothing. -/
theorem looks_of_eq {emission : Emission Result}
    (same : ∀ environment state, (emission environment state).2 = state) :
    Does Looks [] emission := by
  intro environment state
  rw [same]
  exact Graded.refl environment state

theorem looks_report (operation : String) (cause : ProblemCause) :
    Does Looks [] (report operation cause) :=
  fun _ _ => ⟨.refl, rfl⟩

theorem looks_typeOf (form : Form) : Tries Looks [] (typeOf form) :=
  looks_onBuilder (Builder.addresses_onTypes _)

theorem looks_types (operation : StateM TypeTable Result) :
    Does Looks [] (liftM operation : Emission Result) :=
  looks_onBuilder (Builder.addresses_onTypes operation)

theorem looks_spelling (type : TypeId) : Does Looks [] (spelling type) :=
  looks_of_eq fun _ _ => rfl

theorem looks_expectType (what : String) (expected found : TypeId) :
    Tries Looks [] (expectType what expected found) := by
  refine .ite (.pure ()) ?_
  refine .step (.lift (looks_spelling expected)) fun _ => ?_
  exact .step (.lift (looks_spelling found)) fun _ => .throw _

theorem looks_orElseFind {first second : Emission (Option Result)}
    (searches : Does Looks [] first) (otherwise : Does Looks [] second) :
    Does Looks [] (orElseFind first second) := by
  refine .step searches fun found => ?_
  split
  · exact .pure _
  · exact otherwise

theorem looks_loadSlot (name : String) : Does Looks [] (loadSlot name) := by
  refine .step (looks_of_eq fun _ _ => rfl) fun context => ?_
  split
  · exact looks_onBuilder (Builder.addresses_load _ name)
  · exact .pure none

theorem looks_readAliased (initial : String) :
    Does Looks [] (readAliased initial) := by
  have bound (name : String) : Does Looks [] (boundValue name) :=
    looks_of_eq fun _ _ => rfl
  refine .step (looks_of_eq fun _ _ => rfl) fun context => ?_
  split
  · exact looks_orElseFind (looks_loadSlot _) (bound _)
  · exact .pure none

theorem looks_getValue (name : String) : Does Looks [] (getValue name) := by
  refine looks_orElseFind (looks_loadSlot name) ?_
  refine looks_orElseFind (looks_readAliased name) ?_
  refine looks_orElseFind ?_ (looks_of_eq fun _ _ => rfl)
  split
  · exact looks_readAliased _
  · exact .pure none

theorem looks_valueOf (form : Form) : Tries Looks [] (valueOf form) := by
  refine .orFail_step _ fun name _ => ?_
  exact .step (.lift (looks_getValue name)) fun _ => .orFail _ _

theorem looks_operand (form : Form) (type : TypeId) :
    Tries Looks [] (operand form type) := by
  refine .step (.lift (looks_of_eq fun _ _ => rfl)) fun table => ?_
  split
  · exact .ite (looks_onBuilder (Builder.addresses_constantFloat type _))
      (looks_onBuilder (Builder.addresses_constantInt type _))
  · exact looks_onBuilder (Builder.addresses_constantFloat type _)
  · exact looks_onBuilder (Builder.addresses_constantInt type _)
  · exact .ite (looks_onBuilder (Builder.addresses_constant _ type))
      (looks_valueOf _)
  · exact looks_valueOf _

theorem looks_typedOperand (form : Form) (type : TypeId) (what : String) :
    Tries Looks [] (typedOperand form type what) := by
  refine .step (looks_operand form type) fun value => ?_
  exact .step (looks_expectType _ type value.type) fun _ => .pure value

theorem looks_payloadPointer (payload : Value) (offset : Nat)
    (type : TypeId) (name : String) :
    Does Looks [] (payloadPointer payload offset type name) := by
  refine .step (looks_onBuilder (Builder.addresses_bytePointer payload offset
    _)) fun found => ?_
  split
  · refine .step (looks_types _) fun target => ?_
    exact .map (looks_onBuilder (Builder.addresses_cast _ _ target _)) some
  · exact .pure none

end FormCompiler
