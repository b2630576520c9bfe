import FormCompiler.Proofs.Drafting
import FormCompiler.Proofs.PlainCode

/-!
# Building plain code

Building an instruction that computes leaves the builder at its place and adds
plain code only, step by step, whether there is a current block or not.
-/

namespace FormCompiler.Ir

/-- If a value is a register at all, it is a slot that was noted. -/
def Value.SlotIn (events : List Event) (value : Value) : Prop :=
  ∀ register type, value.content = .firstClass (.register register type) →
    ∃ irType, Event.slot register irType ∈ events

namespace Builder

variable {Result : Type} {block : BlockId}

/-- The builder stays at its block, and only plain code is added. -/
structure Plainly (builder later : Builder) : Prop where
  module : builder.module.Flows [] later.module
  function : later.function = builder.function
  block : later.block = builder.block

instance : Std.Refl Plainly := ⟨fun _ => ⟨.refl _, rfl, rfl⟩⟩

instance : Trans Plainly Plainly Plainly :=
  ⟨fun first second => ⟨first.module.trans second.module,
    second.function.trans first.function, second.block.trans first.block⟩⟩

/-- The same step by step. -/
structure Composes (builder later : Builder) : Prop
    extends Plainly builder later, Drafts builder later

instance : Std.Refl Composes :=
  ⟨fun builder => ⟨Std.Refl.refl builder, (Std.Refl.refl builder :
    builder.Drafts builder).traces⟩⟩

instance : Trans Composes Composes Composes :=
  ⟨fun first second => ⟨Trans.trans first.toPlainly second.toPlainly,
    (Trans.trans first.toDrafts second.toDrafts).traces⟩⟩

instance : Stays Composes := ⟨fun composes => composes.block⟩

/-- An operation builds plain code and stays. -/
abbrev Computes (operation : Build Result) : Prop := Relates Composes operation

/-- An operation on the module. -/
theorem computes_onModule {operation : StateM Module Result}
    (computes : Module.Computes operation)
    (drafts : Relates Drafts (onModule operation)) :
    Computes (onModule operation) :=
  fun builder => ⟨⟨computes builder.module, rfl, rfl⟩,
    (drafts builder).traces⟩

theorem computes_onTypes (operation : StateM TypeTable Result) :
    Computes (onTypes operation) :=
  computes_onModule (Module.computes_of_functions_eq fun _ => rfl)
    (drafts_onTypes operation)

theorem computes_lower (type : TypeId) :
    Computes (onModule (Module.lower type)) :=
  computes_onModule (Module.computes_of_functions_eq fun _ => rfl)
    (drafts_lower type)

theorem computes_lowerFirstClass? (type : TypeId) :
    Computes (onModule (Module.lowerFirstClass? type)) :=
  computes_onModule (Module.computes_of_functions_eq fun _ => rfl)
    (drafts_lowerFirstClass? type)

theorem computes_push (content : Content) (type : TypeId) :
    Computes (push content type) :=
  computes_onModule (Module.computes_of_functions_eq fun _ => rfl)
    (drafts_push content type)

theorem computes_appendBlock (name : String) : Computes (appendBlock name) :=
  fun builder => ⟨⟨Module.computes_appendBlock builder.function name
    builder.module, rfl, rfl⟩, (drafts_appendBlock name builder).traces⟩

theorem computes_addFunction (name : String) (type : TypeId)
    (linkage : Linkage) :
    Computes (onModule (Module.addFunction name type linkage)) :=
  computes_onModule (Module.computes_addFunction name type linkage)
    (drafts_addFunction name type linkage)

theorem computes_addEnvironment (number : Nat) (type : TypeId)
    (initializer : Initializer) :
    Computes (onModule (Module.addGlobal
      s!"__edn.closure.env.{number}" type (some initializer) false
        .unlisted)) :=
  computes_onModule (Module.computes_addGlobal _ type _ _ _)
    (drafts_addEnvironment number type initializer)

theorem computes_addAttributes (id : FunctionId)
    {attributes : List Attribute} (others : .unwindTable ∉ attributes) :
    Computes (onModule (Module.addAttributes id attributes)) :=
  computes_onModule (Module.computes_addAttributes id others)
    (drafts_addAttributes id attributes)

theorem computes_setParameterName (id : FunctionId) (index : Nat)
    (name : String) :
    Computes (onModule (Module.setParameterName id index name)) :=
  computes_onModule (Module.computes_setParameterName id index name)
    (drafts_setParameterName id index name)

/-! ## Constants and addresses -/

theorem computes_constant (make : IrType → Operand) (type : TypeId) :
    Computes (constant make type) := by
  refine .bind (computes_lower type) fun lowered => .ite ?_ ?_
  · exact computes_push _ type
  · split
    · exact computes_push _ type
    · exact computes_push _ type

theorem computes_constantUndef (type : TypeId) :
    Computes (constantUndef type) :=
  computes_constant _ type

theorem computes_constantZero (type : TypeId) : Computes (constantZero type) :=
  computes_constant _ type

theorem computes_constantInt (type : TypeId) (value : Int) :
    Computes (constantInt type value) := by
  refine .bind (computes_lower type) fun lowered => ?_
  split
  · exact computes_push _ type
  · exact computes_constantZero type

theorem computes_constantFloat (type : TypeId) (value : Double) :
    Computes (constantFloat type value) := by
  refine .bind (computes_lower type) fun lowered => .ite ?_ ?_
  · exact computes_push _ type
  · exact computes_constantZero type

theorem computes_constantI32 (value : Int) : Computes (constantI32 value) :=
  .bind (computes_onTypes _) fun type => computes_constantInt type value

theorem computes_constantBool (value : Bool) : Computes (constantBool value) :=
  .bind (computes_onTypes _) fun type => computes_constantInt type _

theorem computes_constantNone : Computes constantNone :=
  .bind (computes_onTypes _) computes_constantZero

theorem computes_globalAddress (id : GlobalId) :
    Computes (globalAddress id) :=
  .get_bind fun _ => .bind (computes_onTypes _) fun type =>
    computes_push _ type

theorem computes_functionAddress (id : FunctionId) :
    Computes (functionAddress id) :=
  .get_bind fun _ => .bind (computes_onTypes _) fun type =>
    computes_push _ type

/-! ## Instructions -/

theorem composes_counted (builder : Builder) :
    builder.Composes { builder with detached := builder.detached + 1 } :=
  ⟨⟨.refl _, rfl, rfl⟩, (drafts_counted builder).traces⟩

/-- Plain code at the current block, if there is one. -/
theorem computes_attached {next : Option BlockId → Build Result}
    (without : Computes (next none))
    (within : ∀ block, RelatesAt block Composes (next (some block))) :
    Computes (attached >>= next) :=
  relates_attached composes_counted without within

theorem flows_plain (module : Module) (block : BlockId)
    (position : Block → Nat) {operation : Operation}
    (plain : operation.isPlain = true) (name : String) :
    module.Flows [] (Module.insertInstruction block position operation name
      module).2 := by
  refine (Module.flows_insertInstruction module block position operation
    name).mono ?_
  rintro entry member notPlain
  cases List.mem_singleton.mp member
  exact absurd (plain.symm.trans notPlain) (by decide)

theorem computes_insert (block : BlockId) {operation : Operation}
    (plain : operation.isPlain = true) (other : operation.isPhi = false)
    (name : String) :
    RelatesAt block Composes (insert block operation name) :=
  fun builder placed =>
    ⟨⟨flows_plain builder.module block _ plain name, rfl, rfl⟩,
      (drafts_insert block other name builder placed).traces⟩

theorem computes_insertValue (block : BlockId) {operation : Operation}
    (plain : operation.isPlain = true) (other : operation.isPhi = false)
    (name : String) (type : TypeId) :
    RelatesAt block Composes (insertValue block operation name type) :=
  .bind (computes_insert block plain other _) fun _ =>
    .of_relates (computes_push _ type)

theorem computes_insertEffect {operation : Operation}
    (plain : operation.isPlain = true) (other : operation.isPhi = false) :
    Computes (insertEffect operation) :=
  computes_attached (.pure ()) fun block =>
    .bind (computes_insert block plain other "") fun _ =>
      .of_relates (.pure ())

theorem computes_binary (operator : BinaryOperator) (left right : Value)
    (name : String) : Computes (binary operator left right name) :=
  computes_attached (computes_constantUndef _) fun block =>
    computes_insertValue block rfl rfl name _

theorem computes_compareInt (predicate : IntPredicate) (left right : Value)
    (name : String) : Computes (compareInt predicate left right name) := by
  refine .bind (computes_onTypes _) fun type => ?_
  refine computes_attached (computes_constantUndef type) fun block => ?_
  exact .bind (computes_insert block rfl rfl _) fun _ =>
    .of_relates (computes_push _ type)

theorem computes_compareFloat (predicate : FloatPredicate)
    (left right : Value) (name : String) :
    Computes (compareFloat predicate left right name) := by
  refine .bind (computes_onTypes _) fun type => ?_
  refine computes_attached (computes_constantUndef type) fun block => ?_
  exact .ite (computes_insertValue block rfl rfl name type)
    (.of_relates (computes_constantUndef type))

theorem computes_cast (operator : CastOperator) (value : Value)
    (target : TypeId) (name : String) :
    Computes (cast operator value target name) := by
  refine .ite (.pure value) (.bind (computes_lowerFirstClass? target) ?_)
  intro lowered
  split
  · exact computes_constantUndef target
  · refine .ite (computes_push _ target) ?_
    refine computes_attached (computes_constantUndef target) fun block => ?_
    exact .ite (.of_relates (computes_push _ target))
      (computes_insertValue block rfl rfl name target)

theorem computes_alloca (type : TypeId) (name : String) :
    Computes (alloca type name) := by
  refine .bind (computes_onTypes _) fun pointer => ?_
  refine computes_attached (computes_constantUndef pointer) fun block => ?_
  refine .bind (.of_relates (computes_lowerFirstClass? type))
    fun lowered => ?_
  split
  · exact .of_relates (computes_constantUndef pointer)
  · exact computes_insertValue block rfl rfl name pointer

theorem computes_load (pointer : Value) (name : String) :
    Computes (load pointer name) := by
  refine .get_bind fun builder => ?_
  split
  · exact .pure none
  · next type _ =>
      refine computes_attached (.map (computes_constantUndef type) some)
        fun block => .ite (.of_relates (.pure none)) ?_
      refine .bind (.of_relates (computes_lowerFirstClass? type))
        fun lowered => ?_
      split
      · exact .of_relates (.map (computes_constantUndef type) some)
      · exact .map (computes_insertValue block rfl rfl name type) some

theorem computes_store (value pointer : Value) :
    Computes (store value pointer) :=
  computes_attached (.pure ()) fun block =>
    .ite (.bind (computes_insert block rfl rfl "") fun _ =>
      .of_relates (.pure ())) (.of_relates (.pure ()))

theorem computes_elementPointer (base : Value) (indices : List Value)
    (name : String) : Computes (elementPointer base indices name) := by
  refine .get_bind fun builder => ?_
  dsimp only [pure_bind]
  split
  · exact .pure none
  · next pointee element _ =>
      refine .bind (computes_onTypes _) fun type => ?_
      refine computes_attached (.map (computes_constantUndef type) some)
        fun block => .ite (.of_relates (.pure none)) ?_
      refine .bind (.of_relates (computes_lowerFirstClass? pointee))
        fun lowered => ?_
      split
      · exact .of_relates (.pure none)
      · exact .ite (.map (computes_insertValue block rfl rfl name type) some)
          (.of_relates (.pure none))

theorem computes_fieldPointer (base : Value) (field : Nat) (name : String) :
    Computes (fieldPointer base field name) := by
  refine .bind (computes_constantI32 0) fun zero => .ite ?_ (.pure none)
  exact .bind (computes_constantI32 field) fun index =>
    computes_elementPointer base _ name

theorem computes_bytePointer (base : Value) (offset : Nat) (name : String) :
    Computes (bytePointer base offset name) := by
  refine .bind (computes_onTypes _) fun bytes => ?_
  refine .bind (computes_cast _ base bytes "") fun raw => ?_
  refine .bind (computes_onTypes _) fun type => .ite ?_ (.pure none)
  exact .bind (computes_constantInt type offset) fun index =>
    computes_elementPointer raw _ name

/-- Building a call does what its one instruction does, and what plain code
does. -/
theorem relates_buildCall {Changes : Builder → Builder → Prop}
    [Trans Changes Changes Changes] [Stays Changes]
    (quiet : ∀ {builder later : Builder}, builder.Composes later →
      Changes builder later)
    {make : IrType → List IrType → Bool → Operand → List Operand → Operation}
    (inserts : ∀ block result parameters variadic callee arguments name,
      RelatesAt block Changes (insert block
        (make result parameters variadic callee arguments) name))
    (callee : Value) (arguments : List Value) (name : String) :
    Relates Changes (buildCall make callee arguments name) := by
  have plain {Part : Type} {operation : Build Part}
      (computes : Computes operation) : Relates Changes operation :=
    fun builder => quiet (computes builder)
  refine .get_bind fun builder => ?_
  dsimp only [pure_bind]
  split
  · exact plain (.pure none)
  · next type signature _ =>
      refine relates_attached (fun builder => quiet (composes_counted builder))
        (plain (.map (computes_constantUndef signature.result) some))
        fun block => ?_
      refine .bind (.of_relates (plain (computes_lower type)))
        fun lowered => ?_
      split
      · refine .ite ?_ (.ite ?_ (.of_relates (plain (.pure none))))
        · refine .bind (inserts block _ _ _ _ _ _) fun operand => ?_
          refine .bind (.of_relates (plain (computes_lower _)))
            fun result => ?_
          exact .map (.of_relates (plain (computes_push _ _))) some
        · refine .bind (inserts block _ _ _ _ _ _) fun operand => ?_
          exact .map (.of_relates (plain (computes_push _ _))) some
      · exact .of_relates (plain (.pure none))

theorem computes_call (callee : Value) (arguments : List Value)
    (name : String) : Computes (call callee arguments name) :=
  relates_buildCall id (fun block _ _ _ _ _ name =>
    computes_insert block rfl rfl name) callee arguments name

theorem computes_vaArg (list : Value) (type : TypeId) (name : String) :
    Computes (vaArg list type name) := by
  refine computes_attached (computes_constantUndef type) fun block => ?_
  refine .bind (.of_relates (computes_lowerFirstClass? type))
    fun lowered => ?_
  split
  · exact .ite (computes_insertValue block rfl rfl name type)
      (.of_relates (computes_constantUndef type))
  · exact .of_relates (computes_constantUndef type)

theorem computes_ret (value : Value) : Computes (ret value) :=
  computes_insertEffect rfl rfl

theorem computes_retVoid : Computes retVoid := computes_insertEffect rfl rfl

theorem computes_unreachable : Computes unreachable :=
  computes_insertEffect rfl rfl

/-! ## Slots and phis -/

theorem isSome_entry (builder : Builder) :
    (builder.module.block? ⟨builder.function, 0⟩).isSome =
      !builder.currentFunction.blocks.isEmpty := by
  rw [Module.block?_eq, currentFunction]
  cases (builder.module.function builder.function).blocks <;> rfl

/-- Puts a slot into the first block of a function. -/
def slotInEntry (function : FunctionId) (type : IrType) (name : String)
    (pointer : TypeId) : Build Value := do
  let register ← onModule (Module.insertInstruction ⟨function, 0⟩
    (·.leading Operation.isAlloca) (.alloca type) (nameBeforeNul name))
  pushOperand (.register register .pointer) pointer

/-- A slot goes into the first block of a function that has one, once types
are furnished. -/
theorem entryAlloca_of_entered {builder : Builder}
    (entered : (builder.module.block? ⟨builder.function, 0⟩).isSome = true)
    (type : TypeId) (name : String) :
    ∃ module pointer lowered,
      module.functions = builder.module.functions ∧
      module.globals = builder.module.globals ∧
      entryAlloca type name builder =
        Option.elim lowered (constantUndef pointer { builder with module })
          fun lowered => slotInEntry builder.function lowered name pointer
            { builder with module } := by
  have nonempty : ¬builder.currentFunction.blocks.isEmpty = true := by
    rw [isSome_entry] at entered
    simpa using entered
  let typed := onTypes (TypeTable.pointer type) builder
  let lowered := onModule (Module.lowerFirstClass? type) typed.2
  refine ⟨lowered.2.module, typed.1, lowered.1, rfl, rfl, ?_⟩
  unfold entryAlloca
  rw [stateM_get_bind, if_neg nonempty, stateM_bind_apply, stateM_bind_apply]
  dsimp only [lowered, typed]
  generalize Prod.fst (onModule (Module.lowerFirstClass? type) _) = irType
  cases irType <;> rfl

theorem composes_furnish {builder : Builder} {module : Module}
    (functions : module.functions = builder.module.functions)
    (globals : module.globals = builder.module.globals) :
    builder.Composes { builder with module } := by
  have drafts : builder.Drafts { builder with module } :=
    drafts_of_still (fun _ => .single (.furnish functions globals))
      fun id block there =>
        (Draft.block?_of_functions_eq functions id).trans there
  exact ⟨⟨.of_functions_eq functions, rfl, rfl⟩, drafts.traces⟩

theorem computes_entryAlloca (type : TypeId) (name : String) :
    Computes (entryAlloca type name) := by
  intro builder
  cases entered : (builder.module.block? ⟨builder.function, 0⟩).isSome with
  | false =>
      have empty : builder.currentFunction.blocks.isEmpty = true := by
        rw [isSome_entry] at entered
        simpa using entered
      unfold entryAlloca
      rw [stateM_get_bind, if_pos empty]
      exact computes_alloca type name builder
  | true =>
      obtain ⟨module, pointer, lowered, functions, globals, apply⟩ :=
        entryAlloca_of_entered entered type name
      have furnished := composes_furnish functions globals
      have stillEntered : (module.block? ⟨builder.function, 0⟩).isSome =
          true :=
        (Draft.block?_of_functions_eq functions _).symm ▸ entered
      rw [apply]
      cases lowered with
      | none =>
          exact Trans.trans furnished (computes_constantUndef pointer _)
      | some lowered =>
          have flows : module.Flows [] (Module.insertInstruction
              ⟨builder.function, 0⟩ (·.leading Operation.isAlloca)
              (.alloca lowered) (nameBeforeNul name) module).2 :=
            flows_plain module _ _ rfl _
          have placed : Composes { builder with module }
              (onModule (Module.insertInstruction ⟨builder.function, 0⟩
                (·.leading Operation.isAlloca) (.alloca lowered)
                (nameBeforeNul name)) { builder with module }).2 :=
            ⟨⟨flows, rfl, rfl⟩, (drafts_slot stillEntered lowered _).traces⟩
          exact Trans.trans furnished
            (Trans.trans placed (computes_push _ pointer _))

/-- What is undefined is no register. -/
theorem constantUndef_apply (type : TypeId) (builder : Builder) :
    (∃ module, (constantUndef type builder).2 = { builder with module } ∧
        module.functions = builder.module.functions ∧
        module.globals = builder.module.globals) ∧
      ∀ events, (constantUndef type builder).1.SlotIn events := by
  unfold constantUndef constant
  rw [stateM_bind_apply]
  split
  · exact ⟨⟨_, rfl, rfl, rfl⟩, fun events => nofun⟩
  · cases (onModule (Module.lower type) builder).1 <;>
      exact ⟨⟨_, rfl, rfl, rfl⟩, fun events => nofun⟩

/-- A slot that is asked for is one of the function and is noted, and it leaves
the builder where it is. -/
theorem entryAlloca_notes {builder : Builder}
    (entered : (builder.module.block? ⟨builder.function, 0⟩).isSome = true)
    (type : TypeId) (name : String) :
    let made := entryAlloca type name builder
    made.2 = { builder with module := made.2.module } ∧
      (∀ register irType,
        made.1.content = .firstClass (.register register irType) →
          register.function = builder.function) ∧
      ∃ events, made.1.SlotIn events ∧ ∀ literals,
        Draft.Trace (builder.draft literals) events
          (made.2.draft literals) := by
  obtain ⟨module, pointer, lowered, functions, globals, apply⟩ :=
    entryAlloca_of_entered entered type name
  have stillEntered : (module.block? ⟨builder.function, 0⟩).isSome = true :=
    (Draft.block?_of_functions_eq functions _).symm ▸ entered
  have furnished (literals : LiteralPool) : Draft.Step
      (builder.draft literals) [] ⟨module, literals⟩ :=
    .furnish functions globals
  rw [apply]
  cases lowered with
  | none =>
      obtain ⟨⟨last, same, sameFunctions, sameGlobals⟩, noSlot⟩ :=
        constantUndef_apply pointer { builder with module }
      dsimp only [Option.elim] at same ⊢
      rw [same]
      refine ⟨rfl, fun register irType same => ?_, [], noSlot [],
        fun literals => ?_⟩
      · obtain ⟨_, noted⟩ := noSlot [] register irType same
        cases noted
      · exact .single (.furnish (sameFunctions.trans functions)
          (sameGlobals.trans globals))
  | some lowered =>
      refine ⟨rfl, ?_, [.slot ⟨builder.function,
        (module.function builder.function).registerCount⟩ lowered],
        ?_, fun literals => ?_⟩
      · rintro _ _ ⟨⟩
        rfl
      · rintro _ _ ⟨⟩
        exact ⟨lowered, List.mem_singleton_self _⟩
      · refine .trans (.single (furnished literals)) (.trans
          (.single (.slot lowered (nameBeforeNul name) stillEntered))
          (.single (.furnish rfl rfl)))

theorem computes_phiAtStart (block : BlockId) (type : TypeId)
    (name : String) : Computes (phiAtStart block type name) := by
  refine .bind (computes_lowerFirstClass? type) fun lowered => ?_
  split
  · exact computes_constantUndef type
  · refine .bind (fun builder => ?_) fun _ => computes_push _ type
    exact ⟨⟨flows_plain builder.module block _ rfl _, rfl, rfl⟩,
      (drafts_phi block _ _ builder).traces⟩

theorem computes_addIncoming (phi value : Value) (block : BlockId) :
    Computes (addIncoming phi value block) := by
  unfold addIncoming
  split
  · next register _ _ =>
      refine computes_onModule (Module.computes_modifyOperation register
        ?_ ?_) (drafts_amend register ?_)
      · intro operation plain
        split
        · rfl
        · exact plain
      · intro operation notPlain
        split
        · cases notPlain
        · rfl
      · refine ⟨fun operation notPhi => ?_, fun operation isPhi => ?_⟩
        · split
          · cases notPhi
          · rfl
        · split
          · rfl
          · exact isPhi
  · exact .pure ()

/-! ## Detours -/

/-- Building elsewhere comes back to the block that was left. -/
theorem restore_save (builder later : Builder) :
    (restore (save builder).1 later).2.module = later.module ∧
      (restore (save builder).1 later).2.function = builder.function ∧
      (restore (save builder).1 later).2.block = builder.block := by
  obtain ⟨module, function, block, beforeTerminator, detached⟩ := builder
  cases block with
  | none => exact ⟨rfl, rfl, rfl⟩
  | some block =>
      cases beforeTerminator with
      | false => exact ⟨rfl, rfl, rfl⟩
      | true => exact ⟨rfl, rfl, rfl⟩

end Builder

end FormCompiler.Ir
