import FormCompiler.Proofs.Building
import FormCompiler.Proofs.StraightLine

/-!
# Building code that runs

A builder writes a first block that consists of slots and then of code without
slots.  Every operation of the builder is a step of the machine that runs what
is built so far: a new slot, although it goes ahead of the code, is one slot
more in the end.
-/

namespace FormCompiler.Ir

/-! ## Types of quantities -/

/-- Values of a type are held in registers and slots of an instruction
type. -/
structure Represents (table : TypeTable) (type : TypeId) (irType : IrType) :
    Prop where
  has : table.Has type
  lowered_eq : lowered table loweringLevels type = irType
  firstClass : irType.isFirstClass = true

namespace Represents

variable {table later : TypeTable} {type : TypeId} {irType : IrType}

theorem mono (represents : Represents table type irType)
    (closed : table.Closed) (grows : table.Grows later) :
    Represents later type irType := by
  refine ⟨represents.has.mono grows, ?_, represents.firstClass⟩
  rw [Ir.lowered_eq closed grows represents.has, represents.lowered_eq]

theorem unique {other : IrType} (represents : Represents table type irType)
    (again : Represents table type other) : other = irType :=
  again.lowered_eq.symm.trans represents.lowered_eq

theorem isFloat (represents : Represents table type irType) :
    table.isFloat type = irType.isFloat := by
  rw [← represents.lowered_eq, TypeTable.isFloat, loweringLevels, lowered]
  cases table.kind type <;> dsimp only <;> try rfl
  all_goals split <;> rfl

theorem isInt (represents : Represents table type irType) :
    table.isInt type = irType.isInt := by
  rw [← represents.lowered_eq, TypeTable.isInt, TypeTable.intWidth?,
    loweringLevels, lowered]
  cases table.kind type <;> dsimp only <;> try rfl
  all_goals split <;> rfl

end Represents

/-- A value is an operand with a quantity. -/
structure Value.Denotes (arguments : List Quantity) (machine : Machine)
    (table : TypeTable) (value : Value) (quantity : Quantity) : Prop where
  content : value.content = .firstClass value.operand
  type : Represents table value.type value.operand.type
  quantity : machine.quantity? arguments value.operand = some quantity

theorem Value.Denotes.mono {arguments : List Quantity}
    {machine last : Machine} {table later : TypeTable} {value : Value}
    {quantity : Quantity}
    (denotes : value.Denotes arguments machine table quantity)
    (closed : table.Closed) (grows : table.Grows later)
    (extends_ : machine.Extends last) :
    value.Denotes arguments last later quantity :=
  ⟨denotes.content, denotes.type.mono closed grows,
    extends_.quantity? denotes.quantity⟩

/-- A value points to the slot of a register, which holds a quantity. -/
structure Value.PointsTo (machine : Machine) (table : TypeTable)
    (slot : Value) (register : Register) (type : TypeId)
    (quantity : Quantity) : Prop where
  content : slot.content = .firstClass (.register register .pointer)
  pointee : table.pointee? slot.type = some type
  held : ∃ irType, Represents table type irType ∧
    machine.slots register = some ⟨irType, quantity⟩

/-- Nothing is known of the registers of a function from a number on. -/
def Machine.Unused (machine : Machine) (function : FunctionId)
    (count : Nat) : Prop :=
  ∀ index, count ≤ index → machine.registers ⟨function, index⟩ = none ∧
    machine.slots ⟨function, index⟩ = none

namespace Builder

/-! ## Operations that insert nothing -/

/-- No function changes and the cursor stays. -/
structure Rests (builder later : Builder) : Prop where
  functions : later.module.functions = builder.module.functions
  types : builder.module.types.Grows later.module.types
  function : later.function = builder.function
  block : later.block = builder.block
  beforeTerminator : later.beforeTerminator = builder.beforeTerminator
  detached : later.detached = builder.detached

instance : Std.Refl Rests :=
  ⟨fun _ => ⟨rfl, .refl _, rfl, rfl, rfl, rfl⟩⟩

instance : Trans Rests Rests Rests :=
  ⟨fun first second => ⟨second.functions.trans first.functions,
    first.types.trans second.types, second.function.trans first.function,
    second.block.trans first.block,
    second.beforeTerminator.trans first.beforeTerminator,
    second.detached.trans first.detached⟩⟩

/-- The builder works on the same function, which keeps its header, and leaves
the other functions alone. -/
structure Remains (builder later : Builder) : Prop where
  types : builder.module.types.Grows later.module.types
  function : later.function = builder.function
  type : later.currentFunction.type = builder.currentFunction.type
  parameters : later.currentFunction.parameters =
    builder.currentFunction.parameters
  others : ∀ id, id ≠ builder.function →
    later.module.function id = builder.module.function id

theorem Remains.refl (builder : Builder) : builder.Remains builder :=
  ⟨.refl _, rfl, rfl, rfl, fun _ _ => rfl⟩

theorem Remains.trans {builder later last : Builder}
    (first : builder.Remains later) (second : later.Remains last) :
    builder.Remains last :=
  ⟨first.types.trans second.types, second.function.trans first.function,
    second.type.trans first.type, second.parameters.trans first.parameters,
    fun id other => (second.others id (first.function ▸ other)).trans
      (first.others id other)⟩

theorem Rests.currentFunction {builder later : Builder}
    (rests : builder.Rests later) :
    later.currentFunction = builder.currentFunction := by
  rw [Builder.currentFunction, Builder.currentFunction, rests.function,
    Module.function, Module.function, rests.functions]

theorem Rests.remains {builder later : Builder}
    (rests : builder.Rests later) : builder.Remains later :=
  ⟨rests.types, rests.function, by rw [rests.currentFunction],
    by rw [rests.currentFunction], fun id _ => by
      rw [Module.function, Module.function, rests.functions]⟩

/-- The types of a builder are closed. -/
def Closed (builder : Builder) : Prop := builder.module.types.Closed

variable {Result : Type} {arguments : List Quantity} {machine : Machine}
  {builder later : Builder} {type : TypeId} {irType : IrType}

/-- An operation inserts nothing and gives a good result. -/
abbrev Idles (builder : Builder) (operation : Build Result)
    (good : Builder → Result → Prop) : Prop :=
  Preserves Closed Rests builder operation good

theorem idles_onTypes {operation : StateM TypeTable Result}
    {good : TypeTable → Result → Prop}
    (yields : builder.module.types.Yields operation good) :
    Idles builder (onTypes operation)
      fun later result => good later.module.types result :=
  ⟨yields.holds, ⟨rfl, yields.follows, rfl, rfl, rfl, rfl⟩, yields.good⟩

theorem idles_push (closed : builder.Closed) (content : Content)
    (type : TypeId) :
    Idles builder (push content type) fun later value =>
      value.type = type ∧ value.content = content ∧
        later.module.types = builder.module.types :=
  ⟨closed, ⟨rfl, .refl _, rfl, rfl, rfl, rfl⟩, rfl, rfl, rfl⟩

theorem idles_lowering (closed : builder.Closed) (type : TypeId) :
    Idles builder (onModule (Module.lower type)) fun later result =>
      result = lowered builder.module.types loweringLevels type ∧
        later.module.types = builder.module.types :=
  ⟨closed, ⟨rfl, .refl _, rfl, rfl, rfl, rfl⟩,
    lowerWithin_fst builder.module.types loweringLevels type _, rfl⟩

theorem idles_lower (closed : builder.Closed)
    (represents : Represents builder.module.types type irType) :
    Idles builder (onModule (Module.lower type)) fun later result =>
      result = irType ∧ later.module.types = builder.module.types := by
  rw [← represents.lowered_eq]
  exact idles_lowering closed type

theorem idles_lowerFirstClass? (closed : builder.Closed)
    (represents : Represents builder.module.types type irType) :
    Idles builder (onModule (Module.lowerFirstClass? type))
      fun later result => result = some irType ∧
        later.module.types = builder.module.types := by
  refine ⟨closed, ⟨rfl, .refl _, rfl, rfl, rfl, rfl⟩, ?_, rfl⟩
  have lowers : (Module.lower type builder.module).1 = irType :=
    (idles_lower closed represents).good.1
  show (if (Module.lower type builder.module).1.isFirstClass = true then
    some (Module.lower type builder.module).1 else none) = _
  rw [lowers, if_pos represents.firstClass]

/-- An operand of a type is a value of it. -/
theorem idles_pushOperand (closed : builder.Closed) {operand : Operand}
    {quantity : Quantity}
    (represents : Represents builder.module.types type operand.type)
    (known : machine.quantity? arguments operand = some quantity) :
    Idles builder (pushOperand operand type) fun later value =>
      value.type = type ∧
        value.Denotes arguments machine later.module.types quantity := by
  refine (idles_push closed (.firstClass operand) type).weaken ?_
  rintro after value ⟨rfl, content, types⟩
  have same : value.operand = operand := Value.operand_eq content
  refine ⟨rfl, ?_, ?_, ?_⟩
  · rw [same, content]
  · rw [types, same]
    exact represents
  · rw [same]
    exact known

/-! ## Constants -/

theorem quantity?_zero (irType : IrType) :
    machine.quantity? arguments (.zero irType) =
      some (.zeroOf irType) := by
  cases irType <;> rfl

theorem type_zero (irType : IrType) : (Operand.zero irType).type = irType := by
  cases irType <;> rfl

theorem idles_constantZero (closed : builder.Closed)
    (represents : Represents builder.module.types type irType) :
    Idles builder (constantZero type) fun later value =>
      value.type = type ∧ value.Denotes arguments machine later.module.types
        (.zeroOf irType) := by
  unfold constantZero constant
  apply (idles_lower closed represents).bind
  rintro later _ laterClosed _ ⟨rfl, types⟩
  rw [if_pos represents.firstClass]
  refine idles_pushOperand laterClosed ?_ (quantity?_zero _)
  rw [types, type_zero]
  exact represents

/-- There is no zero that is an operand, where a type has no values. -/
theorem idles_constantZero_other (closed : builder.Closed)
    (noValues : (lowered builder.module.types loweringLevels
      type).isFirstClass = false) :
    Idles builder (constantZero type) fun _ value =>
      value.operand = Value.standIn := by
  unfold constantZero constant
  apply (idles_lowering closed type).bind
  rintro later lowered laterClosed _ ⟨rfl, types⟩
  rw [noValues, if_neg Bool.false_ne_true]
  split
  · refine (idles_push laterClosed .nothing type).weaken ?_
    rintro after value ⟨-, content, -⟩
    rw [Value.operand, content]
  · refine (idles_push laterClosed (.token _) type).weaken ?_
    rintro after value ⟨-, content, -⟩
    rw [Value.operand, content]

theorem quantity?_ofInt (bits : Nat) (value : Int) :
    machine.quantity? arguments (.ofInt bits value) =
      some (.ofInt (.int bits) value) := by
  have same : BitVec.ofInt bits (Int.bmod value (Nat.pow 2 bits)) =
      BitVec.ofInt bits value := by
    apply BitVec.eq_of_toInt_eq
    rw [BitVec.toInt_ofInt, BitVec.toInt_ofInt]
    exact Int.bmod_bmod
  show some (Quantity.int bits (BitVec.ofInt bits (Int.bmod value _))) = _
  rw [same]
  rfl

theorem idles_constantInt (closed : builder.Closed)
    (represents : Represents builder.module.types type irType) (value : Int) :
    Idles builder (constantInt type value) fun later result =>
      result.type = type ∧ result.Denotes arguments machine
        later.module.types (.ofInt irType value) := by
  unfold constantInt
  apply (idles_lower closed represents).bind
  rintro later lowered laterClosed _ ⟨same, types⟩
  rw [← types, ← same] at represents
  rw [← same]
  split
  · next bits =>
      exact idles_pushOperand laterClosed represents
        (quantity?_ofInt bits value)
  · next notInt =>
      have zero : Quantity.ofInt lowered value = .zeroOf lowered := by
        cases lowered with
        | int bits => exact absurd rfl (notInt bits)
        | _ => rfl
      rw [zero]
      exact idles_constantZero laterClosed represents

theorem idles_constantFloat (closed : builder.Closed)
    (represents : Represents builder.module.types type irType)
    (float : irType.isFloat = true) (value : Double) :
    Idles builder (constantFloat type value) fun later result =>
      result.type = type ∧ result.Denotes arguments machine
        later.module.types (.ofDouble irType value) := by
  unfold constantFloat
  apply (idles_lower closed represents).bind
  rintro later lowered laterClosed _ ⟨same, types⟩
  rw [← types, ← same] at represents
  rw [← same] at float ⊢
  rw [if_pos float]
  cases lowered with
  | float | double => exact idles_pushOperand laterClosed represents rfl
  | _ => cases float

/-! ## What was built so far -/

/-- A block makes slots first, and then runs code that makes none. -/
structure Opens (arguments : List Quantity) (block : Block)
    (slots code : List Instruction) (opened machine : Machine) : Prop where
  instructions : block.instructions = slots ++ code
  allocas : ∀ instruction ∈ slots, instruction.operation.isAlloca = true
  noAllocas : ∀ instruction ∈ code, instruction.operation.isAlloca = false
  opens : Machine.execute arguments slots {} = .goesOn opened
  runs : Machine.execute arguments code opened = .goesOn machine

/-- The cursor is at the end of the first block of a function, and the block
runs to a state of the machine. -/
structure Runs (arguments : List Quantity) (builder : Builder)
    (machine : Machine) : Prop where
  closed : builder.Closed
  cursor : builder.block = some ⟨builder.function, 0⟩
  atEnd : builder.beforeTerminator = false
  attached : builder.detached = 0
  unused : machine.Unused builder.function
    builder.currentFunction.registerCount
  block : ∃ block slots code opened,
    builder.module.block? ⟨builder.function, 0⟩ = some block ∧
    Opens arguments block slots code opened machine ∧
    opened.Unused builder.function builder.currentFunction.registerCount

theorem Runs.currentFunction_known (runs : builder.Runs arguments machine) :
    (builder.module.block? ⟨builder.function, 0⟩).isSome = true := by
  obtain ⟨block, slots, code, opened, found, -⟩ := runs.block
  rw [found]
  rfl

/-- The register of the next instruction is not in use. -/
theorem Runs.next_unused (runs : builder.Runs arguments machine) :
    machine.registers builder.nextRegister = none ∧
      machine.slots builder.nextRegister = none :=
  runs.unused _ (Nat.le_refl _)

theorem Runs.rests (runs : builder.Runs arguments machine)
    (rests : builder.Rests later) (closed : later.Closed) :
    later.Runs arguments machine := by
  have same := rests.currentFunction
  have function : later.module.function later.function =
      builder.module.function builder.function := same
  have block : later.module.block? ⟨later.function, 0⟩ =
      builder.module.block? ⟨builder.function, 0⟩ := by
    rw [Module.block?_eq, Module.block?_eq, function]
  refine ⟨closed, ?_, ?_, ?_, ?_, ?_⟩
  · rw [rests.block, rests.function, runs.cursor]
  · rw [rests.beforeTerminator, runs.atEnd]
  · rw [rests.detached, runs.attached]
  · rw [rests.function, same]
    exact runs.unused
  · rw [block, rests.function, same]
    exact runs.block

/-- An operation that inserts nothing leaves code that runs as before. -/
theorem Runs.idles {operation : Build Result} {good : Builder → Result → Prop}
    (runs : builder.Runs arguments machine)
    (idles : Idles builder operation good) :
    (operation builder).2.Runs arguments machine :=
  runs.rests idles.follows idles.holds

/-! ## Instructions -/

theorem Opens.append {block : Block} {slots code : List Instruction}
    {opened after : Machine} {instruction : Instruction}
    (opens : Opens arguments block slots code opened machine)
    (notAlloca : instruction.operation.isAlloca = false)
    (steps : machine.step arguments instruction = .goesOn after) :
    Opens arguments (block.insertAt block.instructions.length instruction)
      slots (code ++ [instruction]) opened after := by
  refine ⟨?_, opens.allocas, ?_, opens.opens, ?_⟩
  · unfold Block.insertAt
    dsimp only
    rw [List.take_length, List.drop_length, opens.instructions,
      List.append_assoc]
  · simpa [or_imp, forall_and] using ⟨opens.noAllocas, notAlloca⟩
  · rw [Machine.execute_snoc opens.runs, steps]

/-- An instruction at the cursor goes to the end of its block. -/
theorem insert_apply (atEnd : builder.beforeTerminator = false)
    (operation : Operation) (name : String) :
    insert ⟨builder.function, 0⟩ operation name builder =
      (.register builder.nextRegister operation.resultType,
        { builder with
          module := (Module.insertInstruction ⟨builder.function, 0⟩
            (fun block => block.instructions.length) operation name
            builder.module).2 }) := by
  have position : (fun block : Block => block.instructions.length -
      if builder.beforeTerminator then 1 else 0) =
      fun block => block.instructions.length := by
    simp [atEnd]
  unfold insert
  rw [stateM_get_bind, position]
  rfl

/-- An instruction changes the body of its function only. -/
theorem remains_insertInstruction (builder : Builder) (index : Nat)
    (position : Block → Nat) (operation : Operation) (name : String) :
    builder.Remains { builder with
      module := (Module.insertInstruction ⟨builder.function, index⟩ position
        operation name builder.module).2 } := by
  rw [Module.insertInstruction_apply]
  refine ⟨.refl _, rfl, ?_, ?_, fun id other => ?_⟩
  · unfold currentFunction
    dsimp only
    rw [Module.function_modifyFunction]
    split <;> rfl
  · unfold currentFunction
    dsimp only
    rw [Module.function_modifyFunction]
    split <;> rfl
  · dsimp only
    rw [Module.function_modifyFunction, if_neg fun same => other same.1]

/-- An instruction that makes no slot is a step of the machine. -/
theorem Runs.inserted (runs : builder.Runs arguments machine)
    {operation : Operation} (notAlloca : operation.isAlloca = false)
    {after : Machine}
    (steps : ∀ name, machine.step arguments
      ⟨builder.nextRegister, name, operation⟩ = .goesOn after)
    (unused : after.Unused builder.function
      (builder.currentFunction.registerCount + 1)) (name : String) :
    let ran := insert ⟨builder.function, 0⟩ operation name builder
    ran.2.Runs arguments after ∧
      ran.1 = .register builder.nextRegister operation.resultType ∧
      ran.2.module.types = builder.module.types ∧
      builder.Remains ran.2 := by
  obtain ⟨block, slots, code, opened, found, opens, openedUnused⟩ := runs.block
  have count := Module.registerCount_insertInstruction
    (fun block => block.instructions.length) operation name
    runs.currentFunction_known
  obtain ⟨final, inserted⟩ := Module.block?_insertInstruction
    (fun block => block.instructions.length) operation name found
  rw [insert_apply runs.atEnd]
  refine ⟨⟨runs.closed, runs.cursor, runs.atEnd, runs.attached, ?_, ?_⟩, rfl,
    rfl, remains_insertInstruction ..⟩
  · rw [currentFunction, count]
    exact unused
  · refine ⟨_, slots, _, opened, inserted,
      opens.append notAlloca (steps final), ?_⟩
    rw [currentFunction, count]
    exact fun index later => openedUnused index (Nat.le_of_succ_le later)

theorem Runs.unused_fill (runs : builder.Runs arguments machine)
    (quantity : Quantity) :
    (machine.fill builder.nextRegister quantity).Unused builder.function
      (builder.currentFunction.registerCount + 1) := by
  intro index later
  obtain ⟨registers, slots⟩ := runs.unused index (Nat.le_of_succ_le later)
  refine ⟨?_, slots⟩
  unfold Machine.fill
  dsimp only
  rw [Function.update_of_ne, registers]
  intro same
  have position : index = builder.currentFunction.registerCount :=
    congrArg Register.index same
  omega

/-- What is known after an instruction with a result was built. -/
structure Computed (arguments : List Quantity) (machine : Machine)
    (builder : Builder) (type : TypeId) (quantity : Quantity)
    (value : Value) (later : Builder) : Prop where
  runs : later.Runs arguments (machine.fill builder.nextRegister quantity)
  denotes : value.Denotes arguments
    (machine.fill builder.nextRegister quantity) later.module.types quantity
  type : value.type = type
  remains : builder.Remains later

theorem Rests.nextRegister (rests : builder.Rests later) :
    later.nextRegister = builder.nextRegister := by
  rw [Builder.nextRegister, Builder.nextRegister, rests.currentFunction,
    rests.function]

/-- Something that inserts nothing was done before. -/
theorem Computed.after {middle : Builder} {quantity : Quantity}
    {value : Value}
    (computed : Computed arguments machine middle type quantity value later)
    (rests : builder.Rests middle) :
    Computed arguments machine builder type quantity value later := by
  obtain ⟨runs, denotes, typed, remains⟩ := computed
  rw [rests.nextRegister] at runs denotes
  exact ⟨runs, denotes, typed, rests.remains.trans remains⟩

/-- An instruction with a result. -/
theorem Runs.insertValue (runs : builder.Runs arguments machine)
    {operation : Operation} (notAlloca : operation.isAlloca = false)
    {quantity : Quantity}
    (steps : ∀ name, machine.step arguments
      ⟨builder.nextRegister, name, operation⟩ =
        .goesOn (machine.fill builder.nextRegister quantity))
    (represents : Represents builder.module.types type operation.resultType)
    (name : String) :
    let ran := insertValue ⟨builder.function, 0⟩ operation name type builder
    Computed arguments machine builder type quantity ran.1 ran.2 := by
  obtain ⟨later, result, types, remains⟩ := runs.inserted notAlloca steps
    (runs.unused_fill quantity) (nameBeforeNul name)
  unfold Builder.insertValue
  dsimp only
  rw [stateM_bind_apply]
  generalize insert _ operation (nameBeforeNul name) builder = ran at *
  obtain ⟨operand, middle⟩ := ran
  dsimp only at later result types remains ⊢
  subst result
  rw [← types] at represents
  have idles := idles_pushOperand later.closed represents
    (show (machine.fill builder.nextRegister quantity).quantity? arguments
        (.register builder.nextRegister operation.resultType) =
      some quantity from Function.update_self ..)
  exact ⟨later.idles idles, idles.good.2, idles.good.1,
    remains.trans idles.follows.remains⟩

/-- Arithmetic on two values of one integer type. -/
theorem Runs.binary (runs : builder.Runs arguments machine)
    {left right : Value} {first second : Quantity}
    (leftDenotes : left.Denotes arguments machine builder.module.types first)
    (rightDenotes : right.Denotes arguments machine builder.module.types
      second)
    (operator : ModularOperator) (name : String) :
    let ran := binary operator.operator left right name builder
    Computed arguments machine builder left.type
      (first.combine operator second) ran.1 ran.2 := by
  unfold Builder.binary
  rw [attached_bind runs.cursor]
  refine runs.insertValue rfl ?_ leftDenotes.type name
  intro name
  simp only [Machine.step, ModularOperator.of?_operator,
    leftDenotes.quantity, rightDenotes.quantity]

theorem held?_of_pointsTo {slot : Value} {register : Register}
    {quantity : Quantity} {table : TypeTable}
    (points : slot.PointsTo machine table register type quantity)
    (represents : Represents table type irType) :
    machine.held? irType (.register register .pointer) =
      some (register, quantity) := by
  obtain ⟨other, again, held⟩ := points.held
  cases represents.unique again
  unfold Machine.held?
  dsimp only
  rw [held, Option.bind_some, if_pos (IrType.beq_self _)]

/-- A slot is loaded from. -/
theorem Runs.load (runs : builder.Runs arguments machine) {slot : Value}
    {register : Register} {quantity : Quantity}
    (points : slot.PointsTo machine builder.module.types register type
      quantity) (name : String) :
    let ran := load slot name builder
    ∃ value, ran.1 = some value ∧
      Computed arguments machine builder type quantity value ran.2 := by
  obtain ⟨irType, represents, -⟩ := points.held
  have looks : Builder.types builder = (builder.module.types, builder) := rfl
  have operand : slot.operand = .register register .pointer :=
    Value.operand_eq points.content
  have idles := idles_lowerFirstClass? runs.closed represents
  have middleRuns := runs.idles idles
  have rests := idles.follows
  obtain ⟨lowers, types⟩ := idles.good
  unfold Builder.load
  rw [stateM_bind_apply, looks]
  dsimp only
  rw [points.pointee]
  dsimp only
  rw [attached_bind runs.cursor]
  dsimp only
  rw [operand, if_neg (by simp [Operand.type, IrType.isPointer]),
    stateM_bind_apply]
  generalize onModule (Module.lowerFirstClass? type) builder = ran at *
  obtain ⟨result, middle⟩ := ran
  dsimp only at lowers types middleRuns rests ⊢
  subst lowers
  refine ⟨_, rfl, Computed.after ?_ rests⟩
  rw [← types] at represents points
  rw [← rests.function]
  refine middleRuns.insertValue rfl ?_ represents name
  intro name
  simp only [Machine.step, held?_of_pointsTo points represents]

/-- A value of the type of a slot is stored in it. -/
theorem Runs.store (runs : builder.Runs arguments machine)
    {slot value : Value} {register : Register} {old quantity : Quantity}
    (points : slot.PointsTo machine builder.module.types register value.type
      old)
    (denotes : value.Denotes arguments machine builder.module.types
      quantity) :
    let later := (store value slot builder).2
    later.Runs arguments
        (machine.put register ⟨value.operand.type, quantity⟩) ∧
      later.module.types = builder.module.types ∧ builder.Remains later := by
  have operand : slot.operand = .register register .pointer :=
    Value.operand_eq points.content
  have steps : ∀ name, machine.step arguments ⟨builder.nextRegister, name,
      .store value.operand (.register register .pointer)⟩ =
        .goesOn (machine.put register ⟨value.operand.type, quantity⟩) := by
    intro name
    simp only [Machine.step, held?_of_pointsTo points denotes.type,
      denotes.quantity]
  unfold Builder.store
  rw [attached_bind runs.cursor]
  dsimp only
  rw [operand, if_pos (by simp [Operand.type, IrType.isPointer])]
  have unused : (machine.put register ⟨value.operand.type, quantity⟩).Unused
      builder.function (builder.currentFunction.registerCount + 1) := by
    intro index later
    obtain ⟨registers, slots⟩ := runs.unused index (Nat.le_of_succ_le later)
    obtain ⟨irType, -, held⟩ := points.held
    refine ⟨registers, ?_⟩
    unfold Machine.put
    dsimp only
    rw [Function.update_of_ne, slots]
    rintro rfl
    cases held.symm.trans slots
  obtain ⟨later, -, types, remains⟩ := runs.inserted rfl steps unused ""
  exact ⟨later, types, remains⟩

/-! ## Slots -/

theorem Opens.leading {block : Block} {slots code : List Instruction}
    {opened : Machine}
    (opens : Opens arguments block slots code opened machine) :
    block.leading Operation.isAlloca = slots.length := by
  have none : code.takeWhile (fun instruction =>
      instruction.operation.isAlloca) = [] := by
    cases code with
    | nil => rfl
    | cons instruction code =>
        rw [List.takeWhile_cons_of_neg]
        rw [opens.noAllocas instruction List.mem_cons_self]
        exact Bool.false_ne_true
  unfold Block.leading
  rw [opens.instructions, List.takeWhile_append_of_pos opens.allocas, none,
    List.append_nil]

/-- A slot goes ahead of the code. -/
theorem Opens.allocate {block : Block} {slots code : List Instruction}
    {opened : Machine} (opens : Opens arguments block slots code opened machine)
    {register : Register} (unused : opened.slots register = none)
    (name : String) (irType : IrType) :
    let instruction := ⟨register, name, .alloca irType⟩
    Opens arguments
      (block.insertAt (block.leading Operation.isAlloca) instruction)
      (slots ++ [instruction]) code (opened.put register ⟨irType, .undefined⟩)
      (machine.put register ⟨irType, .undefined⟩) := by
  refine ⟨?_, ?_, opens.noAllocas, ?_, ?_⟩
  · unfold Block.insertAt
    dsimp only
    rw [opens.leading, opens.instructions, List.take_left, List.drop_left,
      List.append_assoc]
    rfl
  · simpa [or_imp, forall_and] using ⟨opens.allocas, rfl⟩
  · rw [Machine.execute_snoc opens.opens]
    rfl
  · exact (Machine.execute_put opens.noAllocas unused opens.runs _).1

theorem unused_put {function : FunctionId} {count : Nat}
    (unused : machine.Unused function count) (slot : Slot) :
    (machine.put ⟨function, count⟩ slot).Unused function (count + 1) := by
  intro index later
  obtain ⟨registers, slots⟩ := unused index (Nat.le_of_succ_le later)
  refine ⟨registers, ?_⟩
  unfold Machine.put
  dsimp only
  rw [Function.update_of_ne, slots]
  intro same
  have position : index = count := congrArg Register.index same
  omega

/-- A slot is inserted after the slots of the first block. -/
theorem Runs.placed (runs : builder.Runs arguments machine)
    (irType : IrType) (name : String) :
    let ran := onModule (Module.insertInstruction ⟨builder.function, 0⟩
      (·.leading Operation.isAlloca) (.alloca irType) name) builder
    ran.1 = builder.nextRegister ∧
      ran.2.Runs arguments
        (machine.put builder.nextRegister ⟨irType, .undefined⟩) ∧
      ran.2.module.types = builder.module.types ∧
      builder.Remains ran.2 := by
  obtain ⟨block, slots, code, opened, found, opens, openedUnused⟩ := runs.block
  have count : (onModule (Module.insertInstruction ⟨builder.function, 0⟩
      (·.leading Operation.isAlloca) (.alloca irType) name)
        builder).2.currentFunction.registerCount =
      builder.currentFunction.registerCount + 1 :=
    Module.registerCount_insertInstruction
      (·.leading Operation.isAlloca) (.alloca irType) name
      runs.currentFunction_known
  obtain ⟨final, inserted⟩ := Module.block?_insertInstruction
    (·.leading Operation.isAlloca) (.alloca irType) name found
  refine ⟨rfl, ⟨runs.closed, runs.cursor, runs.atEnd, runs.attached, ?_, ?_⟩,
    rfl, remains_insertInstruction builder 0 (·.leading Operation.isAlloca)
      (.alloca irType) name⟩
  · rw [count]
    exact unused_put runs.unused _
  · refine ⟨_, _, code, _, inserted,
      opens.allocate (openedUnused _ (Nat.le_refl _)).2 final irType, ?_⟩
    rw [count]
    exact unused_put openedUnused _

/-- A slot is made in the first block. -/
theorem Runs.entryAlloca (runs : builder.Runs arguments machine)
    (represents : Represents builder.module.types type irType)
    (name : String) :
    let ran := entryAlloca type name builder
    let after := machine.put builder.nextRegister ⟨irType, .undefined⟩
    ran.2.Runs arguments after ∧
      ran.1.PointsTo after ran.2.module.types builder.nextRegister type
        .undefined ∧
      builder.Remains ran.2 := by
  have nonempty : builder.currentFunction.blocks.isEmpty = false := by
    obtain ⟨block, -, -, -, found, -⟩ := runs.block
    rw [Module.block?_eq] at found
    rw [currentFunction]
    cases blocks : (builder.module.function builder.function).blocks with
    | nil =>
        rw [blocks] at found
        cases found
    | cons => rfl
  have pointerIdles := idles_onTypes
    (TypeTable.yields_pointer runs.closed represents.has)
  unfold Builder.entryAlloca
  rw [stateM_get_bind, nonempty, if_neg Bool.false_ne_true, stateM_bind_apply]
  have pointerRuns := runs.idles pointerIdles
  have pointerRests := pointerIdles.follows
  obtain ⟨-, kind⟩ := pointerIdles.good
  generalize onTypes (TypeTable.pointer type) builder = ran at *
  obtain ⟨pointer, typed⟩ := ran
  dsimp only at pointerRuns pointerRests kind ⊢
  replace represents := represents.mono runs.closed pointerRests.types
  have idles := idles_lowerFirstClass? pointerRuns.closed represents
  have middleRuns := pointerRuns.idles idles
  have rests := Trans.trans pointerRests idles.follows
  obtain ⟨lowers, types⟩ := idles.good
  rw [stateM_bind_apply]
  generalize onModule (Module.lowerFirstClass? type) typed = ran at *
  obtain ⟨result, middle⟩ := ran
  dsimp only at lowers types middleRuns rests ⊢
  subst lowers
  dsimp only
  rw [← rests.nextRegister, ← rests.function]
  obtain ⟨register, placed, same, remains⟩ :=
    middleRuns.placed irType (nameBeforeNul name)
  rw [stateM_bind_apply]
  generalize onModule (Module.insertInstruction _ _ _ _) middle = ran at *
  obtain ⟨_, last⟩ := ran
  dsimp only at register placed same remains ⊢
  subst register
  have pushes := idles_push placed.closed
    (.firstClass (.register middle.nextRegister .pointer)) pointer
  obtain ⟨ofType, content, kept⟩ := pushes.good
  unfold pushOperand
  refine ⟨placed.idles pushes, ⟨content, ?_, irType, ?_, ?_⟩, ?_⟩
  · rw [ofType, kept, same, types, TypeTable.pointee?, kind]
  · rw [kept, same, types]
    exact represents
  · exact Function.update_self ..
  · exact (rests.remains.trans remains).trans pushes.follows.remains

/-! ## Returns -/

/-- The first block of a function gives something back. -/
structure Returns (arguments : List Quantity) (builder : Builder)
    (value : Option Quantity) : Prop where
  cursor : builder.block = some ⟨builder.function, 0⟩
  attached : builder.detached = 0
  block : ∃ block, builder.module.block? ⟨builder.function, 0⟩ = some block ∧
    block.isTerminated = true ∧
    Machine.execute arguments block.instructions {} = .returns value

/-- An instruction that returns ends the block. -/
theorem Runs.returned (runs : builder.Runs arguments machine)
    {value : Option Operand} {quantity : Option Quantity}
    (steps : ∀ name, machine.step arguments
      ⟨builder.nextRegister, name, .ret value⟩ = .returns quantity) :
    (insertEffect (.ret value) builder).2.Returns arguments quantity := by
  obtain ⟨block, slots, code, opened, found, opens, -⟩ := runs.block
  obtain ⟨final, inserted⟩ := Module.block?_insertInstruction
    (fun block => block.instructions.length) (.ret value) "" found
  have effect : (insertEffect (.ret value) builder).2 =
      (insert ⟨builder.function, 0⟩ (.ret value) "" builder).2 := by
    unfold insertEffect
    rw [attached_bind runs.cursor]
    rfl
  rw [effect, insert_apply runs.atEnd]
  refine ⟨runs.cursor, runs.attached, _, inserted, ?_, ?_⟩
  · unfold Block.isTerminated Block.terminator? Block.insertAt
    simp [Operation.isTerminator]
  · unfold Block.insertAt
    dsimp only
    rw [List.take_length, List.drop_length, opens.instructions,
      List.append_assoc, Machine.execute_append, opens.opens]
    dsimp only
    rw [Machine.execute_snoc opens.runs]
    exact steps final

theorem Runs.ret (runs : builder.Runs arguments machine) {value : Value}
    {quantity : Quantity}
    (denotes : value.Denotes arguments machine builder.module.types
      quantity) :
    (ret value builder).2.Returns arguments (some quantity) := by
  refine runs.returned fun name => ?_
  simp only [Machine.step, denotes.quantity]

theorem Runs.retVoid (runs : builder.Runs arguments machine) :
    (retVoid builder).2.Returns arguments none :=
  runs.returned fun _ => rfl

/-- What stands in where a value is no operand is undefined. -/
theorem Runs.ret_standIn (runs : builder.Runs arguments machine)
    {value : Value} (standIn : value.operand = Value.standIn) :
    (Builder.ret value builder).2.Returns arguments (some .undefined) := by
  refine runs.returned fun name => ?_
  rw [standIn]
  rfl

theorem Returns.isTerminated {value : Option Quantity}
    (returns : builder.Returns arguments value) :
    builder.isTerminated = true := by
  obtain ⟨block, found, ended, -⟩ := returns.block
  unfold Builder.isTerminated isTerminatedBlock
  rw [returns.cursor]
  dsimp only
  rw [found]
  exact ended

/-- Code that goes on has not ended its block. -/
theorem Runs.isTerminated (runs : builder.Runs arguments machine) :
    builder.isTerminated = false := by
  obtain ⟨block, slots, code, opened, found, opens, -⟩ := runs.block
  unfold Builder.isTerminated isTerminatedBlock
  rw [runs.cursor]
  dsimp only
  rw [found]
  show block.isTerminated = false
  unfold Block.isTerminated Block.terminator?
  cases final : block.instructions.getLast? with
  | none => rfl
  | some instruction =>
      have member := List.mem_of_getLast? final
      rw [opens.instructions, List.mem_append] at member
      have goesOn : instruction.operation.isTerminator = false := by
        rcases member with inSlots | inCode
        · exact Machine.not_terminator_of_execute opens.opens _ inSlots
        · exact Machine.not_terminator_of_execute opens.runs _ inCode
      simp [goesOn]

end Builder

end FormCompiler.Ir
