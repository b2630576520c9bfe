import Mathlib.Logic.Function.Basic
import FormCompiler.Proofs.Lowering

/-!
# Running emitted code

Code that stays in one block runs on a machine with registers and stack slots.
A register holds what the instruction that fills it computed, and a slot what
was stored in it last.  A slot is read and written at its own type only, and
no pointer is anything but the register of a slot: code that does something
else gets stuck.
-/

namespace FormCompiler.Ir

namespace IrType

mutual

theorem equals_self (type : IrType) : type.equals type = true := by
  cases type with
  | array length element => simp [equals, equals_self element]
  | struct fields => simp [equals, equalsList_self fields]
  | function result parameters variadic =>
      simp [equals, equals_self result, equalsList_self parameters]
  | _ => simp [equals]

theorem equalsList_self (types : List IrType) :
    equalsList types types = true := by
  cases types with
  | nil => rfl
  | cons type types =>
      simp [equalsList, equals_self type, equalsList_self types]

end

@[simp]
theorem beq_self (type : IrType) : (type == type) = true := equals_self type

end IrType

/-! ## Quantities -/

/-- What an operand is when the code runs. -/
inductive Quantity where
  | int (bits : Nat) (value : BitVec bits)
  | single (value : Double)
  | double (value : Double)
  /-- Null, or a value that is zero throughout. -/
  | zero
  /-- What a slot holds that nothing was stored in. -/
  | undefined
deriving DecidableEq, Repr

/-- Operators on integers that are reduced modulo a power of two. -/
inductive ModularOperator where
  | add
  | sub
  | mul
  | and
  | or
  | xor
deriving DecidableEq, Repr

namespace ModularOperator

def operator : ModularOperator → BinaryOperator
  | .add => .add
  | .sub => .sub
  | .mul => .mul
  | .and => .and
  | .or => .or
  | .xor => .xor

def of? : BinaryOperator → Option ModularOperator
  | .add => some .add
  | .sub => some .sub
  | .mul => some .mul
  | .and => some .and
  | .or => some .or
  | .xor => some .xor
  | _ => none

@[simp]
theorem of?_operator (operator : ModularOperator) :
    of? operator.operator = some operator := by
  cases operator <;> rfl

def onBits (operator : ModularOperator) {bits : Nat}
    (left right : BitVec bits) : BitVec bits :=
  match operator with
  | .add => left + right
  | .sub => left - right
  | .mul => left * right
  | .and => left &&& right
  | .or => left ||| right
  | .xor => left ^^^ right

end ModularOperator

namespace Quantity

/-- Zero of a type. -/
def zeroOf : IrType → Quantity
  | .int bits => .int bits 0
  | .float => .single .zero
  | .double => .double .zero
  | _ => .zero

/-- An integer at a type; zero where the type is no integer type. -/
def ofInt (type : IrType) (value : Int) : Quantity :=
  match type with
  | .int bits => .int bits (BitVec.ofInt bits value)
  | type => .zeroOf type

/-- A number at a float type. -/
def ofDouble (type : IrType) (value : Double) : Quantity :=
  match type with
  | .float => .single value.toSingle
  | _ => .double value

/-- The result of an operator on two integers of one width. -/
def combine (operator : ModularOperator) : Quantity → Quantity → Quantity
  | .int bits left, .int width right =>
      if same : width = bits then
        .int bits (operator.onBits left (right.cast same))
      else .undefined
  | _, _ => .undefined

end Quantity

/-! ## Machines -/

structure Slot where
  type : IrType
  content : Quantity
deriving Repr

structure Machine where
  registers : Register → Option Quantity := fun _ => none
  /-- The slots under the registers that point to them. -/
  slots : Register → Option Slot := fun _ => none

/-- How far code has come. -/
inductive Progress (State : Type) where
  | goesOn (state : State)
  | returns (value : Option Quantity)
  | stuck

namespace Machine

/-- Gives a register the result of its instruction. -/
def fill (machine : Machine) (register : Register) (quantity : Quantity) :
    Machine :=
  { machine with
    registers := Function.update machine.registers register (some quantity) }

/-- Makes a slot, or changes what it holds. -/
def put (machine : Machine) (register : Register) (slot : Slot) : Machine :=
  { machine with slots := Function.update machine.slots register (some slot) }

variable {arguments : List Quantity} {machine later : Machine}
  {register : Register}

@[simp]
theorem registers_put (slot : Slot) :
    (machine.put register slot).registers = machine.registers := rfl

@[simp]
theorem slots_fill (quantity : Quantity) :
    (machine.fill register quantity).slots = machine.slots := rfl

/-- The value of an operand.  Addresses and constant bytes are none. -/
def quantity? (arguments : List Quantity) (machine : Machine) :
    Operand → Option Quantity
  | .argument _ index _ => arguments[index]?
  | .register register _ => machine.registers register
  | .int bits value => some (.int bits (BitVec.ofInt bits value))
  | .float value => some (.single value)
  | .double value => some (.double value)
  | .null _ => some .zero
  | .undef _ => some .undefined
  | .bytes _ | .function _ | .global _ => none

/-- The slot of a type that an operand points to, with what it holds. -/
def held? (machine : Machine) (type : IrType) :
    Operand → Option (Register × Quantity)
  | .register register _ =>
      (machine.slots register).bind fun slot =>
        if slot.type == type then some (register, slot.content) else none
  | _ => none

/-- Runs one instruction. -/
def step (arguments : List Quantity) (machine : Machine)
    (instruction : Instruction) : Progress Machine :=
  match instruction.operation with
  | .alloca type =>
      .goesOn (machine.put instruction.register ⟨type, .undefined⟩)
  | .load type pointer =>
      match machine.held? type pointer with
      | some (_, content) =>
          .goesOn (machine.fill instruction.register content)
      | none => .stuck
  | .store value pointer =>
      match machine.held? value.type pointer,
        machine.quantity? arguments value with
      | some (register, _), some quantity =>
          .goesOn (machine.put register ⟨value.type, quantity⟩)
      | _, _ => .stuck
  | .binary operator left right =>
      match ModularOperator.of? operator, machine.quantity? arguments left,
        machine.quantity? arguments right with
      | some operator, some left, some right =>
          .goesOn (machine.fill instruction.register
            (left.combine operator right))
      | _, _, _ => .stuck
  | .ret none => .returns none
  | .ret (some value) =>
      match machine.quantity? arguments value with
      | some quantity => .returns (some quantity)
      | none => .stuck
  | _ => .stuck

/-- Runs instructions in order. -/
def execute (arguments : List Quantity) :
    List Instruction → Machine → Progress Machine
  | [], machine => .goesOn machine
  | instruction :: rest, machine =>
      match machine.step arguments instruction with
      | .goesOn later => execute arguments rest later
      | ended => ended

theorem execute_append (first second : List Instruction)
    (machine : Machine) :
    execute arguments (first ++ second) machine =
      match execute arguments first machine with
      | .goesOn later => execute arguments second later
      | ended => ended := by
  induction first generalizing machine with
  | nil => rfl
  | cons instruction first ih =>
      rw [List.cons_append, execute, execute]
      cases machine.step arguments instruction with
      | goesOn later => exact ih later
      | returns value => rfl
      | stuck => rfl

theorem execute_snoc {code : List Instruction} {opened : Machine}
    (runs : execute arguments code opened = .goesOn machine)
    (instruction : Instruction) :
    execute arguments (code ++ [instruction]) opened =
      machine.step arguments instruction := by
  rw [execute_append, runs]
  dsimp only
  rw [execute]
  cases machine.step arguments instruction <;> rfl

theorem step_ret (register : Register) (name : String)
    (value : Operand) :
    machine.step arguments ⟨register, name, .ret (some value)⟩ =
      match machine.quantity? arguments value with
      | some quantity => .returns (some quantity)
      | none => .stuck := rfl

/-- What goes on does not end a block. -/
theorem not_terminator_of_step {instruction : Instruction}
    (goesOn : machine.step arguments instruction = .goesOn later) :
    instruction.operation.isTerminator = false := by
  obtain ⟨register, name, operation⟩ := instruction
  cases operation with
  | ret value =>
      cases value with
      | none => cases goesOn
      | some value =>
          rw [step_ret] at goesOn
          cases found : machine.quantity? arguments value with
          | none => rw [found] at goesOn; cases goesOn
          | some quantity => rw [found] at goesOn; cases goesOn
  | _ => first | rfl | cases goesOn

/-- Code that goes on holds no instruction that ends a block. -/
theorem not_terminator_of_execute {code : List Instruction}
    (run : execute arguments code machine = .goesOn later) :
    ∀ instruction ∈ code, instruction.operation.isTerminator = false := by
  induction code generalizing machine with
  | nil => exact List.forall_mem_nil _
  | cons instruction code ih =>
      rw [execute] at run
      rw [List.forall_mem_cons]
      cases first : machine.step arguments instruction with
      | goesOn middle =>
          rw [first] at run
          exact ⟨not_terminator_of_step first, ih run⟩
      | returns value =>
          rw [first] at run
          cases run
      | stuck =>
          rw [first] at run
          cases run

/-! ## Making a slot ahead of code -/

theorem quantity?_put (slot : Slot) (operand : Operand) :
    (machine.put register slot).quantity? arguments operand =
      machine.quantity? arguments operand := by
  cases operand <;> rfl

theorem isSome_slots_put {other : Register}
    (there : (machine.slots other).isSome = true) (slot : Slot) :
    ((machine.put register slot).slots other).isSome = true := by
  unfold put
  dsimp only
  by_cases same : other = register
  · rw [same, Function.update_self]
    rfl
  · rw [Function.update_of_ne same, there]

theorem put_comm {other : Register} (apart : other ≠ register)
    (first second : Slot) :
    (machine.put other first).put register second =
      (machine.put register second).put other first := by
  unfold put
  rw [Function.update_comm apart]

/-- A slot that is found is there already. -/
theorem held?_put {type : IrType} {pointer : Operand}
    {found : Register × Quantity} (unused : machine.slots register = none)
    (held : machine.held? type pointer = some found) (slot : Slot) :
    (machine.put register slot).held? type pointer = some found ∧
      found.1 ≠ register := by
  cases pointer with
  | register other irType =>
      obtain ⟨known, there, admits⟩ := Option.bind_eq_some_iff.mp held
      have apart : other ≠ register := by
        rintro rfl
        cases unused.symm.trans there
      split at admits
      · next same =>
          cases admits
          refine ⟨?_, apart⟩
          unfold held? put
          dsimp only
          rw [Function.update_of_ne apart, there, Option.bind_some, if_pos same]
      · cases admits
  | _ => cases held

/-- A step that makes no slot does the same next to one slot more. -/
theorem step_put {instruction : Instruction}
    (notAlloca : instruction.operation.isAlloca = false)
    (unused : machine.slots register = none)
    (run : machine.step arguments instruction = .goesOn later)
    (slot : Slot) :
    (machine.put register slot).step arguments instruction =
        .goesOn (later.put register slot) ∧
      later.slots register = none := by
  obtain ⟨result, name, operation⟩ := instruction
  cases operation with
  | alloca type => cases notAlloca
  | load type pointer =>
      simp only [step] at run ⊢
      split at run
      · next target content held =>
          cases run
          rw [(held?_put unused held slot).1]
          exact ⟨rfl, unused⟩
      · cases run
  | store value pointer =>
      simp only [step, quantity?_put] at run ⊢
      split at run
      · next target content quantity held known =>
          cases run
          obtain ⟨kept, apart⟩ := held?_put unused held slot
          rw [kept, known]
          refine ⟨congrArg _ (put_comm apart.symm ..), ?_⟩
          unfold put
          dsimp only
          rw [Function.update_of_ne apart.symm, unused]
      · cases run
  | binary operator left right =>
      simp only [step, quantity?_put] at run ⊢
      split at run
      · cases run
        exact ⟨rfl, unused⟩
      · cases run
  | ret value =>
      cases value with
      | none => cases run
      | some value =>
          simp only [step] at run
          split at run <;> cases run
  | _ => cases run

/-- A slot may be made ahead of code that makes none. -/
theorem execute_put {code : List Instruction}
    (noAlloca : ∀ instruction ∈ code,
      instruction.operation.isAlloca = false)
    (unused : machine.slots register = none)
    (run : execute arguments code machine = .goesOn later) (slot : Slot) :
    execute arguments code (machine.put register slot) =
        .goesOn (later.put register slot) ∧
      later.slots register = none := by
  induction code generalizing machine with
  | nil =>
      cases run
      exact ⟨rfl, unused⟩
  | cons instruction code ih =>
      rw [List.forall_mem_cons] at noAlloca
      rw [execute] at run ⊢
      cases first : machine.step arguments instruction with
      | goesOn middle =>
          rw [first] at run
          obtain ⟨same, stillUnused⟩ :=
            step_put noAlloca.1 unused first slot
          rw [same]
          exact ih noAlloca.2 stillUnused run
      | returns value =>
          rw [first] at run
          cases run
      | stuck =>
          rw [first] at run
          cases run

/-! ## Registers that are filled -/

/-- Every register that is filled stays as it is. -/
def Extends (machine later : Machine) : Prop :=
  ∀ register quantity, machine.registers register = some quantity →
    later.registers register = some quantity

theorem Extends.refl (machine : Machine) : machine.Extends machine :=
  fun _ _ filled => filled

theorem Extends.trans {last : Machine} (first : machine.Extends later)
    (second : later.Extends last) : machine.Extends last :=
  fun register quantity filled =>
    second register quantity (first register quantity filled)

theorem extends_fill (unfilled : machine.registers register = none)
    (quantity : Quantity) :
    machine.Extends (machine.fill register quantity) := by
  intro other known filled
  have apart : other ≠ register := by
    rintro rfl
    cases unfilled.symm.trans filled
  unfold fill
  dsimp only
  rw [Function.update_of_ne apart, filled]

theorem Extends.quantity? (extends_ : machine.Extends later)
    {operand : Operand} {quantity : Quantity}
    (known : machine.quantity? arguments operand = some quantity) :
    later.quantity? arguments operand = some quantity := by
  cases operand with
  | register register type => exact extends_ register quantity known
  | _ => exact known

end Machine

/-- What a call of a function gives back, where its first block returns.
There is no value where the code gets stuck or leads to another block. -/
def Function.call? (function : Function) (arguments : List Quantity) :
    Option (Option Quantity) :=
  match function.blocks with
  | [] => none
  | entry :: _ =>
      match Machine.execute arguments entry.instructions {} with
      | .returns value => some value
      | _ => none

end FormCompiler.Ir
