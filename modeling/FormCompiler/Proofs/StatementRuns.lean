import FormCompiler.Proofs.KeptProblems
import FormCompiler.Proofs.VariableRuns

/-!
# Emitting statements that run

Every statement that is emitted without a problem takes the machine to where it
takes the interpreter: on to a state that mirrors the scopes, or back to the
caller with the same value.
-/

namespace FormCompiler

open Ir

section Handlers

variable {isVariable : String → Bool} {arguments : List Quantity}
  {machine last : Machine} {scopes : Scopes} {environment : Environment}
  {state middle later : EmitState} {name : String} {type : TypeId}
  {irType : IrType} {value slot : Value} {quantity : Quantity}
  {Part Result : Type}

/-! ## Reading parts of a form -/

/-- What is read is there, where a handler succeeds. -/
theorem run_parse_bind_eq_ok {part : Except ProblemCause Part}
    {next : Part → Handler Result} {outcome : Result}
    (run : ((liftM part : Handler Part) >>= next).run environment state =
      (.ok outcome, later)) :
    ∃ item, part = .ok item ∧
      (next item).run environment state = (.ok outcome, later) := by
  cases part with
  | error cause => cases run
  | ok item => exact ⟨item, rfl, run⟩

/-- What is checked is so, where a handler succeeds. -/
theorem run_expectType_bind_eq_ok {what : String} {expected found : TypeId}
    {next : Unit → Handler Result} {outcome : Result}
    (run : (expectType what expected found >>= next).run environment state =
      (.ok outcome, later)) :
    found = expected ∧
      (next ()).run environment state = (.ok outcome, later) := by
  obtain ⟨_, middle, checked, goesOn⟩ := run_bind_eq_ok run
  obtain ⟨same, rfl⟩ := expectType_eq_ok checked
  exact ⟨same, goesOn⟩

theorem run_build_bind (operation : Build Part)
    (next : Part → Handler Result) :
    ((liftM operation : Handler Part) >>= next).run environment state =
      (next (operation state.builder).1).run environment
        { state with builder := (operation state.builder).2 } := rfl

theorem nameAt_eq_ok {items : List Form} {index : Nat} {form : Form}
    (item : items[index]? = some form) (named : localName? form = some name)
    (shape : String) : nameAt items index shape = .ok name := by
  unfold nameAt
  rw [item, Option.bind_some, named]

/-! ## Definitions -/

/-- A literal of an integer type. -/
theorem Tracks.buildConstant
    (tracks : Tracks isVariable arguments machine scopes state)
    {literal : IntLiteral} {form : Form} {bits : Nat}
    (written : literal.Written form)
    (represents : Represents state.table type (.int bits)) :
    let built := buildConstant state.table type form state.builder
    built.1.type = type ∧ Evaluated isVariable arguments machine scopes state
      built.1 (literal.at (.int bits)) machine
        { state with builder := built.2 } := by
  have isInt : state.table.isInt type = true := represents.isInt
  cases written with
  | int found =>
      unfold Tree.int? at found
      split at found <;> cases found
      unfold FormCompiler.buildConstant
      dsimp only
      rw [if_pos isInt]
      exact tracks.constant (Builder.idles_constantInt tracks.closed
        represents _)
  | bool found =>
      unfold Tree.bool? at found
      split at found <;> cases found
      unfold FormCompiler.buildConstant
      dsimp only
      rw [if_pos isInt]
      exact tracks.constant (Builder.idles_constantInt tracks.closed
        represents _)

theorem Tracks.emitConstant
    (tracks : Tracks isVariable arguments machine scopes state)
    {head destination typeForm literalForm : Form} {bits : Nat}
    {literal : IntLiteral} (named : localName? destination = some name)
    (isType : IsType typeForm (.int bits))
    (written : literal.Written literalForm)
    (run : (FormCompiler.emitConstant [head, destination, typeForm, literalForm]).run
      environment state = (.ok (), later)) :
    Reaches isVariable arguments
      (scopes.define isVariable name (literal.at (.int bits))) state later := by
  unfold FormCompiler.emitConstant at run
  dsimp only at run
  obtain ⟨-, -, run⟩ := run_parse_bind_eq_ok run
  obtain ⟨_, parsed, run⟩ := run_parse_bind_eq_ok run
  cases (nameAt_eq_ok rfl named _).symm.trans parsed
  obtain ⟨_, ⟨⟩, run⟩ := run_parse_bind_eq_ok run
  obtain ⟨type, middle, read, run⟩ := run_bind_eq_ok run
  obtain ⟨typed, represents, remains, context, -⟩ :=
    tracks.typeOf isType read
  obtain ⟨_, ⟨⟩, run⟩ := run_parse_bind_eq_ok run
  rw [run_lift_bind, types_apply] at run
  dsimp only at run
  obtain ⟨built, evaluated⟩ := typed.buildConstant written represents
  obtain ⟨value, made, build, run⟩ := run_bind_eq_ok run
  obtain ⟨rfl, rfl⟩ := run_build_eq_ok build
  refine (evaluated.tracks.define evaluated.denotes built run).after
    (remains.trans evaluated.remains) ?_
  rw [evaluated.context, context]

/-- An operand that has to be of a type. -/
theorem Tracks.ofType
    (tracks : Tracks isVariable arguments machine scopes state)
    {argument : Argument} {form : Form} (written : argument.Written form)
    (represents : Represents state.table type irType)
    (run : (FormCompiler.operand form type).run environment state =
      (.ok value, later)) :
    ∃ quantity last, scopes.value? irType argument = some quantity ∧
      Evaluated isVariable arguments machine scopes state value quantity last
        later ∧
      Represents later.table type irType := by
  obtain ⟨quantity, last, known, evaluated⟩ :=
    tracks.operand written represents run
  exact ⟨quantity, last, known, evaluated,
    represents.mono tracks.closed evaluated.remains.types⟩

/-- The form of a bitwise operation is kept. -/
theorem Tracks.recordDefinition
    (tracks : Tracks isVariable arguments machine scopes state)
    (name : String) (form : Form) :
    Tracks isVariable arguments machine scopes { state with
      context := state.context.recordDefinition name form } :=
  ⟨⟨tracks.runs, tracks.mirrors.rebind rfl rfl rfl rfl fun _ _ => rfl,
    tracks.pending⟩, tracks.unbound⟩

/-- The result of an operator on two values of one type is given to a
name. -/
theorem Tracks.defineBinary
    (tracks : Tracks isVariable arguments machine scopes state)
    {left right : Value} {first second : Quantity}
    (leftDenotes : left.Denotes arguments machine state.table first)
    (rightDenotes : right.Denotes arguments machine state.table second)
    (leftType : left.type = type) (operator : ModularOperator)
    (run : (do
      let value ← Builder.binary operator.operator left right name
      FormCompiler.define name value type : Handler Unit).run environment state =
        (.ok (), later)) :
    Reaches isVariable arguments
      (scopes.define isVariable name (first.combine operator second)) state
      later := by
  obtain ⟨value, made, build, run⟩ := run_bind_eq_ok run
  obtain ⟨rfl, rfl⟩ := run_build_eq_ok build
  have computed := tracks.runs.binary leftDenotes rightDenotes operator name
  have typed := computed.type.trans leftType
  obtain ⟨last, evaluated⟩ := tracks.computed computed
  exact (evaluated.tracks.define evaluated.denotes typed run).after
    evaluated.remains rfl

theorem Tracks.emitBinary
    (tracks : Tracks isVariable arguments machine scopes state)
    {operator : ModularOperator}
    {head destination typeForm leftForm rightForm : Form} {bits : Nat}
    {left right : Argument} (named : localName? destination = some name)
    (isType : IsType typeForm (.int bits)) (leftWritten : left.Written leftForm)
    (rightWritten : right.Written rightForm)
    (run : (FormCompiler.emitBinary operator.operator
      [head, destination, typeForm, leftForm, rightForm]).run environment
        state = (.ok (), later)) :
    ∃ first second, scopes.value? (.int bits) left = some first ∧
      scopes.value? (.int bits) right = some second ∧
      Reaches isVariable arguments
        (scopes.define isVariable name (first.combine operator second)) state
        later := by
  unfold FormCompiler.emitBinary at run
  dsimp only at run
  obtain ⟨-, -, run⟩ := run_parse_bind_eq_ok run
  obtain ⟨_, parsed, run⟩ := run_parse_bind_eq_ok run
  cases (nameAt_eq_ok rfl named _).symm.trans parsed
  obtain ⟨_, ⟨⟩, run⟩ := run_parse_bind_eq_ok run
  obtain ⟨type, typedState, read, run⟩ := run_bind_eq_ok run
  obtain ⟨tracks, represents, remains, context, -⟩ :=
    tracks.typeOf isType read
  have notFloat : operator.operator.isFloat = false := by
    cases operator <;> rfl
  have isInt : typedState.table.isInt type = true := represents.isInt
  rw [run_lift_bind, types_apply, notFloat, if_neg Bool.false_ne_true,
    isInt, if_neg (by decide)] at run
  obtain ⟨_, ⟨⟩, run⟩ := run_parse_bind_eq_ok run
  obtain ⟨leftValue, leftState, readLeft, run⟩ := run_bind_eq_ok run
  obtain ⟨first, leftMachine, knownLeft, leftEvaluated, represents⟩ :=
    tracks.ofType leftWritten represents readLeft
  obtain ⟨_, ⟨⟩, run⟩ := run_parse_bind_eq_ok run
  obtain ⟨rightValue, rightState, readRight, run⟩ := run_bind_eq_ok run
  obtain ⟨second, rightMachine, knownRight, rightEvaluated, -⟩ :=
    leftEvaluated.tracks.ofType rightWritten represents readRight
  obtain ⟨leftType, run⟩ := run_expectType_bind_eq_ok run
  obtain ⟨-, run⟩ := run_expectType_bind_eq_ok run
  have leftDenotes := leftEvaluated.denotes.mono leftEvaluated.tracks.closed
    rightEvaluated.remains.types rightEvaluated.extends_
  have all := (remains.trans leftEvaluated.remains).trans
    rightEvaluated.remains
  have depth : rightState.context.depth = state.context.depth := by
    rw [rightEvaluated.context, leftEvaluated.context, context]
  refine ⟨first, second, knownLeft, knownRight, ?_⟩
  have tracks := rightEvaluated.tracks
  cases isBits : isBitwise operator.operator with
  | true =>
      rw [isBits, if_pos rfl, run_lift_bind] at run
      exact ((tracks.recordDefinition _ _).defineBinary leftDenotes
        rightEvaluated.denotes leftType operator run).after all depth
  | false =>
      rw [isBits, if_neg Bool.false_ne_true] at run
      exact (tracks.defineBinary leftDenotes rightEvaluated.denotes leftType
        operator run).after all depth

/-! ## Variables -/

/-- A literal is no name that a variable could stand for. -/
theorem run_initialValue {literal : IntLiteral} {form : Form}
    (written : literal.Written form) {source : Option String}
    (run : (initialValue form type).run environment state =
      (.ok (value, source), later)) :
    source = none ∧
      (operand form type).run environment state = (.ok value, later) := by
  have literal : initialValue form type =
      (do pure (← operand form type, none)) := by
    cases written with
    | int found =>
        unfold Tree.int? at found
        split at found <;> cases found
        rfl
    | bool found =>
        unfold Tree.bool? at found
        split at found <;> cases found
        rfl
  rw [literal] at run
  obtain ⟨read, middle, found, run⟩ := run_bind_eq_ok run
  cases run
  exact ⟨rfl, found⟩

theorem Tracks.emitVariable
    (tracks : Tracks isVariable arguments machine scopes state)
    {head destination typeForm literalForm : Form} {literal : IntLiteral}
    (named : localName? destination = some name)
    (varying : isVariable name = true) (isType : IsType typeForm irType)
    (written : literal.Written literalForm)
    (run : (FormCompiler.emitVariable [head, destination, typeForm, literalForm]).run
      environment state = (.ok (), later)) :
    Reaches isVariable arguments (scopes.declare name (literal.at irType))
      state later := by
  unfold FormCompiler.emitVariable at run
  dsimp only at run
  obtain ⟨-, -, run⟩ := run_parse_bind_eq_ok run
  obtain ⟨_, parsed, run⟩ := run_parse_bind_eq_ok run
  cases (nameAt_eq_ok rfl named _).symm.trans parsed
  obtain ⟨_, ⟨⟩, run⟩ := run_parse_bind_eq_ok run
  obtain ⟨type, typedState, read, run⟩ := run_bind_eq_ok run
  obtain ⟨tracks, represents, remains, context, -⟩ :=
    tracks.typeOf isType read
  obtain ⟨_, ⟨⟩, run⟩ := run_parse_bind_eq_ok run
  obtain ⟨⟨initial, source⟩, initialState, readInitial, run⟩ :=
    run_bind_eq_ok run
  obtain ⟨rfl, readLiteral⟩ := run_initialValue written readInitial
  obtain ⟨initialType, evaluated⟩ :=
    tracks.numeral written represents readLiteral
  have before := remains.trans evaluated.remains
  replace represents := represents.mono tracks.closed evaluated.remains.types
  obtain ⟨-, run⟩ := run_expectType_bind_eq_ok run
  have depth : initialState.context.depth = state.context.depth := by
    rw [evaluated.context, context]
  rw [run_lift_bind] at run
  generalize slotRun : FormCompiler.declareSlot name type environment
    initialState = outcome at run
  obtain ⟨slot, slotState⟩ := outcome
  obtain ⟨slotted, pointee⟩ :=
    evaluated.tracks.declareSlot varying represents slotRun
  rw [← initialType] at pointee
  have stored := slotted.store evaluated.tracks.closed evaluated.denotes
    pointee
  obtain ⟨loaded, loads, reaches⟩ := stored.rebound varying
    evaluated.tracks.unbound name type
  dsimp only at run
  rw [run_build_bind, run_build_bind] at run
  dsimp only at run
  rw [loads] at run
  cases run
  exact reaches.after before depth

theorem Tracks.emitAssign
    (tracks : Tracks isVariable arguments machine scopes state)
    {head destination sourceForm : Form} {source : String}
    (named : localName? destination = some name)
    (varying : isVariable name = true)
    (read : localName? sourceForm = some source)
    (run : (FormCompiler.emitAssign [head, destination, sourceForm]).run
      environment state = (.ok (), later)) :
    ∃ quantity, scopes.read? source = some quantity ∧
      Reaches isVariable arguments (scopes.assign name quantity) state
        later := by
  unfold FormCompiler.emitAssign at run
  dsimp only at run
  obtain ⟨-, -, run⟩ := run_parse_bind_eq_ok run
  obtain ⟨_, parsed, run⟩ := run_parse_bind_eq_ok run
  cases (nameAt_eq_ok rfl named _).symm.trans parsed
  obtain ⟨_, ⟨⟩, run⟩ := run_parse_bind_eq_ok run
  obtain ⟨value, valueState, readValue, run⟩ := run_bind_eq_ok run
  obtain ⟨quantity, last, known, evaluated⟩ := tracks.valueOf read readValue
  rw [run_lift_bind] at run
  generalize slotRun : FormCompiler.ensureSlot name value.type false
    environment valueState = outcome at run
  obtain ⟨slot, slotState⟩ := outcome
  have slotted := evaluated.tracks.ensureSlot varying evaluated.denotes.type
    slotRun
  obtain ⟨pointee, points⟩ := slotted.pointee
  rw [run_lift_bind, show pointeeOf? slot environment slotState =
    (slotState.table.pointee? slot.type, slotState) from rfl] at run
  dsimp only at run
  rw [points, Option.getD_some] at run
  obtain ⟨same, run⟩ := run_expectType_bind_eq_ok run
  rw [← same] at points
  have stored := slotted.store evaluated.tracks.closed evaluated.denotes
    points
  obtain ⟨loaded, loads, reaches⟩ := stored.rebound varying
    evaluated.tracks.unbound name value.type
  rw [run_build_bind, run_build_bind] at run
  dsimp only at run
  rw [loads] at run
  cases run
  refine ⟨quantity, known, reaches.after evaluated.remains ?_⟩
  rw [evaluated.context]

/-! ## Returns -/

/-- What a function gives back where nothing else is said: zero of its result
type, if the type has values. -/
def zeroResult (table : TypeTable) (type : TypeId) : Option Quantity :=
  if table.isVoid type then none
  else
    let irType := lowered table loweringLevels type
    some (if irType.isFirstClass then .zeroOf irType else .undefined)

theorem zeroResult_eq {table later : TypeTable} (closed : table.Closed)
    (grows : table.Grows later) (has : table.Has type) :
    zeroResult later type = zeroResult table type := by
  rw [zeroResult, zeroResult, TypeTable.isVoid, TypeTable.isVoid,
    has.kind_eq grows, lowered_eq closed grows has]

/-- The current function gives a value back where nothing else is said. -/
def GivesBack (builder : Builder) (value : Option Quantity) : Prop :=
  ∃ signature,
    builder.module.types.signature? builder.currentFunction.type =
      some signature ∧
    value = zeroResult builder.module.types signature.result

theorem GivesBack.mono {builder after : Builder} {given : Option Quantity}
    (gives : GivesBack builder given) (closed : builder.Closed)
    (remains : builder.Remains after) : GivesBack after given := by
  obtain ⟨signature, found, rfl⟩ := gives
  have has := (closed.signature found).1
  refine ⟨signature, ?_, (zeroResult_eq closed remains.types has).symm⟩
  rw [remains.type,
    (TypeTable.has_of_signature found).signature_eq remains.types, found]

theorem GivesBack.returnType {given : Option Quantity}
    (gives : GivesBack state.builder given) (environment : Environment)
    (closed : state.table.Closed) :
    ∃ type, returnType environment state = (type, state) ∧
      state.table.Has type ∧ given = zeroResult state.table type := by
  obtain ⟨signature, found, rfl⟩ := gives
  refine ⟨signature.result, ?_, (closed.signature found).1, rfl⟩
  have result : resultType state.builder.module.types
      state.builder.currentFunction.type = signature.result := by
    rw [resultType, found]
  exact Prod.ext result rfl

variable (environment) in
theorem Tracks.buildDefaultReturn
    (tracks : Tracks isVariable arguments machine scopes state)
    (has : state.table.Has type) :
    let ended := (FormCompiler.buildDefaultReturn type environment state).2
    ended.builder.Returns arguments (zeroResult state.table type) ∧
      ended.pendingPhis = [] := by
  unfold FormCompiler.buildDefaultReturn zeroResult
  rw [reader_bind_apply, types_apply]
  dsimp only
  split
  · exact ⟨tracks.runs.retVoid, tracks.pending⟩
  · refine ⟨?_, tracks.pending⟩
    split
    · next firstClass =>
        have idles : Builder.Idles state.builder (Builder.constantZero type)
            fun later value => value.type = type ∧
              value.Denotes arguments machine later.module.types
                (.zeroOf (lowered state.table loweringLevels type)) :=
          Builder.idles_constantZero tracks.closed ⟨has, rfl, firstClass⟩
        exact (tracks.runs.idles idles).ret idles.good.2
    · next noValues =>
        have idles := Builder.idles_constantZero_other tracks.closed
          (Bool.eq_false_iff.mpr noValues)
        exact (tracks.runs.idles idles).ret_standIn idles.good

/-- A return without a value. -/
theorem Tracks.emitReturn_bare {given : Option Quantity}
    (tracks : Tracks isVariable arguments machine scopes state)
    (gives : GivesBack state.builder given) {items : List Form}
    (bare : (∃ head, items = [head]) ∨ ∃ head type, items = [head, type])
    (run : (FormCompiler.emitReturn items).run environment state =
      (.ok (), later)) :
    later.builder.Returns arguments given ∧ later.pendingPhis = [] := by
  obtain ⟨type, looks, has, rfl⟩ := gives.returnType environment tracks.closed
  have same : later =
      (FormCompiler.buildDefaultReturn type environment state).2 := by
    have default : (FormCompiler.emitReturn items).run environment state =
        ((liftM (FormCompiler.returnType) : Handler TypeId) >>= fun type =>
          liftM (FormCompiler.buildDefaultReturn type)).run environment
            state := by
      rcases bare with ⟨head, rfl⟩ | ⟨head, type, rfl⟩ <;> rfl
    rw [default, run_lift_bind, looks] at run
    exact (congrArg Prod.snd run).symm
  subst same
  exact tracks.buildDefaultReturn environment has

/-- A return with a value. -/
theorem Tracks.emitReturn_value
    (tracks : Tracks isVariable arguments machine scopes state)
    {head typeForm valueForm : Form} {argument : Argument}
    (isType : IsType typeForm irType) (written : argument.Written valueForm)
    (run : (FormCompiler.emitReturn [head, typeForm, valueForm]).run
      environment state = (.ok (), later)) :
    ∃ quantity, scopes.value? irType argument = some quantity ∧
      later.builder.Returns arguments (some quantity) ∧
      later.pendingPhis = [] := by
  unfold FormCompiler.emitReturn at run
  rw [run_lift_bind] at run
  dsimp only at run
  obtain ⟨type, typedState, read, run⟩ := run_bind_eq_ok run
  obtain ⟨tracks, represents, -⟩ := tracks.typeOf isType read
  obtain ⟨-, run⟩ := run_expectType_bind_eq_ok run
  obtain ⟨value, valueState, readValue, run⟩ := run_bind_eq_ok run
  unfold typedOperand at readValue
  obtain ⟨found, foundState, readOperand, checks⟩ := run_bind_eq_ok readValue
  obtain ⟨-, checks⟩ := run_expectType_bind_eq_ok checks
  cases checks
  obtain ⟨quantity, last, known, evaluated⟩ :=
    tracks.operand written represents readOperand
  cases run
  exact ⟨quantity, known, evaluated.tracks.runs.ret evaluated.denotes,
    evaluated.tracks.pending⟩

end Handlers

end FormCompiler
