import FormCompiler.Proofs.BlockScopes
import FormCompiler.Proofs.Dispatching
import FormCompiler.Proofs.SlotAnalysis

/-!
# Slots are the authority for their names

An instruction that succeeds leaves its result where the name is read: where
the name has a slot, the result is what the current block stored last, and it
was stored there.  Nearly every instruction gives its name the result as its
last step, so that it is enough to look at this step and at the state that the
instruction leaves.  Declarations and assignments store first and bind what
they load from the slot again.
-/

namespace FormCompiler.Ir.Builder

variable {builder : Builder} {value pointer : Value}

theorem store_of_cursor {block : BlockId}
    (cursor : builder.block = some block)
    (address : pointer.operand.type = .pointer) :
    (store value pointer builder).2 =
      { builder with
        module := (Module.insertInstruction block
          (fun block => block.instructions.length -
            if builder.beforeTerminator then 1 else 0)
          (.store value.operand pointer.operand) "" builder.module).2 } := by
  unfold store
  rw [attached_bind cursor]
  dsimp only
  rw [if_pos (by rw [address]; rfl)]
  rfl

theorem types_store (value pointer : Value) (builder : Builder) :
    (store value pointer builder).2.module.types = builder.module.types := by
  unfold store attached
  rw [stateM_bind_apply, stateM_get_bind]
  cases builder.block with
  | none => rfl
  | some block =>
      dsimp only [pure]
      split <;> rfl

/-- Where a store leaves the cursor at the end of a block, it is the last
instruction of the block. -/
theorem written_store (placed : (store value pointer builder).2.Placed)
    (atEnd : (store value pointer builder).2.beforeTerminator = false)
    (address : pointer.operand.type = .pointer) :
    (store value pointer builder).2.written =
      builder.written ++ [(value.operand, pointer.operand)] := by
  obtain ⟨index, current, known⟩ := placed.cursor
  cases cursor : builder.block with
  | none =>
      have stays : (store value pointer builder).2.block = none := by
        unfold store attached
        rw [stateM_bind_apply, stateM_get_bind, cursor]
        exact cursor
      rw [stays] at current
      cases current
  | some block =>
      rw [store_of_cursor cursor address] at atEnd current known ⊢
      dsimp only at atEnd current known ⊢
      cases cursor.symm.trans current
      unfold written Module.stores
      dsimp only
      rw [cursor, Option.map_some, Option.map_some]
      dsimp only [Option.getD_some]
      cases found : builder.module.block? ⟨builder.function, index⟩ with
      | none =>
          rw [Module.block?_insertInstruction_of_none found] at known
          cases known
      | some inner =>
          obtain ⟨final, inserted⟩ := Module.block?_insertInstruction
            (fun block => block.instructions.length -
              if builder.beforeTerminator then 1 else 0)
            (.store value.operand pointer.operand) "" found
          rw [inserted, atEnd]
          unfold Block.stores Block.insertAt
          simp [Operation.stored?]

end FormCompiler.Ir.Builder

namespace FormCompiler

open Ir

variable {environment : Environment} {state middle later : EmitState}
  {Result Other : Type} {name : String} {value : Value} {type : TypeId}

/-! ## The last step of an instruction -/

/-- Where two steps succeed, the first one does. -/
theorem run_bind_eq_ok {handler : Handler Result}
    {next : Result → Handler Other} {outcome : Other}
    (run : (handler >>= next).run environment state = (.ok outcome, later)) :
    ∃ result middle, handler.run environment state = (.ok result, middle) ∧
      (next result).run environment middle = (.ok outcome, later) := by
  rw [ExceptT.run_bind, reader_bind_apply] at run
  generalize handler.run environment state = first at *
  obtain ⟨result, middle⟩ := first
  cases result with
  | error cause => cases run
  | ok result => exact ⟨result, middle, rfl, run⟩

theorem run_lift_bind (emission : Emission Result)
    (next : Result → Handler Other) (environment : Environment)
    (state : EmitState) :
    ((liftM emission : Handler Result) >>= next).run environment state =
      (next (emission environment state).1).run environment
        (emission environment state).2 := rfl

/-- A type is as it has to be, where this is checked with success. -/
theorem expectType_eq_ok {what : String} {expected found : TypeId}
    (run : (expectType what expected found).run environment state =
      (.ok (), later)) : found = expected ∧ later = state := by
  unfold expectType at run
  split at run
  · next same =>
      cases run
      exact ⟨same, rfl⟩
  · cases run

/-- A name has the slot that was found or made for it. -/
theorem slot?_ensureSlot (name : String) (type : TypeId)
    (environment : Environment) (state : EmitState) :
    let ran := ensureSlot name type false environment state
    ran.2.context.slot? name = some ran.1 ∧
      ran.2.context.values = state.context.values := by
  have looks : context environment state = (state.context, state) := rfl
  unfold ensureSlot
  dsimp only
  rw [reader_bind_apply, looks]
  dsimp only
  cases found : state.context.slot? name with
  | some slot => exact ⟨found, rfl⟩
  | none =>
      have pushed (slot : Value) (context : FunctionContext) :
          (context.pushSlot name slot type).slot? name = some slot := by
        rw [FunctionContext.slot?_eq, FunctionContext.stack_pushSlot,
          if_pos rfl]
        rfl
      dsimp only
      rw [reader_bind_apply, reader_bind_apply]
      generalize FunctionContext.value? _ name = current
      cases current <;> exact ⟨pushed _ _, rfl⟩

/-- A value was stored in the slot of a name last. -/
structure StoredLast (name : String) (value : Value) (later : EmitState)
    (slot : Value) (before : Builder) : Prop where
  authority : later.context.slot? name = some slot
  pointee : later.table.pointee? slot.type = some value.type
  stored : later.builder = (Builder.store value slot before).2

theorem storedLast_of_define
    (run : (define name value type).run environment state =
      (.ok (), later)) :
    later.context.value? name = some value ∧
      (later.context.isMutable name = false ∨
        ∃ slot before, StoredLast name value later slot before) := by
  have named : (state.context.publish name value type).value? name =
      some value := by
    unfold FunctionContext.value? FunctionContext.publish FunctionContext.bind
    rw [NameMap.find?_insert, if_pos rfl]
  unfold define at run
  rw [run_lift_bind, run_lift_bind] at run
  have looks : ∀ state, context environment state = (state.context, state) :=
    fun _ => rfl
  rw [looks] at run
  dsimp only at run
  split at run
  · obtain ⟨authority, values⟩ := slot?_ensureSlot name type environment
      (modifyContext (·.publish name value type) environment state).2
    rw [run_lift_bind] at run
    generalize ensureSlot name type false environment _ = ran at *
    obtain ⟨slot, slotted⟩ := ran
    have pointee : pointeeOf? slot environment slotted =
        (slotted.table.pointee? slot.type, slotted) := rfl
    rw [run_lift_bind, pointee] at run
    dsimp only at run authority values
    cases found : slotted.table.pointee? slot.type with
    | none =>
        rw [found] at run
        cases run
    | some expected =>
        rw [found] at run
        dsimp only at run
        obtain ⟨_, checked, done, stores⟩ := run_bind_eq_ok run
        obtain ⟨rfl, rfl⟩ := expectType_eq_ok done
        have ends : later = { checked with
            builder := (Builder.store value slot checked.builder).2 } :=
          (congrArg Prod.snd stores).symm
        subst ends
        refine ⟨?_, .inr ⟨slot, checked.builder, authority, ?_, rfl⟩⟩
        · rw [← named]
          exact congrArg (NameMap.find? · name) values
        · exact (congrArg (TypeTable.pointee? · slot.type)
            (Builder.types_store value slot checked.builder)).trans found
  · next immutable =>
      cases run
      exact ⟨named, .inl (Bool.eq_false_iff.mpr immutable)⟩

/-! ## Instructions that end by giving a name its result -/

/-- The form of a call says that nothing is given back. -/
def GivesNothing (environment : Environment) (items : List Form)
    (later : EmitState) : Prop :=
  ∃ form type state, items[2]? = some form ∧
    ((typeOf form).run environment state).1 = .ok type ∧
    later.table.isVoid type = true

/-- Where a handler succeeds, the last thing it does is to give the name after
the head of the form a value, unless there is nothing to give. -/
def EndsDefining (environment : Environment) (items : List Form)
    (nothing : EmitState → Prop) (handler : Handler Unit) : Prop :=
  ∀ state later, handler.run environment state = (.ok (), later) →
    ∃ name, items[1]?.bind localName? = some name ∧
      (nothing later ∨
        ∃ value type middle,
          (define name value type).run environment middle = (.ok (), later))

namespace EndsDefining

variable {items : List Form} {nothing : EmitState → Prop}
  {handler : Handler Unit} {next : Result → Handler Unit}

/-- Whatever is done first. -/
theorem after {first : Handler Result}
    (rest : ∀ result, EndsDefining environment items nothing (next result)) :
    EndsDefining environment items nothing (first >>= next) := by
  intro state later run
  obtain ⟨result, middle, -, done⟩ := run_bind_eq_ok run
  exact rest result middle later done

/-- Reading a part of the form first. -/
theorem parse {part : Except ProblemCause Result}
    (rest : ∀ item, part = .ok item →
      EndsDefining environment items nothing (next item)) :
    EndsDefining environment items nothing
      ((liftM part : Handler Result) >>= next) := by
  cases part with
  | error cause =>
      intro state later run
      cases run
  | ok item => exact rest item rfl

/-- Reading a type first. -/
theorem typed {form : Form} {next : TypeId → Handler Unit}
    (rest : ∀ type state,
      ((typeOf form).run environment state).1 = .ok type →
        EndsDefining environment items nothing (next type)) :
    EndsDefining environment items nothing (typeOf form >>= next) := by
  intro state later run
  obtain ⟨type, middle, read, done⟩ := run_bind_eq_ok run
  exact rest type state (congrArg Prod.fst read) middle later done

theorem throw (cause : ProblemCause) :
    EndsDefining environment items nothing (throw cause) := by
  intro state later run
  cases run

theorem ite {condition : Prop} [Decidable condition] {other : Handler Unit}
    (holds : EndsDefining environment items nothing handler)
    (fails : EndsDefining environment items nothing other) :
    EndsDefining environment items nothing
      (if condition then handler else other) := by
  split
  · exact holds
  · exact fails

/-- Something that gives results of a kind first. -/
theorem knowing {first : Handler Result} {facts : Result → Prop}
    (gives : ∀ state result middle,
      first.run environment state = (.ok result, middle) → facts result)
    (rest : ∀ result, facts result →
      EndsDefining environment items nothing (next result)) :
    EndsDefining environment items nothing (first >>= next) := by
  intro state later run
  obtain ⟨result, middle, done, run⟩ := run_bind_eq_ok run
  exact rest result (gives state result middle done) middle later run

/-- Something that is done under a condition only. -/
theorem when {condition : Prop} [Decidable condition] {first : Handler Unit}
    {next : Unit → Handler Unit}
    (rest : EndsDefining environment items nothing (next ())) :
    EndsDefining environment items nothing
      (if condition then first >>= next else next ()) :=
  .ite (.after fun _ => rest) rest

theorem define (found : items[1]?.bind localName? = some name)
    (value : Value) (type : TypeId) :
    EndsDefining environment items nothing (define name value type) :=
  fun state _ run => ⟨name, found, .inr ⟨value, type, state, run⟩⟩

/-- The name is read first. -/
theorem named {shape : String} {next : String → Handler Unit}
    (rest : ∀ name, items[1]?.bind localName? = some name →
      EndsDefining environment items nothing (next name)) :
    EndsDefining environment items nothing
      ((liftM (nameAt items 1 shape) : Handler String) >>= next) := by
  refine .parse fun name found => rest name ?_
  unfold nameAt at found
  split at found
  · next read =>
      cases found
      exact read
  · cases found

/-- A call gives its result, if it has one. -/
theorem result {form : Form} {state : EmitState}
    (implies : ∀ later, GivesNothing environment items later → nothing later)
    (found : items[1]?.bind localName? = some name)
    (position : items[2]? = some form)
    (read : ((typeOf form).run environment state).1 = .ok type)
    (value : Value) :
    EndsDefining environment items nothing (defineResult name value type) := by
  intro middle later run
  unfold defineResult at run
  rw [run_lift_bind] at run
  have looks : types environment middle = (middle.table, middle) := rfl
  rw [looks] at run
  dsimp only at run
  split at run
  · next isVoid =>
      cases run
      exact ⟨name, found, .inl (implies _
        ⟨form, type, state, position, read, isVoid⟩)⟩
  · exact ⟨name, found, .inr ⟨value, type, middle, run⟩⟩

end EndsDefining

theorem name_of_nameAt {items : List Form} {shape : String}
    (read : nameAt items 1 shape = .ok name) :
    items[1]?.bind localName? = some name := by
  unfold nameAt at read
  split at read
  · next found =>
      cases read
      exact found
  · cases read

theorem name_of_predicateParts {items : List Form}
    {shape destination predicate : String}
    (read : predicateParts items shape = .ok (destination, predicate)) :
    items[1]?.bind localName? = some destination :=
  name_of_nameAt (nameAt_of_predicateParts read)

section Handlers

variable (items : List Form) {nothing : EmitState → Prop}

theorem endsDefining_emitPhi :
    EndsDefining environment items nothing (emitPhi items) := by
  refine .after fun _ => .named fun _ found => ?_
  refine .after fun _ => .after fun _ => .after fun _ => .after fun _ => ?_
  refine .after fun _ => .after fun _ => .after fun _ => ?_
  exact .define found _ _

theorem endsDefining_emitConstant :
    EndsDefining environment items nothing (emitConstant items) := by
  refine .after fun _ => .named fun _ found => ?_
  refine .after fun _ => .after fun _ => .after fun _ => .after fun _ => ?_
  refine .after fun _ => ?_
  exact .define found _ _

theorem endsDefining_emitBinary (operator : BinaryOperator) :
    EndsDefining environment items nothing (emitBinary operator items) := by
  refine .after fun _ => .named fun _ found => ?_
  refine .after fun _ => .after fun _ => .after fun _ => ?_
  refine .ite (.after fun _ => .throw _) ?_
  refine .after fun _ => .after fun _ => .after fun _ => .after fun _ => ?_
  refine .after fun _ => .after fun _ => .when ?_
  exact .after fun _ => .define found _ _

theorem endsDefining_emitComparison (comparison : Comparison) :
    EndsDefining environment items nothing
      (emitComparison comparison items) := by
  refine .after fun _ => .named fun _ found => ?_
  refine .after fun _ => .after fun _ => .after fun _ => .after fun _ => ?_
  refine .after fun _ => .after fun _ => .after fun _ => .after fun _ => ?_
  exact .define found _ _

theorem endsDefining_emitCompareInt :
    EndsDefining environment items nothing (emitCompareInt items) := by
  refine .parse fun (destination, mnemonic) parts => ?_
  have found := name_of_predicateParts parts
  refine .after fun _ => .after fun _ => .after fun _ => .after fun _ => ?_
  refine .ite (.after fun _ => .throw _) ?_
  refine .after fun _ => .after fun _ => .after fun _ => .after fun _ => ?_
  exact .after fun _ => .define found _ _

theorem endsDefining_emitCompareFloat :
    EndsDefining environment items nothing (emitCompareFloat items) := by
  refine .parse fun (destination, mnemonic) parts => ?_
  have found := name_of_predicateParts parts
  refine .after fun _ => .after fun _ => .after fun _ => .after fun _ => ?_
  refine .ite (.after fun _ => .throw _) ?_
  refine .after fun _ => .after fun _ => .after fun _ => .after fun _ => ?_
  exact .after fun _ => .define found _ _

theorem endsDefining_emitCast (operator : CastOperator) :
    EndsDefining environment items nothing (emitCast operator items) := by
  refine .after fun _ => .named fun _ found => ?_
  refine .after fun _ => .after fun _ => .after fun _ => .after fun _ => ?_
  refine .after fun _ => .after fun _ => ?_
  refine .ite (.after fun _ => .after fun _ => .throw _) ?_
  exact .after fun _ => .after fun _ => .define found _ _

theorem endsDefining_emitPointerOffset (negated : Bool) :
    EndsDefining environment items nothing
      (emitPointerOffset negated items) := by
  refine .after fun _ => .named fun _ found => ?_
  refine .after fun _ => .after fun _ => .after fun _ => .when ?_
  refine .after fun _ => .after fun _ => .after fun _ => .after fun _ => ?_
  refine .after fun _ => .after fun _ => .after fun _ => .when ?_
  refine .ite (.after fun _ => .after fun _ => ?_) (.after fun _ => ?_)
  all_goals exact .after fun _ => .after fun _ => .define found _ _

theorem endsDefining_emitPointerDiff :
    EndsDefining environment items nothing (emitPointerDiff items) := by
  refine .after fun _ => .named fun _ found => ?_
  refine .after fun _ => .after fun _ => .after fun _ => .after fun _ => ?_
  refine .after fun _ => .after fun _ => .after fun _ => .after fun _ => ?_
  refine .after fun _ => ?_
  split
  · exact .after fun _ => .throw _
  · refine .after fun _ => .after fun _ => ?_
    split
    · exact .after fun _ => .throw _
    · exact .after fun _ => .after fun _ => .define found _ _

theorem endsDefining_emitAlloca :
    EndsDefining environment items nothing (emitAlloca items) := by
  refine .after fun _ => .named fun _ found => ?_
  refine .after fun _ => .after fun _ => .after fun _ => ?_
  exact .define found _ _

variable {items} in
theorem endsDefining_loadThrough
    (found : items[1]?.bind localName? = some name) (type : TypeId)
    (form : Form) :
    EndsDefining environment items nothing (loadThrough name type form) := by
  refine .after fun _ => .after fun _ => ?_
  refine .ite (.after fun _ => .after fun _ => ?_) ?_
  all_goals exact .after fun _ => .after fun _ => .define found _ _

theorem endsDefining_emitLoad :
    EndsDefining environment items nothing (emitLoad items) := by
  refine .after fun _ => .named fun _ found => ?_
  refine .after fun _ => .after fun _ => .after fun _ => ?_
  exact endsDefining_loadThrough found _ _

theorem endsDefining_emitDereference :
    EndsDefining environment items nothing (emitDereference items) := by
  refine .after fun _ => .named fun _ found => ?_
  refine .after fun _ => .after fun _ => .after fun _ => ?_
  exact endsDefining_loadThrough found _ _

theorem endsDefining_emitLoadGlobal :
    EndsDefining environment items nothing (emitLoadGlobal items) := by
  refine .after fun _ => .named fun _ found => ?_
  refine .after fun _ => .after fun _ => .after fun _ => .after fun _ => ?_
  refine .after fun _ => .after fun _ => ?_
  exact .define found _ _

theorem endsDefining_emitAddress :
    EndsDefining environment items nothing (emitAddress items) := by
  refine .after fun _ => .named fun _ found => ?_
  refine .after fun _ => .after fun _ => .after fun _ => .after fun _ => ?_
  split
  · exact .after fun _ => .throw _
  · refine .after fun _ => .after fun _ => .after fun _ => ?_
    exact .define found _ _

theorem endsDefining_emitIndex :
    EndsDefining environment items nothing (emitIndex items) := by
  refine .after fun _ => .named fun _ found => ?_
  refine .after fun _ => .after fun _ => .after fun _ => .after fun _ => ?_
  refine .after fun _ => ?_
  refine .ite (.after fun _ => .after fun _ => .throw _) ?_
  refine .after fun _ => .after fun _ => .after fun _ => .after fun _ => ?_
  refine .ite (.throw _) ?_
  refine .after fun _ => .after fun _ => .after fun _ => ?_
  exact .define found _ _

theorem endsDefining_emitArrayLiteral :
    EndsDefining environment items nothing (emitArrayLiteral items) := by
  refine .after fun _ => .named fun _ found => ?_
  refine .after fun _ => .after fun _ => .after fun _ => .after fun _ => ?_
  refine .after fun _ => .ite (.throw _) ?_
  refine .after fun _ => .after fun _ => .after fun _ => .after fun _ => ?_
  exact .after fun _ => .define found _ _

theorem endsDefining_emitStructLiteral :
    EndsDefining environment items nothing (emitStructLiteral items) := by
  refine .after fun _ => .named fun _ found => ?_
  refine .after fun _ => .after fun _ => .ite (.throw _) ?_
  refine .after fun _ => .after fun _ => .after fun _ => .after fun _ => ?_
  exact .define found _ _

theorem endsDefining_emitMember :
    EndsDefining environment items nothing (emitMember items) := by
  refine .after fun _ => .named fun _ found => ?_
  refine .after fun _ => .after fun _ => .after fun _ => ?_
  exact .define found _ _

theorem endsDefining_emitMemberAddress :
    EndsDefining environment items nothing (emitMemberAddress items) := by
  refine .after fun _ => .named fun _ found => ?_
  refine .after fun _ => ?_
  exact .define found _ _

theorem endsDefining_emitUnionMember :
    EndsDefining environment items nothing (emitUnionMember items) := by
  refine .after fun _ => .named fun _ found => ?_
  refine .after fun _ => .after fun _ => .after fun _ => .after fun _ => ?_
  refine .after fun _ => .after fun _ => .after fun _ => .after fun _ => ?_
  refine .after fun _ => .after fun _ => .after fun _ => .after fun _ => ?_
  refine .after fun _ => ?_
  exact .define found _ _

theorem endsDefining_emitFunctionPointer :
    EndsDefining environment items nothing (emitFunctionPointer items) := by
  refine .after fun _ => .named fun _ found => ?_
  refine .after fun _ => .after fun _ => .after fun _ => .after fun _ => ?_
  exact .after fun _ => .after fun _ => .define found _ _

theorem endsDefining_emitCall
    (implies : ∀ later, GivesNothing environment items later →
      nothing later) :
    EndsDefining environment items nothing (emitCall items) := by
  refine .ite (.throw _) (.named fun _ found => ?_)
  refine .parse fun form position => .typed fun type state read => ?_
  have position := getElem?_of_itemAt position
  refine .after fun _ => .after fun _ => .after fun _ => .after fun _ => ?_
  refine .after fun _ => .after fun _ => .after fun _ => .after fun _ => ?_
  exact .after fun _ => .result implies found position read _

theorem endsDefining_emitCallIndirect
    (implies : ∀ later, GivesNothing environment items later →
      nothing later) :
    EndsDefining environment items nothing (emitCallIndirect items) := by
  refine .ite (.throw _) (.named fun _ found => ?_)
  refine .parse fun form position => .typed fun type state read => ?_
  have position := getElem?_of_itemAt position
  refine .after fun _ => .after fun _ => .after fun _ => .after fun _ => ?_
  refine .after fun _ => .after fun _ => .after fun _ => .after fun _ => ?_
  refine .after fun _ => .after fun _ => ?_
  exact .result implies found position read _

theorem endsDefining_emitVaArg :
    EndsDefining environment items nothing (emitVaArg items) := by
  refine .after fun _ => .named fun _ found => ?_
  refine .after fun _ => .after fun _ => .after fun _ => .after fun _ => ?_
  refine .after fun _ => ?_
  exact .define found _ _

variable {items} in
theorem endsDefining_defineLiteral
    (found : items[1]?.bind localName? = some name) (literal : Literal) :
    EndsDefining environment items nothing (defineLiteral name literal) := by
  refine .after fun _ => .after fun _ => .after fun _ => .after fun _ => ?_
  refine .after fun _ => .after fun _ => .after fun _ => ?_
  exact .define found _ _

theorem endsDefining_emitTextLiteral :
    EndsDefining environment items nothing (emitTextLiteral items) := by
  refine .after fun _ => .named fun _ found => ?_
  refine .after fun _ => .after fun _ => ?_
  exact endsDefining_defineLiteral found _

theorem endsDefining_emitBytesLiteral :
    EndsDefining environment items nothing (emitBytesLiteral items) := by
  refine .after fun _ => .named fun _ found => ?_
  refine .after fun _ => .after fun _ => ?_
  exact endsDefining_defineLiteral found _

theorem endsDefining_emitClosure :
    EndsDefining environment items nothing (emitClosure items) := by
  refine .after fun _ => .named fun _ found => ?_
  refine .after fun _ => .after fun _ => .after fun _ => .after fun _ => ?_
  refine .after fun _ => ?_
  dsimp only
  split
  · exact .after fun _ => .throw _
  · refine .after fun _ => .after fun _ => .after fun _ => ?_
    refine .ite (.after fun _ => .after fun _ => .throw _) ?_
    refine .after fun _ => .after fun _ => .after fun _ => ?_
    refine .after fun _ => .after fun _ => .after fun _ => ?_
    exact .after fun _ => .define found _ _

theorem endsDefining_emitMakeClosure :
    EndsDefining environment items nothing (emitMakeClosure items) := by
  refine .after fun _ => .named fun _ found => ?_
  refine .after fun _ => .after fun _ => .after fun _ => .after fun _ => ?_
  refine .after fun _ => .after fun _ => .after fun _ => .after fun _ => ?_
  refine .after fun _ => .after fun _ => ?_
  exact .define found _ _

theorem endsDefining_emitCallClosure
    (implies : ∀ later, GivesNothing environment items later →
      nothing later) :
    EndsDefining environment items nothing (emitCallClosure items) := by
  refine .ite (.throw _) (.named fun _ found => ?_)
  refine .parse fun form position => .typed fun type state read => ?_
  have position := getElem?_of_itemAt position
  refine .after fun _ => .after fun _ => .after fun _ => ?_
  split
  · exact .after fun _ => .throw _
  · refine .after fun _ => .after fun _ => .after fun _ => .after fun _ => ?_
    refine .after fun _ => .after fun _ => .ite (.throw _) ?_
    refine .after fun _ => ?_
    refine .after fun _ => .after fun _ => .after fun _ => .after fun _ => ?_
    refine .after fun _ => .after fun _ => .after fun _ => .after fun _ => ?_
    exact .after fun _ => .result implies found position read _

theorem endsDefining_emitCoroutineStep {step : CoroutineStep}
    (defines : step.definesResult = true) :
    EndsDefining environment items nothing (emitCoroutineStep step items) := by
  refine .after fun _ => .after fun _ => .ite (.after fun _ => ?_) ?_
  · rw [if_pos defines]
    exact .named fun _ found => .after fun _ => .define found _ _
  · rw [if_pos defines]
    refine .named fun _ found => .after fun _ => .after fun _ => ?_
    exact .define found _ _

theorem endsDefining_emitSumNew :
    EndsDefining environment items nothing (emitSumNew items) := by
  refine .after fun _ => .named fun _ found => ?_
  refine .after fun _ => .after fun _ => .ite (.throw _) ?_
  refine .after fun _ => .after fun _ => .after fun _ => .after fun _ => ?_
  refine .after fun _ => ?_
  refine .ite (.after fun _ => .after fun _ => .after fun _ => ?_) ?_
  all_goals exact .after fun _ => .define found _ _

theorem endsDefining_emitSumIs :
    EndsDefining environment items nothing (emitSumIs items) := by
  refine .after fun _ => .named fun _ found => ?_
  refine .after fun _ => .after fun _ => .after fun _ => .after fun _ => ?_
  refine .after fun _ => .after fun _ => .after fun _ => .after fun _ => ?_
  refine .after fun _ => .after fun _ => ?_
  exact .define found _ _

theorem endsDefining_emitSumGet :
    EndsDefining environment items nothing (emitSumGet items) := by
  refine .after fun _ => .named fun _ found => ?_
  refine .after fun _ => .after fun _ => .after fun _ => .after fun _ => ?_
  refine .after fun _ => .after fun _ => .after fun _ => .after fun _ => ?_
  refine .after fun _ => .after fun _ => .after fun _ => .after fun _ => ?_
  exact .define found _ _

/-- The result of a match that names one first. -/
theorem destination_of_readResult
    (isNamed : items[1]?.any isLocalReference = true)
    {result : Option MatchResult × List Form}
    (run : (readResult items).run environment state = (.ok result, later)) :
    ∃ entry, result.1 = some entry ∧
      items[1]?.bind localName? = some entry.destination := by
  unfold readResult at run
  split at run
  · next head destination rest =>
      have isLocal : isLocalReference destination = true := isNamed
      rw [if_pos isLocal] at run
      obtain ⟨name, named, read, run⟩ := run_bind_eq_ok run
      cases found : localName? destination with
      | none =>
          rw [found] at read
          cases read
      | some other =>
          rw [found] at read
          cases read
          split at run
          · obtain ⟨type, typed, -, run⟩ := run_bind_eq_ok run
            cases run
            exact ⟨_, rfl, found⟩
          · cases run
  · next short =>
      cases items with
      | nil => cases isNamed
      | cons head rest =>
          cases rest with
          | nil => cases isNamed
          | cons second rest => exact absurd rfl (short head second rest)

theorem endsDefining_emitMatch (emit : FormEmitter)
    (isNamed : items[1]?.any isLocalReference = true) :
    EndsDefining environment items nothing (emitMatch emit items) := by
  refine .knowing (fun _ _ _ => destination_of_readResult items isNamed) ?_
  rintro ⟨_, rest⟩ ⟨entry, rfl, found⟩
  refine .after fun _ => .after fun _ => .after fun _ => .after fun _ => ?_
  refine .after fun _ => .after fun _ => .after fun _ => .after fun _ => ?_
  refine .after fun _ => .after fun _ => .after fun _ => .after fun _ => ?_
  exact .after fun _ => .after fun _ => .define found _ _

/-- Instructions that call functions. -/
def Opcode.isCall : Opcode → Bool
  | .call | .callIndirect | .callClosure => true
  | _ => false

/-- An instruction whose form names its result gives the result to that name
in the end. -/
theorem endsDefining_dispatch (emit : FormEmitter) (opcode : Opcode)
    (defines : (if opcode = .sumMatch then items[1]?.any isLocalReference
      else opcode.definesResult) = true)
    (declares : opcode ≠ .localVariable) (assigns : opcode ≠ .assign) :
    EndsDefining environment items (fun later => opcode.isCall = true ∧
      GivesNothing environment items later)
      (dispatch emit opcode items) := by
  cases opcode with
  | sumMatch => exact endsDefining_emitMatch items emit defines
  | localVariable => exact absurd rfl declares
  | assign => exact absurd rfl assigns
  | phi => exact endsDefining_emitPhi items
  | constant => exact endsDefining_emitConstant items
  | binary operator => exact endsDefining_emitBinary items operator
  | comparison relation => exact endsDefining_emitComparison items relation
  | compareInt => exact endsDefining_emitCompareInt items
  | compareFloat => exact endsDefining_emitCompareFloat items
  | cast operator => exact endsDefining_emitCast items operator
  | pointerAdd => exact endsDefining_emitPointerOffset items false
  | pointerSub => exact endsDefining_emitPointerOffset items true
  | pointerDiff => exact endsDefining_emitPointerDiff items
  | alloca => exact endsDefining_emitAlloca items
  | load => exact endsDefining_emitLoad items
  | loadGlobal => exact endsDefining_emitLoadGlobal items
  | index => exact endsDefining_emitIndex items
  | arrayLiteral => exact endsDefining_emitArrayLiteral items
  | structLiteral => exact endsDefining_emitStructLiteral items
  | member => exact endsDefining_emitMember items
  | memberAddress => exact endsDefining_emitMemberAddress items
  | unionMember => exact endsDefining_emitUnionMember items
  | address => exact endsDefining_emitAddress items
  | dereference => exact endsDefining_emitDereference items
  | functionPointer => exact endsDefining_emitFunctionPointer items
  | call => exact endsDefining_emitCall items fun _ holds => ⟨rfl, holds⟩
  | callIndirect =>
      exact endsDefining_emitCallIndirect items fun _ holds => ⟨rfl, holds⟩
  | vaArg => exact endsDefining_emitVaArg items
  | textLiteral => exact endsDefining_emitTextLiteral items
  | bytesLiteral => exact endsDefining_emitBytesLiteral items
  | closure => exact endsDefining_emitClosure items
  | makeClosure => exact endsDefining_emitMakeClosure items
  | callClosure =>
      exact endsDefining_emitCallClosure items fun _ holds => ⟨rfl, holds⟩
  | coroutine step => exact endsDefining_emitCoroutineStep items defines
  | sumNew => exact endsDefining_emitSumNew items
  | sumIs => exact endsDefining_emitSumIs items
  | sumGet => exact endsDefining_emitSumGet items
  | conditional | whileLoop | forLoop | switch | breakLoop | continueLoop
  | block | ret | panic | tryCatch | store | storeGlobal | vaStart | vaEnd =>
      cases defines

end Handlers

/-! ## What the slot of a name holds -/

/-- Names that have slots are mutable. -/
def FunctionContext.Backed (context : FunctionContext) : Prop :=
  ∀ name, context.stack name ≠ [] → context.isMutable name = true

theorem FunctionContext.Touches.backed {used : List NameUse}
    {context later : FunctionContext} (touches : Touches used context later)
    (asked : ∀ name, .slotted name ∈ used → context.isMutable name = true)
    (backed : context.Backed) : later.Backed := by
  have pushed {context : FunctionContext} {name : String} (slot : Value)
      (type : TypeId) (backed : context.Backed)
      (mutable : context.isMutable name = true) :
      (context.pushSlot name slot type).Backed := by
    intro other nonempty
    rw [stack_pushSlot] at nonempty
    by_cases same : other = name
    · rw [same]
      exact mutable
    · rw [if_neg same] at nonempty
      exact backed other nonempty
  induction touches with
  | done same =>
      intro name nonempty
      rw [stack, same.slotStacks] at nonempty
      rw [isMutable_of_mutableNames_eq same.mutableNames]
      exact backed name nonempty
  | publish | bind | rename => exact backed
  | back slot type mutable => exact pushed slot type backed mutable
  | slot context name slot type =>
      exact pushed slot type backed (asked name List.mem_cons_self)
  | scope _ ih =>
      intro name nonempty
      rw [isMutable_of_mutableNames_eq (mutableNames_unwindTo _ _)]
      refine ih asked backed name fun empty => nonempty ?_
      rw [stack_unwindTo, empty]
      rfl
  | trans first second ih laterIh =>
      refine laterIh (fun name member => ?_)
        (ih (fun name member => asked name (List.mem_append_left _ member))
          backed)
      rw [isMutable_of_mutableNames_eq first.mutableNames]
      exact asked name (List.mem_append_right _ member)

/-- A name is read from its slot, if it has one, where a value was stored
last. -/
def EmitState.Holds (environment : Environment) (name : String)
    (value : Value) (state : EmitState) : Prop :=
  ∀ slot, state.context.slot? name = some slot →
    state.table.pointee? slot.type = some value.type ∧
    state.builder.written.getLast? = some (value.operand, slot.operand) ∧
    getValue name environment state =
      onBuilder (Builder.load slot name) environment state

/-- What a pointer points to can be loaded. -/
theorem Ir.Builder.isSome_load {builder : Builder} {pointer : Value}
    {pointee : TypeId} (name : String)
    (found : builder.module.types.pointee? pointer.type = some pointee)
    (address : pointer.operand.type = .pointer) :
    (load pointer name builder).1.isSome = true := by
  have looks : types builder = (builder.module.types, builder) := rfl
  unfold load
  rw [stateM_bind_apply, looks]
  dsimp only
  rw [found]
  dsimp only
  cases cursor : builder.block with
  | none =>
      unfold attached
      rw [stateM_bind_apply, stateM_get_bind, cursor]
      rfl
  | some block =>
      rw [attached_bind cursor]
      dsimp only
      rw [if_neg (by rw [address]; exact Bool.false_ne_true),
        stateM_bind_apply]
      generalize (onModule (Module.lowerFirstClass? pointee) builder).1 =
        lowered
      cases lowered <;> rfl

/-- A name that has a slot is loaded from there. -/
theorem getValue_of_slot {slot : Value} (environment : Environment)
    (found : state.context.slot? name = some slot)
    (points : Builder.PointsTo type state.builder slot) :
    getValue name environment state =
      onBuilder (Builder.load slot name) environment state := by
  have resolved : state.context.resolution? name =
      some (.slot name slot) := by
    rw [FunctionContext.resolution?, FunctionContext.slotSource?, found]
    rfl
  refine (finds_getValue name).2 _ resolved ?_
  exact Option.isSome_iff_ne_none.mp
    (Builder.isSome_load name points.2 points.address)

theorem holds_of_define {scene : Scene} {origin : EmitState}
    {owed : List BlockId}
    (run : (define name value type).run environment middle = (.ok (), later))
    (stage : EmitState.Stage scene origin owed later)
    (backed : later.context.Backed) : later.Holds environment name value := by
  intro slot found
  obtain ⟨-, immutable | ⟨other, before, stored⟩⟩ := storedLast_of_define run
  · have mutable := backed name fun empty => by
      rw [FunctionContext.slot?_eq, empty] at found
      cases found
    rw [mutable] at immutable
    cases immutable
  · cases found.symm.trans stored.authority
    have points : Builder.PointsTo value.type later.builder slot :=
      ⟨stage.sound.context.slot found, stored.pointee⟩
    refine ⟨stored.pointee, ?_, ?_⟩
    · have placed := stage.placed
      have atEnd := stage.atEnd
      rw [stored.stored] at placed atEnd ⊢
      rw [Builder.written_store placed atEnd points.address,
        List.getLast?_append, List.getLast?_singleton, Option.some_or]
    · exact getValue_of_slot environment found points

/-! ## Declarations and assignments -/

section Variables

open EmitState (Looks)

variable {scene : Scene} {origin : EmitState} {context : FunctionContext}
  {stores : List (Operand × Operand)} {known : EmitState → Prop}

theorem looks_initialValue (form : Form) (type : TypeId) :
    Tries Looks [] (initialValue form type) := by
  have literal (form : Form) : Tries Looks [] (do
      pure (← operand form type, none) : Handler (Value × Option String)) :=
    .step (looks_operand form type) fun value => .pure _
  unfold initialValue
  split
  · exact literal _
  · exact literal _
  · exact literal _
  · split
    · exact .step (looks_valueOf form) fun value => .pure _
    · exact .step (.lift (looks_onBuilder
        (Builder.addresses_constant _ type))) fun value => .pure _

/-- A slot that the current scope owns. -/
theorem proceeds_declareSlot [Enduring known] (name : String) {type : TypeId}
    (has : ∀ state, known state → state.table.Has type) :
    Proceeds scene (Tracing scene origin context stores known)
      (declareSlot name type) fun slot state => ∃ later,
        Tracing scene origin later stores (fun state => known state ∧
          Builder.PointsTo type state.builder slot) state ∧
        later.slot? name = some slot := by
  unfold declareSlot
  refine .look (fun _ => rfl) fun table => ?_
  refine .look (fun _ => rfl) fun seen => ?_
  dsimp only
  split
  · next slot found =>
      refine .pure ?_
      rintro state ⟨⟨tracing, rfl⟩, rfl⟩
      obtain ⟨own, pointee⟩ := Option.filter_eq_some_iff.mp found
      have inner : state.context.slot? name = some slot := by
        obtain ⟨entry, inner, rfl⟩ := Option.map_eq_some_iff.mp own
        rw [FunctionContext.slot?, (Option.filter_eq_some_iff.mp inner).1]
        rfl
      refine ⟨context, tracing.imp fun holds => ⟨holds, ?_⟩, ?_⟩
      · exact ⟨tracing.ready.context.slot inner, eq_of_beq pointee⟩
      · rw [← tracing.context]
        exact inner
  · refine .bind ((Proceeds.built (Builder.addresses_entryAlloca _ _)
      fun state ready holds => Builder.builds_entryAlloca ready.builder
        (has state holds) _).given fun _ both => both.1.1) fun slot => ?_
    refine .bind (.renamed (emits_pushSlot name slot type)
      fun state holds => ⟨holds.2.1, has state holds.1⟩) fun _ => ?_
    refine .pure fun state tracing => ⟨_, tracing, ?_⟩
    rw [FunctionContext.slot?_eq, FunctionContext.stack_pushSlot, if_pos rfl]
    rfl

/-- A value was stored in the slot of a name, and nothing else since the
origin. -/
structure Assigned (scene : Scene) (origin : EmitState) (name : String)
    (value : Value) (state : EmitState) : Prop where
  ready : state.Ready scene
  quiet : origin.Quiet state
  stored : ∃ slot, state.context.slot? name = some slot ∧
    Builder.PointsTo value.type state.builder slot ∧
    origin.builder.Writes [(value.operand, slot.operand)] state.builder

theorem Assigned.holds (assigned : Assigned scene origin name value state) :
    state.Holds scene.environment name value := by
  intro slot found
  obtain ⟨other, slotted, points, writes⟩ := assigned.stored
  cases found.symm.trans slotted
  refine ⟨points.2, ?_, getValue_of_slot _ found points⟩
  obtain ⟨index, cursor, -⟩ := assigned.ready.builder.cursor
  have same := assigned.quiet.builder.block
  rw [Builder.written, cursor, Option.map_some, Option.getD_some, writes,
    if_pos (same.symm.trans cursor), List.getLast?_append,
    List.getLast?_singleton, Option.some_or]

/-- A value is stored in a slot and loaded again. -/
theorem Achieves.reloaded [Enduring known] {slot value : Value}
    {name : String} (cause : ProblemCause) {next : Value → Handler Unit}
    {after : Unit → EmitState → Prop}
    (points : ∀ state, known state →
      Builder.PointsTo value.type state.builder slot)
    (rest : ∀ current, Achieves scene
      (Tracing scene origin context [(value.operand, slot.operand)]
        fun state => known state ∧ current.Typed state.table) (next current)
      after) :
    Achieves scene (Tracing scene origin context [] known)
      (do
        Builder.store value slot
        let current ← orFail cause (← Builder.load slot name)
        next current) after := by
  refine .assume (fun state tracing => (points state tracing.holds).address)
    fun address => ?_
  exact .stored address (.found cause (Builder.addresses_load slot name)
    (fun state ready _ => Builder.builds_load ready.builder slot name) rest)

theorem Tracing.assigned {slot value : Value} {name : String}
    (tracing : Tracing scene origin context
      [(value.operand, slot.operand)] known state)
    (slotted : context.slot? name = some slot)
    (points : known state → Builder.PointsTo value.type state.builder slot) :
    Assigned scene origin name value state := by
  refine ⟨tracing.ready, tracing.quiet, slot, ?_, points tracing.holds,
    tracing.stores⟩
  rw [tracing.context]
  exact slotted

/-- A name that initialized a variable stands for it from then on. -/
theorem achieves_alias {slot initial value : Value} {destination : String}
    {type : TypeId} (slotted : context.slot? destination = some slot)
    (source : Option String) :
    Achieves scene (Tracing scene origin context
      [(initial.operand, slot.operand)] fun state =>
        (value.Typed state.table ∧ state.table.Has type) ∧
          Builder.PointsTo initial.type state.builder slot)
      (match source with
        | some name =>
            if name ≠ destination then
              modifyContext fun context =>
                (context.setAlias name destination).bind name value type
            else pure ()
        | none => pure () : Handler Unit) fun _ =>
        Assigned scene origin destination initial := by
  cases source with
  | none =>
      exact .pure fun _ tracing =>
        tracing.assigned slotted fun holds => holds.2
  | some name =>
      refine .ite (fun _ => ?_) fun _ => .pure fun _ tracing =>
        tracing.assigned slotted fun holds => holds.2
      have aliases : Emits scene
          (fun table => value.Typed table ∧ table.Has type)
          (modifyContext fun context =>
            (context.setAlias name destination).bind name value type)
          fun _ _ => True :=
        emits_modifyContext (fun _ _ both context =>
          (context.setAlias name destination).bind name both.1 both.2)
          fun _ => rfl
      refine (Achieves.lift (.renamed aliases fun _ holds =>
        holds.1)).weaken ?_
      exact fun _ _ tracing => tracing.assigned slotted fun holds => holds.2

theorem achieves_emitVariable (items : List Form) :
    Achieves scene (Tracing scene origin context [] fun _ => True)
      (emitVariable items) fun _ later => ∃ name value,
        items[1]?.bind localName? = some name ∧
        Assigned scene origin name value later := by
  unfold emitVariable
  refine .parse fun _ _ => .parse fun destination found => ?_
  refine .parse fun typeForm _ => ?_
  refine .handled (looks_typeOf typeForm)
    (@handles_typeOf scene (fun _ => True) typeForm) (fun _ _ => trivial)
    fun type _ => ?_
  refine .parse fun form _ => ?_
  refine .handled (looks_initialValue form type)
    (handles_initialValue form type) (fun _ holds => holds.2)
    fun (initial, source) _ => ?_
  refine .handled (looks_expectType _ _ _)
    (@handles_expectType scene (fun _ => True) _ _ _) (fun _ _ => trivial)
    fun _ _ => ?_
  refine .bind (.lift (proceeds_declareSlot destination
    fun state holds => holds.1.1.2)) fun slot => .any fun declared => ?_
  refine .assume (fun _ both => both.2) fun slotted => ?_
  refine .assume (fun _ both => both.1.holds.1.2) fun same => ?_
  cases same
  refine Achieves.given (.reloaded _ (fun state holds => holds.2)
    fun value => ?_) fun _ both => both.1
  refine .bind (.lift (.renamed (emits_bind destination value initial.type)
    fun state holds => ⟨holds.2, holds.1.1.1.1.2⟩)) fun _ => ?_
  have aliases := @achieves_alias scene origin
    (declared.bind destination value initial.type) slot initial value
    destination initial.type slotted source
  refine (aliases.given fun state tracing => tracing.imp fun holds =>
    ⟨⟨holds.2, holds.1.1.1.1.2⟩, holds.1.2⟩).weaken fun _ later assigned => ?_
  exact ⟨destination, initial, name_of_nameAt found, assigned⟩

/-- Nothing is loaded through what is no pointer. -/
theorem Ir.Builder.load_of_pointee?_eq_none {builder : Builder}
    {pointer : Value}
    (missing : builder.module.types.pointee? pointer.type = none)
    (name : String) : load pointer name builder = (none, builder) := by
  have looks : types builder = (builder.module.types, builder) := rfl
  unfold load
  rw [stateM_bind_apply, looks]
  dsimp only
  rw [missing]
  rfl

theorem achieves_emitAssign (items : List Form) :
    Achieves scene (Tracing scene origin context [] fun _ => True)
      (emitAssign items) fun _ later => ∃ name value,
        items[1]?.bind localName? = some name ∧
        Assigned scene origin name value later := by
  unfold emitAssign
  refine .parse fun _ _ => .parse fun destination found => ?_
  refine .parse fun form _ => ?_
  refine .handled (looks_valueOf form)
    (@handles_valueOf scene (fun _ => True) form) (fun _ _ => trivial)
    fun value _ => ?_
  refine .bind (.lift (proceeds_ensureSlot destination
    fun state holds => holds.2.has)) fun slot => .any fun declared => ?_
  refine .look (fun _ => rfl) fun pointee => ?_
  refine .assume (fun _ both => both.1.2.1) fun slotted => ?_
  cases pointee with
  | none =>
      -- A slot is a pointer, or else nothing could be loaded from it.
      intro state both result run
      obtain ⟨_, checked, done, run⟩ := run_bind_eq_ok (Prod.ext run rfl)
      obtain ⟨-, rfl⟩ := expectType_eq_ok done
      obtain ⟨_, stored, stores, run⟩ := run_bind_eq_ok run
      obtain ⟨current, loaded, loads, run⟩ := run_bind_eq_ok run
      have step : (onBuilder (Builder.store value slot) scene.environment
          checked).2 = stored := congrArg Prod.snd stores
      have ends : stored.builder.module.types = checked.table := by
        rw [← step]
        exact Builder.types_store value slot checked.builder
      have missing := Builder.load_of_pointee?_eq_none
        ((congrArg (TypeTable.pointee? · slot.type) ends).trans both.2)
        destination
      have none : .ok current = (Except.ok (Builder.load slot destination
          stored.builder).1 : Except ProblemCause (Option Value)) :=
        (congrArg Prod.fst loads).symm
      rw [missing] at none
      cases none
      cases run
  | some expected =>
      have stores : Achieves scene (Tracing scene origin declared []
          fun state => value.Typed state.table ∧
            Builder.PointsTo expected state.builder slot)
          (do
            expectType s!"assign to `{destination}`" expected value.type
            Builder.store value slot
            let current ← orFail (.unresolved destination)
              (← Builder.load slot destination)
            modifyContext (·.bind destination current value.type))
          fun _ => Assigned scene origin destination value := by
        refine .handled (looks_expectType _ _ _)
          (@handles_expectType scene (fun _ => True) _ _ _)
          (fun _ _ => trivial) fun _ _ => ?_
        refine .assume (fun _ tracing => tracing.holds.2) fun same => ?_
        cases same
        refine .reloaded _ (fun state holds => holds.1.2) fun current => ?_
        refine (Achieves.lift (.renamed
          (emits_bind destination current value.type) fun state holds =>
            ⟨holds.2, holds.1.1.1.has⟩)).weaken fun _ state tracing => ?_
        exact tracing.assigned slotted fun holds => holds.1.1.2
      refine (stores.given fun state both => ?_).weaken fun _ later assigned =>
        ⟨destination, value, name_of_nameAt found, assigned⟩
      exact both.1.1.imp fun holds => ⟨holds.1.2, holds.2, both.2⟩

end Variables

/-! ## Results of instructions -/

/-- Where the last field is bound, it is given to its name in the end. -/
theorem define_of_bindPayload {scrutinee : Value}
    {bindings : List PayloadBinding} {binding : PayloadBinding}
    (run : (bindPayload scrutinee (bindings ++ [binding])).run environment
      state = (.ok (), later)) :
    ∃ value middle, (define binding.name value binding.type).run environment
      middle = (.ok (), later) := by
  have some : (!(bindings ++ [binding]).isEmpty) = true := by simp
  unfold bindPayload at run
  rw [if_pos some] at run
  obtain ⟨_, _, -, run⟩ := run_bind_eq_ok run
  obtain ⟨payload, _, -, run⟩ := run_bind_eq_ok run
  rw [List.forM_eq_forM, List.forM_append] at run
  obtain ⟨_, _, -, run⟩ := run_bind_eq_ok run
  rw [List.forM_cons, List.forM_nil, bind_pure_unit] at run
  obtain ⟨_, _, -, run⟩ := run_bind_eq_ok run
  obtain ⟨pointer, _, -, run⟩ := run_bind_eq_ok run
  obtain ⟨_, _, -, run⟩ := run_bind_eq_ok run
  obtain ⟨value, middle, -, run⟩ := run_bind_eq_ok run
  exact ⟨value, middle, run⟩

section Results

variable {scene : Scene} {origin : EmitState} {owed : List BlockId}

/-- Slots that are asked for are slots of mutable names. -/
def FunctionContext.Permits (context : FunctionContext)
    (uses : List NameUse) : Prop :=
  ∀ name, .slotted name ∈ uses → context.isMutable name = true

theorem EmitState.Uses.backed {uses : List NameUse}
    (used : state.Uses environment uses later)
    (backed : state.context.Backed) (permits : state.context.Permits uses) :
    later.context.Backed := by
  obtain ⟨_, fits, touches⟩ := used
  exact touches.backed (fun name member => permits name (fits.subset member))
    backed

end Results

/-! ## A variable at the start of a body -/

/-- The start of a body that has one mutable name. -/
def mutableWord : EmitState :=
  (modifyContext (fun context => { context with mutableNames := ["x"] })
    wordScene.environment (.opening wordModule 0)).2

theorem writing_mutableWord :
    Writing wordScene (.opening wordModule 0) [] (fun _ => True)
      mutableWord := by
  have opening : Writing wordScene (.opening wordModule 0) []
      (fun _ => True) (.opening wordModule 0) :=
    EmitState.writing_opening sound_wordModule
      (by decide +kernel : 0 < wordModule.functions.length)
      (by decide +kernel) block?_wordModule {} "f"
  have marks : Emits wordScene (fun _ => True)
      (modifyContext fun context => { context with mutableNames := ["x"] })
      fun _ _ => True :=
    emits_modifyContext (fun _ _ _ known =>
      ⟨known.values, known.types, known.slots⟩) fun _ => rfl
  exact (Proceeds.quiet marks (fun _ _ => trivial) _ opening).imp
    fun _ => trivial

/-- A function that starts a list of variadic arguments under the name of a
variable. -/
def startedVariable : Form :=
  Form.list [Form.symbol "module",
    Form.keywordCall "fn" [("name", Form.symbol "f"),
      ("ret", Form.symbol "i32"),
      ("params", Form.vector [Form.list [Form.symbol "param",
        Form.symbol "i32", Form.symbol "%n"]]),
      ("vararg", .atom .empty (.bool true)),
      ("body", Form.vector [
        Form.list [Form.symbol "as", Form.symbol "%ap",
          Form.list [Form.symbol "ptr",
            Form.list [Form.symbol "ptr", Form.symbol "i8"]],
          .atom .empty .nil],
        Form.list [Form.symbol "va-start", Form.symbol "%ap"],
        Form.list [Form.symbol "va-arg", Form.symbol "%x",
          Form.symbol "i32", Form.symbol "%ap"],
        Form.list [Form.symbol "ret", Form.symbol "i32",
          Form.symbol "%x"]])]]

end FormCompiler
