import FormCompiler.Proofs.OperandRuns

/-!
# Emitting writes to variables that run

A variable is written by finding or making its slot and storing in it.  A slot
that is made first holds something undefined, and the interpreter may have
written that before too: what is stored next hides it.
-/

namespace FormCompiler

open Ir

/-! ## Writing twice -/

theorem NameMap.insert_insert {Value : Type} (map : NameMap Value)
    (name : String) (first second : Value) :
    (map.insert name first).insert name second = map.insert name second := by
  have erased : (map.insert name first).erase name = map.erase name := by
    unfold insert erase
    rw [List.filter_cons_of_neg (by simp), List.filter_filter]
    simp
  unfold insert
  rw [show (⟨(name, first) :: (map.erase name).entries⟩ : NameMap Value) =
    map.insert name first from rfl, erased]

/-- What is declared and then assigned is declared as that. -/
theorem Scopes.assign_declare {scopes : Scopes}
    (someFrame : scopes.frames ≠ []) (name : String)
    (first second : Quantity) :
    (scopes.declare name first).assign name second =
      scopes.declare name second := by
  obtain ⟨constants, frames⟩ := scopes
  cases frames with
  | nil => exact absurd rfl someFrame
  | cons scope outer =>
      have visible : (scope.insert name first).find? name = some first := by
        rw [NameMap.find?_insert, if_pos rfl]
      unfold declare assign
      dsimp only
      rw [writeVisible, visible, if_pos (by rfl), NameMap.insert_insert]

/-- The innermost scope has a variable that it owns a slot of. -/
theorem Stacked.find?_of_own {holds : ScopedSlot → Quantity → Prop}
    {name : String} {scope : NameMap Quantity}
    {outer : List (NameMap Quantity)} {entry : ScopedSlot}
    {rest : List ScopedSlot}
    (stacked : Stacked holds name (scope :: outer) (entry :: rest))
    (own : entry.depth = outer.length) :
    ∃ quantity, scope.find? name = some quantity := by
  obtain ⟨inner, others, split, -, shown, stacked⟩ := stacked
  cases inner with
  | nil =>
      cases split
      have outside := stacked.depth_lt entry List.mem_cons_self
      omega
  | cons first inner =>
      cases split
      generalize scope.find? name = found at shown ⊢
      cases shown with
      | some held => exact ⟨_, rfl⟩

section Steps

variable {isVariable : String → Bool} {arguments : List Quantity}
  {machine last : Machine} {scopes : Scopes} {environment : Environment}
  {state middle later : EmitState} {name : String} {type : TypeId}
  {irType : IrType} {value slot : Value} {quantity : Quantity}
  {entry : ScopedSlot} {rest : List ScopedSlot}

theorem Mirrors.frames_ne_nil {table : TypeTable}
    {context : FunctionContext}
    (mirrors : Mirrors isVariable arguments machine table scopes context) :
    scopes.frames ≠ [] := by
  intro empty
  have depth := mirrors.depth
  rw [empty] at depth
  cases depth

/-! ## Slots -/

/-- A slot was found or made for a variable.  It is the innermost one, and to
assign the variable is the update that is to be made. -/
structure Slotted (isVariable : String → Bool) (arguments : List Quantity)
    (name : String) (update : Quantity → Scopes) (machine : Machine)
    (state : EmitState) (slot : Value) (later : EmitState) : Prop where
  reaches : ∃ last scopes,
    Mimics isVariable arguments last scopes later ∧
    machine.Extends last ∧
    ∀ quantity, scopes.assign name quantity = update quantity
  innermost : ∃ entry rest, later.context.stack name = entry :: rest ∧
    entry.slot = slot
  remains : state.builder.Remains later.builder
  otherStacks : ∀ other, other ≠ name →
    later.context.stack other = state.context.stack other
  values : later.context.values = state.context.values
  depth : later.context.depth = state.context.depth

/-- A new slot hides the slots of outer scopes. -/
theorem Mimics.pushSlot
    (mimics : Mimics isVariable arguments machine scopes state)
    (varying : isVariable name = true)
    (represents : Represents state.table type irType) (slotName : String) :
    let made := Builder.entryAlloca type slotName state.builder
    ∃ last, Mimics isVariable arguments last (scopes.declare name .undefined)
        { state with
          builder := made.2
          context := state.context.pushSlot name made.1 type } ∧
      machine.Extends last ∧ state.builder.Remains made.2 ∧
      made.2.module.types.pointee? made.1.type = some type := by
  have unused := mimics.runs.next_unused.2
  obtain ⟨runs, points, remains⟩ :=
    mimics.runs.entryAlloca represents slotName
  have mirrors : Mirrors isVariable arguments
      (machine.put state.builder.nextRegister ⟨irType, .undefined⟩)
      (Builder.entryAlloca type slotName state.builder).2.module.types scopes
      state.context := by
    refine mimics.mirrors.mono mimics.closed remains.types
      (fun _ _ known => known) ?_
    intro register there
    unfold Machine.put
    dsimp only
    rw [Function.update_of_ne]
    rintro rfl
    rw [unused] at there
    cases there
  have pushed := mirrors.push varying points (by
    intro other entry member same
    obtain ⟨register, operand, there⟩ := mimics.mirrors.live other entry member
    rw [points.operand_eq, operand] at same
    cases same
    rw [unused] at there
    cases there)
  exact ⟨_, ⟨runs, pushed, mimics.pending⟩, fun _ _ known => known, remains,
    points.pointee⟩

theorem Mimics.newSlot
    (mimics : Mimics isVariable arguments machine scopes state)
    (varying : isVariable name = true)
    (represents : Represents state.table type irType) (slotName : String) :
    let made := Builder.entryAlloca type slotName state.builder
    Slotted isVariable arguments name (scopes.declare name) machine state
        made.1 { state with
          builder := made.2
          context := state.context.pushSlot name made.1 type } ∧
      made.2.module.types.pointee? made.1.type = some type := by
  obtain ⟨last, pushed, extends_, remains, pointee⟩ :=
    mimics.pushSlot varying represents slotName
  have innermost := (FunctionContext.stack_pushSlot state.context name name
    (Builder.entryAlloca type slotName state.builder).1 type).trans
      (if_pos rfl)
  refine ⟨⟨⟨last, _, pushed, extends_, ?_⟩, ⟨_, _, innermost, rfl⟩, remains,
    ?_, rfl, rfl⟩, pointee⟩
  · exact Scopes.assign_declare mimics.mirrors.frames_ne_nil name _
  · exact fun other different =>
      (FunctionContext.stack_pushSlot ..).trans (if_neg different)

/-- The slot that a name has already. -/
theorem Mimics.oldSlot
    (mimics : Mimics isVariable arguments machine scopes state)
    (innermost : state.context.stack name = entry :: rest)
    {update : Quantity → Scopes}
    (updates : ∀ quantity, scopes.assign name quantity = update quantity) :
    Slotted isVariable arguments name update machine state entry.slot state :=
  ⟨⟨machine, scopes, mimics, Machine.Extends.refl machine, updates⟩,
    ⟨entry, rest, innermost, rfl⟩, .refl _, fun _ _ => rfl, rfl, rfl⟩

theorem Mimics.ensureSlot
    (mimics : Mimics isVariable arguments machine scopes state)
    (varying : isVariable name = true)
    (represents : Represents state.table type irType)
    (run : ensureSlot name type false environment state = (slot, later)) :
    Slotted isVariable arguments name (scopes.assign name) machine state slot
      later := by
  unfold FormCompiler.ensureSlot at run
  rw [reader_bind_apply, context_apply] at run
  dsimp only at run
  cases stack : state.context.stack name with
  | nil =>
      have missing : state.context.slot? name = none := by
        rw [FunctionContext.slot?_eq, stack]
        rfl
      have made := (mimics.newSlot varying represents s!"{name}.slot").1
      have same (quantity : Quantity) :
          scopes.assign name quantity = scopes.declare name quantity := by
        have stacked := mimics.mirrors.stacked name
        rw [stack] at stacked
        unfold Scopes.assign
        rw [stacked.writeVisible_of_nil]
      rw [show scopes.assign name = scopes.declare name from funext same]
      rw [missing] at run
      dsimp only at run
      rw [reader_bind_apply, reader_bind_apply] at run
      generalize FunctionContext.value? _ name = current at run
      cases current <;> cases run <;> exact made
  | cons entry rest =>
      have found : state.context.slot? name = some entry.slot := by
        rw [FunctionContext.slot?_eq, stack]
        rfl
      rw [found] at run
      cases run
      exact mimics.oldSlot stack fun _ => rfl

theorem FunctionContext.ownSlot?_eq_some {context : FunctionContext}
    (found : context.ownSlot? name = some slot) :
    ∃ entry rest, context.stack name = entry :: rest ∧
      entry.depth = context.depth ∧ entry.slot = slot := by
  obtain ⟨entry, own, rfl⟩ := Option.map_eq_some_iff.mp found
  obtain ⟨innermost, depth⟩ := Option.filter_eq_some_iff.mp own
  obtain ⟨stack, known, head⟩ := Option.bind_eq_some_iff.mp innermost
  obtain ⟨rest, rfl⟩ := List.head?_eq_some_iff.mp head
  refine ⟨entry, rest, ?_, eq_of_beq depth, rfl⟩
  rw [FunctionContext.stack, known]
  rfl

/-- The innermost scope has a slot of the type already, or one is made. -/
theorem declareSlot_cases
    (run : declareSlot name type environment state = (slot, later)) :
    (later = state ∧ ∃ entry rest, state.context.stack name = entry :: rest ∧
      entry.depth = state.context.depth ∧ entry.slot = slot ∧
      state.table.pointee? slot.type = some type) ∨
    ∃ made, made = Builder.entryAlloca type s!"{name}.slot" state.builder ∧
      slot = made.1 ∧ later = { state with
        builder := made.2
        context := state.context.pushSlot name made.1 type } := by
  unfold declareSlot at run
  rw [reader_bind_apply, types_apply, reader_bind_apply,
    context_apply] at run
  dsimp only at run
  generalize own : Option.filter _ _ = found at run
  cases found with
  | none =>
      cases run
      exact .inr ⟨_, rfl, rfl, rfl⟩
  | some found =>
      cases run
      obtain ⟨isOwn, pointee⟩ := Option.filter_eq_some_iff.mp own
      obtain ⟨entry, rest, innermost, depth, same⟩ :=
        FunctionContext.ownSlot?_eq_some isOwn
      exact .inl ⟨rfl, entry, rest, innermost, depth, same,
        eq_of_beq pointee⟩

theorem Mimics.declareSlot
    (mimics : Mimics isVariable arguments machine scopes state)
    (varying : isVariable name = true)
    (represents : Represents state.table type irType)
    (run : declareSlot name type environment state = (slot, later)) :
    Slotted isVariable arguments name (scopes.declare name) machine state slot
        later ∧
      later.table.pointee? slot.type = some type := by
  rcases declareSlot_cases run with
    ⟨rfl, entry, rest, innermost, depth, rfl, pointee⟩ | ⟨_, rfl, rfl, rfl⟩
  · refine ⟨mimics.oldSlot innermost fun quantity => ?_, pointee⟩
    have stacked := mimics.mirrors.stacked name
    have frames := mimics.mirrors.depth
    rw [innermost] at stacked
    obtain ⟨constants, _ | ⟨scope, outer⟩⟩ := scopes
    · cases frames
    · have length : entry.depth = outer.length := by
        rw [depth]
        simpa using frames.symm
      obtain ⟨held, found⟩ := stacked.find?_of_own length
      unfold Scopes.assign Scopes.declare
      rw [writeVisible, found, if_pos (by rfl)]
  · exact mimics.newSlot varying represents _

/-! ## Stores -/

/-- A value was stored in the slot of a variable. -/
structure Stored (isVariable : String → Bool) (arguments : List Quantity)
    (name : String) (scopes : Scopes) (state : EmitState) (slot : Value)
    (type : TypeId) (quantity : Quantity) (later : EmitState) : Prop where
  reaches : ∃ last register,
    Mimics isVariable arguments last scopes later ∧
    slot.PointsTo last later.table register type quantity
  backed : later.context.stack name ≠ []
  remains : state.builder.Remains later.builder
  otherStacks : ∀ other, other ≠ name →
    later.context.stack other = state.context.stack other
  values : later.context.values = state.context.values
  depth : later.context.depth = state.context.depth

/-- The innermost slot of a variable holds something of its type. -/
theorem Mirrors.innermost_holds {table : TypeTable}
    {context : FunctionContext}
    (mirrors : Mirrors isVariable arguments machine table scopes context)
    (innermost : context.stack name = entry :: rest) :
    ∃ quantity, entry.Holds machine table quantity := by
  have head := (mirrors.stacked name).head
  rw [innermost] at head
  generalize scopes.frames.findSome? _ = visible at head
  cases head with
  | some holds => exact ⟨_, holds⟩

theorem Slotted.pointee {update : Quantity → Scopes}
    (slotted : Slotted isVariable arguments name update machine state slot
      middle) :
    ∃ pointee, middle.table.pointee? slot.type = some pointee := by
  obtain ⟨last, scopes, mimics, -, -⟩ := slotted.reaches
  obtain ⟨entry, rest, innermost, rfl⟩ := slotted.innermost
  obtain ⟨_, register, points⟩ := mimics.mirrors.innermost_holds innermost
  exact ⟨_, points.pointee⟩

theorem Slotted.store {update : Quantity → Scopes}
    (slotted : Slotted isVariable arguments name update machine state slot
      middle) (closed : state.table.Closed)
    (denotes : value.Denotes arguments machine state.table quantity)
    (pointee : middle.table.pointee? slot.type = some value.type) :
    Stored isVariable arguments name (update quantity) state slot value.type
      quantity { middle with
        builder := (Builder.store value slot middle.builder).2 } := by
  obtain ⟨last, scopes, mimics, extends_, updates⟩ := slotted.reaches
  obtain ⟨entry, rest, innermost, rfl⟩ := slotted.innermost
  obtain ⟨_, register, points⟩ := mimics.mirrors.innermost_holds innermost
  have typed : entry.type = value.type :=
    Option.some.inj (points.pointee.symm.trans pointee)
  have denotes := denotes.mono closed slotted.remains.types extends_
  have represents := denotes.type
  rw [← typed] at represents
  have written : Mirrors isVariable arguments (last.put register
      ⟨value.operand.type, quantity⟩) middle.table
      (scopes.assign name quantity) middle.context :=
    mimics.mirrors.write innermost points represents
  rw [typed] at points
  obtain ⟨runs, types, remains⟩ := mimics.runs.store points denotes
  have table : ({ middle with
      builder := (Builder.store value entry.slot middle.builder).2 } :
      EmitState).table = middle.table := types
  rw [updates, ← table] at written
  have represents : Represents middle.table value.type
      value.operand.type := denotes.type
  rw [← table] at pointee represents
  refine ⟨⟨_, register, ⟨runs, written, mimics.pending⟩, points.content,
    pointee, _, represents, Function.update_self ..⟩, ?_,
    slotted.remains.trans remains, slotted.otherStacks, slotted.values,
    slotted.depth⟩
  dsimp only
  rw [innermost]
  exact List.cons_ne_nil entry rest

/-- Only the variable that was written changes hands. -/
theorem FunctionContext.Unbound.written {context after : FunctionContext}
    (unbound : context.Unbound isVariable) (backed : after.stack name ≠ [])
    (otherStacks : ∀ other, other ≠ name →
      after.stack other = context.stack other)
    (values : ∀ other, other ≠ name →
      after.value? other = context.value? other) :
    after.Unbound isVariable := by
  intro other varying empty
  have different : other ≠ name := by
    rintro rfl
    exact backed empty
  rw [otherStacks other different] at empty
  rw [values other different]
  exact unbound other varying empty

/-! ## Definitions -/

/-- The emission came to a state that mirrors the scopes. -/
structure Reaches (isVariable : String → Bool) (arguments : List Quantity)
    (scopes : Scopes) (state later : EmitState) : Prop where
  tracks : ∃ machine, Tracks isVariable arguments machine scopes later
  remains : state.builder.Remains later.builder
  depth : later.context.depth = state.context.depth

theorem Reaches.after
    (reaches : Reaches isVariable arguments scopes middle later)
    (remains : state.builder.Remains middle.builder)
    (depth : middle.context.depth = state.context.depth) :
    Reaches isVariable arguments scopes state later :=
  ⟨reaches.tracks, remains.trans reaches.remains, reaches.depth.trans depth⟩

/-- A name is given a value as the interpreter gives it one. -/
theorem Tracks.define
    (tracks : Tracks isVariable arguments machine scopes state)
    (denotes : value.Denotes arguments machine state.table quantity)
    (typed : value.type = type)
    (run : (define name value type).run environment state = (.ok (), later)) :
    Reaches isVariable arguments (scopes.define isVariable name quantity)
      state later := by
  subst typed
  have mutable :
      (state.context.publish name value value.type).isMutable name =
        isVariable name := tracks.mirrors.mutable name
  have bound (other : String) (different : other ≠ name) :
      (state.context.publish name value value.type).value? other =
        state.context.value? other :=
    (NameMap.find?_insert ..).trans (if_neg different)
  unfold FormCompiler.define at run
  rw [run_lift_bind, show modifyContext (·.publish name value value.type)
    environment state = ((), { state with
      context := state.context.publish name value value.type }) from rfl,
    run_lift_bind, context_apply] at run
  dsimp only at run
  rw [mutable] at run
  cases varying : isVariable name with
  | false =>
      rw [varying, if_neg Bool.false_ne_true] at run
      cases run
      refine ⟨⟨machine, ⟨tracks.runs, tracks.mirrors.publish varying denotes _,
        tracks.pending⟩, ?_⟩, .refl _, rfl⟩
      intro other otherVaries empty
      have different : other ≠ name := by
        rintro rfl
        rw [varying] at otherVaries
        cases otherVaries
      rw [← tracks.unbound other otherVaries empty]
      exact bound other different
  | true =>
      rw [varying, if_pos rfl, run_lift_bind] at run
      have published : Mimics isVariable arguments machine scopes
          { state with
            context := state.context.publish name value value.type } := by
        refine ⟨tracks.runs, tracks.mirrors.rebind rfl rfl rfl rfl ?_,
          tracks.pending⟩
        intro other constant
        refine bound other ?_
        rintro rfl
        rw [varying] at constant
        cases constant
      generalize ran : FormCompiler.ensureSlot name value.type false
        environment _ = outcome at run
      obtain ⟨slot, middle⟩ := outcome
      have slotted := published.ensureSlot varying denotes.type ran
      dsimp only at run
      rw [run_lift_bind, show pointeeOf? slot environment middle =
        (middle.table.pointee? slot.type, middle) from rfl] at run
      dsimp only at run
      cases pointee : middle.table.pointee? slot.type with
      | none =>
          rw [pointee] at run
          cases run
      | some expected =>
          rw [pointee] at run
          dsimp only at run
          obtain ⟨_, checked, done, stores⟩ := run_bind_eq_ok run
          obtain ⟨rfl, rfl⟩ := expectType_eq_ok done
          have stored := slotted.store tracks.closed denotes pointee
          cases stores
          obtain ⟨last, register, mimics, -⟩ := stored.reaches
          unfold Scopes.define
          rw [if_pos varying]
          refine ⟨⟨last, mimics, tracks.unbound.written stored.backed
            stored.otherStacks fun other different => ?_⟩, stored.remains,
            stored.depth⟩
          rw [← bound other different]
          exact congrArg (NameMap.find? · other) stored.values

/-- A variable that was written is read back, and its name is bound to what
was read. -/
theorem Stored.rebound
    (stored : Stored isVariable arguments name scopes state slot type quantity
      middle) (varying : isVariable name = true)
    (unbound : state.context.Unbound isVariable) (label : String)
    (typed : TypeId) :
    ∃ loaded, (Builder.load slot label middle.builder).1 = some loaded ∧
      Reaches isVariable arguments scopes state { middle with
        builder := (Builder.load slot label middle.builder).2
        context := middle.context.bind name loaded typed } := by
  obtain ⟨last, register, mimics, points⟩ := stored.reaches
  obtain ⟨loaded, loads, computed⟩ := mimics.runs.load points label
  obtain ⟨final, mimics, -, -⟩ := mimics.computed computed
  have bound (other : String) (different : other ≠ name) :
      (middle.context.bind name loaded typed).value? other =
        middle.context.value? other :=
    (NameMap.find?_insert ..).trans (if_neg different)
  refine ⟨loaded, loads, ⟨final, ⟨mimics.runs, mimics.mirrors.rebind rfl rfl
    rfl rfl ?_, mimics.pending⟩, ?_⟩, stored.remains.trans computed.remains,
    stored.depth⟩
  · intro other constant
    refine bound other ?_
    rintro rfl
    rw [varying] at constant
    cases constant
  · refine unbound.written stored.backed stored.otherStacks ?_
    intro other different
    rw [bound other different]
    exact congrArg (NameMap.find? · other) stored.values

end Steps

end FormCompiler
