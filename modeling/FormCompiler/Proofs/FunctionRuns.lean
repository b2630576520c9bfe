import FormCompiler.Proofs.Bodies
import FormCompiler.Proofs.BodyRuns
import FormCompiler.Proofs.FunctionEffects
import FormCompiler.Proofs.ProblemPlaces

/-!
# Functions that run

The arguments of a function are its first definitions: the value of a parameter
is bound to its name, and a parameter that is a variable gets a slot in which
the argument is stored.  Then the body runs as the interpreter runs it, and
falls off its end where nothing returned.
-/

namespace FormCompiler

open Ir

section Functions

variable {isVariable : String → Bool} {arguments : List Quantity}
  {machine last : Machine} {scopes : Scopes} {environment : Environment}
  {state middle later : EmitState} {name : String} {type : TypeId}
  {irType : IrType} {value slot : Value} {quantity : Quantity}

/-! ## Names of parameters -/

namespace Ir.Builder

variable {builder : Builder}

/-- A parameter gets a name, and no code changes. -/
theorem Runs.renamed (runs : builder.Runs arguments machine) (index : Nat)
    (name : String) :
    let named := (onModule (Module.setParameterName builder.function index
      name) builder).2
    named.Runs arguments machine ∧ builder.Remains named := by
  -- What a name changes has nothing to do with the code.
  have kept (change : Function → Function)
      (same : ∀ function, (change function).blocks = function.blocks ∧
        (change function).registerCount = function.registerCount ∧
        (change function).type = function.type ∧
        (change function).parameters = function.parameters) :
      let named := (onModule (Module.modifyFunction builder.function change)
        builder).2
      named.Runs arguments machine ∧ builder.Remains named := by
    intro named
    have changed (id : FunctionId) : named.module.function id =
        if id = builder.function ∧
            builder.function < builder.module.functions.length then
          change (builder.module.function id)
        else builder.module.function id :=
      Module.function_modifyFunction ..
    have here : named.currentFunction.blocks =
          builder.currentFunction.blocks ∧
        named.currentFunction.registerCount =
          builder.currentFunction.registerCount ∧
        named.currentFunction.type = builder.currentFunction.type ∧
        named.currentFunction.parameters =
          builder.currentFunction.parameters := by
      show (named.module.function builder.function).blocks = _ ∧
        (named.module.function builder.function).registerCount = _ ∧
        (named.module.function builder.function).type = _ ∧
        (named.module.function builder.function).parameters = _
      rw [changed]
      split
      · exact same _
      · exact ⟨rfl, rfl, rfl, rfl⟩
    obtain ⟨blocks, count, type, parameters⟩ := here
    have block : named.module.block? ⟨builder.function, 0⟩ =
        builder.module.block? ⟨builder.function, 0⟩ :=
      congrArg (·[0]?) blocks
    refine ⟨⟨runs.closed, runs.cursor, runs.atEnd, runs.attached, ?_, ?_⟩,
      .refl _, rfl, type, parameters, fun id other => ?_⟩
    · rw [count]
      exact runs.unused
    · show ∃ block slots code opened,
        named.module.block? ⟨builder.function, 0⟩ = some block ∧ _
      rw [block, count]
      exact runs.block
    · rw [changed, if_neg fun same => other same.1]
  refine kept _ fun function => ?_
  split
  · dsimp only
    split <;> exact ⟨rfl, rfl, rfl, rfl⟩
  · exact ⟨rfl, rfl, rfl, rfl⟩

end Ir.Builder

variable (environment) in
theorem Tracks.renamed
    (tracks : Tracks isVariable arguments machine scopes state) (index : Nat)
    (name : String) :
    let named := (onBuilder (Builder.onModule (Module.setParameterName
      state.builder.function index name)) environment state).2
    Tracks isVariable arguments machine scopes named ∧
      state.builder.Remains named.builder := by
  obtain ⟨runs, remains⟩ := tracks.runs.renamed index name
  exact ⟨⟨⟨runs, tracks.mirrors, tracks.pending⟩, tracks.unbound⟩, remains⟩

/-! ## Values of parameters -/

/-- An argument is passed as the parameter at a position. -/
def Ir.Builder.Passes (builder : Builder) (arguments : List Quantity)
    (index : Nat) (type : TypeId) (quantity : Quantity) : Prop :=
  ∃ value, builder.currentFunction.parameters[index]? = some value ∧
    value.type = type ∧
    value.Denotes arguments {} builder.module.types quantity

/-- Arguments are passed as the parameters of a header from a position on. -/
inductive Ir.Builder.PassesFrom (builder : Builder)
    (arguments : List Quantity) :
    Nat → List (String × TypeId) → List Quantity → Prop
  | done {index : Nat} : PassesFrom builder arguments index [] []
  | next {index : Nat} {name : String} {type : TypeId} {quantity : Quantity}
      {parameters : List (String × TypeId)} {quantities : List Quantity} :
      builder.Passes arguments index type quantity →
      PassesFrom builder arguments (index + 1) parameters quantities →
      PassesFrom builder arguments index ((name, type) :: parameters)
        (quantity :: quantities)

theorem Ir.Machine.extends_empty (machine : Machine) :
    Machine.Extends {} machine := nofun

theorem Ir.Builder.PassesFrom.mono {builder after : Builder} {index : Nat}
    {parameters : List (String × TypeId)} {quantities : List Quantity}
    (passes : builder.PassesFrom arguments index parameters quantities)
    (closed : builder.Closed) (remains : builder.Remains after) :
    after.PassesFrom arguments index parameters quantities := by
  induction passes with
  | done => exact .done
  | next passed _ ih =>
      obtain ⟨value, found, typed, denotes⟩ := passed
      refine .next ⟨value, ?_, typed, denotes.mono closed remains.types
        (Machine.extends_empty _)⟩ ih
      rw [remains.parameters, found]

/-! ## Parameters -/

/-- A parameter that is never written is a constant. -/
theorem Tracks.bindConstant
    (tracks : Tracks isVariable arguments machine scopes state)
    (constant : isVariable name = false)
    (denotes : value.Denotes arguments machine state.table quantity) :
    Tracks isVariable arguments machine
      (scopes.define isVariable name quantity)
      { state with context := state.context.bind name value type } := by
  refine ⟨⟨tracks.runs, (tracks.mirrors.publish constant denotes type).rebind
    rfl rfl rfl rfl fun _ _ => rfl, tracks.pending⟩, ?_⟩
  intro other varying empty
  have different : other ≠ name := by
    rintro rfl
    rw [constant] at varying
    cases varying
  rw [← tracks.unbound other varying empty]
  exact (NameMap.find?_insert ..).trans (if_neg different)

variable (state) in
/-- A new slot starts with the value of the name. -/
theorem ensureSlot_seeded (unused : state.context.stack name = [])
    (bound : state.context.value? name = some value) :
    let made := Builder.entryAlloca value.type s!"{name}.slot" state.builder
    (ensureSlot name value.type true environment state).2 = { state with
      builder := (Builder.store value made.1 made.2).2
      context := state.context.pushSlot name made.1 value.type } := by
  have missing : state.context.slot? name = none := by
    rw [FunctionContext.slot?_eq, unused]
    rfl
  unfold ensureSlot
  rw [reader_bind_apply, context_apply]
  dsimp only
  rw [missing]
  dsimp only
  rw [reader_bind_apply, reader_bind_apply]
  generalize found : FunctionContext.value? _ name = current
  obtain rfl : some value = current := bound.symm.trans found
  have seeds : (true && value.type == value.type) = true := by simp
  dsimp only
  rw [seeds, if_pos rfl]
  rfl

/-- A parameter that is a variable is stored in a slot of its own. -/
theorem Tracks.bindVariable
    (tracks : Tracks isVariable arguments machine scopes state)
    (varying : isVariable name = true)
    (unused : state.context.stack name = [])
    (denotes : value.Denotes arguments machine state.table quantity) :
    Reaches isVariable arguments (scopes.define isVariable name quantity)
      state (ensureSlot name value.type true environment { state with
        context := state.context.bind name value value.type }).2 := by
  have bound (other : String) (different : other ≠ name) :
      (state.context.bind name value value.type).value? other =
        state.context.value? other :=
    (NameMap.find?_insert ..).trans (if_neg different)
  have mimics : Mimics isVariable arguments machine scopes { state with
      context := state.context.bind name value value.type } := by
    refine ⟨tracks.runs, tracks.mirrors.rebind rfl rfl rfl rfl ?_,
      tracks.pending⟩
    intro other constant
    refine bound other ?_
    rintro rfl
    rw [constant] at varying
    cases varying
  obtain ⟨slotted, pointee⟩ :=
    mimics.newSlot varying denotes.type s!"{name}.slot"
  have stored := slotted.store tracks.closed denotes pointee
  obtain ⟨last, register, reached, -⟩ := stored.reaches
  have same : scopes.define isVariable name quantity =
      scopes.declare name quantity := by
    have stacked := tracks.mirrors.stacked name
    rw [unused] at stacked
    unfold Scopes.define Scopes.assign
    rw [if_pos varying, stacked.writeVisible_of_nil]
  rw [same, ensureSlot_seeded { state with
    context := state.context.bind name value value.type } unused
    ((NameMap.find?_insert ..).trans (if_pos rfl))]
  refine ⟨⟨last, reached, tracks.unbound.written stored.backed
    stored.otherStacks fun other different => ?_⟩, stored.remains, rfl⟩
  exact bound other different

theorem bindParameter_apply (name : String) (value : Value) (type : TypeId)
    (environment : Environment) (state : EmitState) :
    let bound := { state with context := state.context.bind name value type }
    (bindParameter name value type environment state).2 =
      if state.context.isMutable name then
        (ensureSlot name type true environment bound).2
      else bound := by
  intro bound
  show ((if state.context.isMutable name then _ else _ : Emission Unit)
    environment bound).2 = _
  split <;> rfl

variable (environment) in
/-- A parameter is the first definition of its name. -/
theorem Tracks.bindParameter
    (tracks : Tracks isVariable arguments machine scopes state)
    (unused : state.context.stack name = [])
    (denotes : value.Denotes arguments machine state.table quantity) :
    let later := (bindParameter name value value.type environment state).2
    Reaches isVariable arguments (scopes.define isVariable name quantity)
        state later ∧
      ∀ other, other ≠ name →
        later.context.stack other = state.context.stack other := by
  intro later
  have applied : later = _ := bindParameter_apply ..
  rw [tracks.mirrors.mutable name] at applied
  cases varying : isVariable name with
  | false =>
      rw [varying, if_neg Bool.false_ne_true] at applied
      rw [applied]
      exact ⟨⟨⟨machine, tracks.bindConstant varying denotes⟩, .refl _, rfl⟩,
        fun _ _ => rfl⟩
  | true =>
      rw [varying, if_pos rfl] at applied
      rw [applied]
      refine ⟨tracks.bindVariable varying unused denotes, fun other apart => ?_⟩
      rw [ensureSlot_seeded { state with
        context := state.context.bind name value value.type } unused
        ((NameMap.find?_insert ..).trans (if_pos rfl))]
      exact (FunctionContext.stack_pushSlot ..).trans (if_neg apart)

variable (environment) in
/-- Parameters are bound as the interpreter defines them. -/
theorem Tracks.bindParameters {index : Nat}
    {parameters : List (String × TypeId)} {quantities : List Quantity}
    (tracks : Tracks isVariable arguments machine scopes state)
    (passes : state.builder.PassesFrom arguments index parameters quantities)
    (distinct : (parameters.map Prod.fst).Nodup)
    (unused : ∀ name ∈ parameters.map Prod.fst,
      state.context.stack name = []) (owner : String) :
    let bound := (FormCompiler.bindParameters state.builder.function owner
      index parameters).run environment state
    bound.1 = .ok () ∧
      Reaches isVariable arguments
        (((parameters.map Prod.fst).zip quantities).foldl
          (fun scopes argument =>
            scopes.define isVariable argument.1 argument.2) scopes)
        state bound.2 := by
  generalize inside : state.builder.function = function
  induction parameters generalizing machine scopes state index quantities with
  | nil => exact ⟨rfl, ⟨machine, tracks⟩, .refl _, rfl⟩
  | cons parameter parameters ih =>
      obtain ⟨name, type⟩ := parameter
      rw [List.map_cons, List.nodup_cons] at distinct
      rw [List.map_cons, List.forall_mem_cons] at unused
      obtain ⟨fresh, distinct⟩ := distinct
      obtain ⟨namedTracks, remains⟩ :=
        tracks.renamed environment index name
      have passes := passes.mono tracks.closed remains
      rw [bindParameters_cons]
      rw [inside] at namedTracks remains passes
      generalize named : (onBuilder (Builder.onModule
        (Module.setParameterName function index name)) environment
          state).2 = renamed at *
      have context : renamed.context = state.context := by
        rw [← named]
        rfl
      rw [← context] at unused
      have function_eq : renamed.builder.function = function := by
        rw [remains.function, inside]
      cases passes with
      | next passed rest =>
          obtain ⟨value, found, rfl, denotes⟩ := passed
          rw [Builder.currentFunction, function_eq] at found
          dsimp only
          rw [found]
          have denotes := denotes.mono namedTracks.closed (.refl _)
            (Machine.extends_empty machine)
          obtain ⟨reaches, others⟩ := namedTracks.bindParameter
            environment unused.1 denotes
          obtain ⟨⟨last, tracks⟩, further, depth⟩ := reaches
          have all := ih tracks (rest.mono namedTracks.closed further) distinct
            (fun other member => ?_) (further.function.trans function_eq)
          · exact ⟨all.1, (all.2.after further depth).after remains
              (congrArg FunctionContext.depth context)⟩
          · have apart : other ≠ name := by
              rintro rfl
              exact fresh member
            rw [others other apart, unused.2 other member]

/-! ## Entering and leaving a body -/

/-- A new block changes nothing but the blocks of its function. -/
theorem Ir.Module.function_appendBlock (module : Module)
    (function : FunctionId) (name : String) (id : FunctionId) :
    let later := ((appendBlock function name module).2.function id)
    later.type = (module.function id).type ∧
      later.parameters = (module.function id).parameters ∧
      (id ≠ function → later = module.function id) := by
  have changed : (appendBlock function name module).2.function id = _ :=
    function_modifyFunction module function _ id
  intro later
  rw [show later = _ from changed]
  split
  · next same => exact ⟨rfl, rfl, fun other => absurd same.1 other⟩
  · exact ⟨rfl, rfl, fun _ => rfl⟩

variable (arguments) in
/-- The first block of a function has no code yet. -/
theorem Ir.Builder.runs_entry {builder : Builder} (closed : builder.Closed)
    (known : builder.function < builder.module.functions.length)
    (empty : builder.currentFunction.blocks = [])
    (attached : builder.detached = 0) :
    let appended := appendBlock "entry" builder
    let entered := (positionAtEnd appended.1 appended.2).2
    entered.Runs arguments {} ∧ builder.Remains entered := by
  obtain ⟨block, found, noCode⟩ :=
    Module.block?_appendBlock_self known "entry"
  have changed := Module.function_appendBlock builder.module builder.function
    "entry"
  have isFirst : (Module.appendBlock builder.function "entry"
      builder.module).1 = ⟨builder.function, 0⟩ :=
    congrArg (BlockId.mk builder.function) (congrArg List.length empty)
  have types : (Module.appendBlock builder.function "entry"
      builder.module).2.types = builder.module.types := rfl
  have applied : appendBlock "entry" builder =
      ((Module.appendBlock builder.function "entry" builder.module).1,
        { builder with module := (Module.appendBlock builder.function "entry"
          builder.module).2 }) := rfl
  rw [applied]
  generalize Module.appendBlock builder.function "entry" builder.module =
    appended at *
  obtain ⟨id, later⟩ := appended
  dsimp only at isFirst types changed found ⊢
  subst isFirst
  have here := changed builder.function
  refine ⟨⟨?_, rfl, rfl, attached, fun _ _ => ⟨rfl, rfl⟩,
      block, [], [], {}, found, ⟨noCode, List.forall_mem_nil _,
      List.forall_mem_nil _, rfl, rfl⟩,
      fun _ _ => ⟨rfl, rfl⟩⟩, ?_, rfl, here.1, here.2.1,
      fun id other => (changed id).2.2 other⟩
  · show later.types.Closed
    rw [types]
    exact closed
  · show builder.module.types.Grows later.types
    rw [types]
    exact .refl _

/-- Nothing is known of any name before parameters are bound. -/
theorem Mirrors.ofMutableNames {table : TypeTable} {names : List String}
    (mutable : ∀ name, names.contains name = isVariable name) :
    Mirrors isVariable arguments {} table {} (.ofMutableNames names) := by
  refine ⟨mutable, fun _ => rfl, rfl, fun name => ?_, fun _ => nofun,
    fun _ => .nil, fun _ _ _ => nofun, fun _ _ => rfl, fun _ _ => .none,
    fun _ _ => rfl⟩
  exact ⟨[], [], rfl, nofun, .none, rfl⟩

/-- A function about to be emitted has a type and no code. -/
structure EmitState.Opens (state : EmitState) (names : List String) :
    Prop where
  closed : state.table.Closed
  known : state.builder.function < state.builder.module.functions.length
  empty : state.builder.currentFunction.blocks = []
  attached : state.builder.detached = 0
  pending : state.pendingPhis = []
  context : state.context = .ofMutableNames names

variable (arguments) in
theorem EmitState.Opens.tracks {names : List String}
    (opens : state.Opens names)
    (mutable : ∀ name, names.contains name = isVariable name) :
    let appended := Builder.appendBlock "entry" state.builder
    let entered := (Builder.positionAtEnd appended.1 appended.2).2
    Tracks isVariable arguments {} {} { state with builder := entered } ∧
      state.builder.Remains entered := by
  obtain ⟨runs, remains⟩ := Builder.runs_entry arguments
    opens.closed opens.known opens.empty opens.attached
  refine ⟨⟨⟨runs, ?_, opens.pending⟩, fun name _ _ => ?_⟩, remains⟩
  · rw [opens.context]
    exact .ofMutableNames mutable
  · rw [opens.context]
    rfl

/-- Returns where the body did not, and completes the phis. -/
def closeBody (name : String) : ExceptT EmitError Emission Unit := do
  if !(← isTerminated) then buildDefaultReturn (← returnType)
  finishBody name

theorem collects_closeBody (name : String) :
    Tries (EmitState.Collects AnyProblem) [] (closeBody name) := by
  have finishes : Tries (EmitState.Collects AnyProblem) []
      (finishBody name) := fun environment state =>
    (collects_finishBody name environment state).imp fun _ _ _ => trivial
  refine .step (.lift collects_isTerminated) fun terminated => ?_
  refine .ite ?_ finishes
  refine .step (.lift collects_returnType) fun type => ?_
  exact .step (.lift (collects_buildDefaultReturn type)) fun _ => finishes

/-- There is no phi to complete. -/
theorem run_finishBody (noPhis : state.pendingPhis = [])
    (attached : state.builder.detached = 0) (name : String)
    (environment : Environment) :
    (finishBody name).run environment state = (.ok (), state) := by
  have completed : completePhis environment state = ((), state) := by
    obtain ⟨builder, context, pendingPhis⟩ := state
    cases noPhis
    rfl
  unfold finishBody
  rw [@run_bind_of_ok _ _ _ _ _ _ _ () rfl]
  show (if 0 < (completePhis environment state).2.builder.detached then _
    else _ : ExceptT EmitError Emission Unit).run environment
      (completePhis environment state).2 = _
  rw [completed, if_neg (Nat.not_lt.mpr (Nat.le_of_eq attached))]
  rfl

/-- A body that goes on to its end returns there. -/
theorem run_closeBody_open (goesOn : state.builder.isTerminated = false)
    (name : String) (environment : Environment) :
    (closeBody name).run environment state =
      (finishBody name).run environment
        (buildDefaultReturn (returnType environment state).1 environment
          (returnType environment state).2).2 := by
  have looks : ((liftM isTerminated : ExceptT EmitError Emission Bool).run
      environment state) = (.ok false, state) :=
    Prod.ext (congrArg Except.ok goesOn) rfl
  unfold closeBody
  rw [run_bind_of_ok (congrArg Prod.fst looks), looks, if_pos (by decide),
    @run_bind_of_ok _ _ _ _ _ _ _ (returnType environment state).1 rfl,
    @run_bind_of_ok _ _ _ _ _ _ _ () rfl]
  rfl

/-- A body that has returned is left as it is. -/
theorem run_closeBody_ended (ended : state.builder.isTerminated = true)
    (name : String) (environment : Environment) :
    (closeBody name).run environment state =
      (finishBody name).run environment state := by
  have looks : ((liftM isTerminated : ExceptT EmitError Emission Bool).run
      environment state) = (.ok true, state) :=
    Prod.ext (congrArg Except.ok ended) rfl
  unfold closeBody
  rw [run_bind_of_ok (congrArg Prod.fst looks), looks, if_neg (by decide)]

/-- What a body comes to when its end is reached. -/
def Ir.Progress.ends (fallback : Option Quantity) :
    Progress Scopes → Option (Option Quantity)
  | .goesOn _ => some fallback
  | .returns value => some value
  | .stuck => none

theorem meaning_eq (parameters : List String) (fallback : Option Quantity)
    (body : List Statement) (arguments : List Quantity) :
    meaning parameters fallback body arguments =
      (Statement.runAll (FormCompiler.isVariable parameters body) fallback body
        (.ofArguments (FormCompiler.isVariable parameters body)
          (parameters.zip arguments))).ends fallback := by
  unfold meaning
  dsimp only
  cases Statement.runAll _ fallback body _ <;> rfl

/-- A body that does what the interpreter does returns what its function gives
back. -/
theorem Follows.closed {fallback : Option Quantity}
    {outcome : Progress Scopes}
    (follows : Follows isVariable arguments state later outcome)
    (gives : GivesBack state.builder fallback)
    (closed : state.table.Closed) (name : String)
    (environment : Environment) :
    let ended := (closeBody name).run environment later
    ended.1 = .ok () ∧ ∃ value, outcome.ends fallback = some value ∧
      ended.2.builder.Returns arguments value := by
  cases follows with
  | goesOn reaches =>
      obtain ⟨⟨machine, tracks⟩, remains, -⟩ := reaches
      obtain ⟨type, looks, has, rfl⟩ :=
        (gives.mono closed remains).returnType environment tracks.closed
      obtain ⟨returned, noPhis⟩ :=
        tracks.buildDefaultReturn environment has
      rw [run_closeBody_open tracks.runs.isTerminated, looks,
        run_finishBody noPhis returned.attached]
      exact ⟨rfl, _, rfl, returned⟩
  | returns returned noPhis =>
      rw [run_closeBody_ended returned.isTerminated,
        run_finishBody noPhis returned.attached]
      exact ⟨rfl, _, rfl, returned⟩

/-! ## Bodies of functions -/

theorem Ir.Builder.Returns.call? {builder : Builder} {value : Option Quantity}
    (returns : builder.Returns arguments value) :
    builder.currentFunction.call? arguments = some value := by
  obtain ⟨block, found, -, run⟩ := returns.block
  have isFirst : builder.currentFunction.blocks[0]? = some block := found
  unfold Function.call?
  cases blocks : builder.currentFunction.blocks with
  | nil =>
      rw [blocks] at isFirst
      cases isFirst
  | cons first rest =>
      rw [blocks] at isFirst
      cases isFirst
      dsimp only
      rw [run]

theorem collects_emitForm : emitForm.Collects :=
  fun {_ form} => collects_emitWithin form.height

variable (environment) in
/-- Arguments are bound, statements run, and the body is closed. -/
theorem Tracks.fillBody {header : FunctionHeader} {body : List Statement}
    {forms : List Form} {fallback : Option Quantity}
    {quantities : List Quantity}
    (tracks : Tracks isVariable arguments machine {} state)
    (unused : ∀ name ∈ header.parameters.map Prod.fst,
      state.context.stack name = [])
    (written : List.Forall₂ Statement.Written body forms)
    (distinct : (header.parameters.map Prod.fst).Nodup)
    (varying : ∀ name ∈ Statement.writtenAll body, isVariable name = true)
    (passes : state.builder.PassesFrom arguments 0 header.parameters
      quantities)
    (gives : GivesBack state.builder fallback) :
    let ran := (FormCompiler.fillBody state.builder.function header
      forms).run environment state
    ran.2.problems = state.problems →
      ran.1 = .ok () ∧ ∃ value,
        (Statement.runAll isVariable fallback body (.ofArguments isVariable
          ((header.parameters.map Prod.fst).zip quantities))).ends fallback =
            some value ∧
        ran.2.builder.Returns arguments value := by
  intro ran kept
  obtain ⟨done, ⟨last, bound⟩, remains, -⟩ := tracks.bindParameters
    environment passes distinct unused header.name
  have binds : Tries (EmitState.Collects AnyProblem) []
      (FormCompiler.bindParameters state.builder.function header.name 0
        header.parameters) :=
    collects_bindParameters _ _ _ _
  have toBound := (binds environment state).isPrefix
  have ran_eq : ran = (closeBody header.name).run environment
      (emitSequence emitForm forms environment
        ((FormCompiler.bindParameters state.builder.function header.name 0
          header.parameters).run environment state).2).2 :=
    run_bind_of_ok done
  generalize ((FormCompiler.bindParameters state.builder.function header.name
    0 header.parameters).run environment state).2 = begun at *
  have toEnd := (collects_emitSequence (collects_all collects_emitForm
    written) environment begun).isPrefix
  have toClosed := (collects_closeBody header.name environment
    (emitSequence emitForm forms environment begun).2).isPrefix
  rw [← ran_eq, kept] at toClosed
  -- No step on the way reports a problem, as there is none in the end.
  have noneBound := problems_between toBound (toEnd.trans toClosed)
  have noneEnded := problems_between toEnd (noneBound ▸ toClosed)
  have givesOn := gives.mono tracks.closed remains
  have follows := FormEmitter.Interprets.sequence
    (interprets_emitForm fallback) collects_emitForm written bound givesOn
    varying noneEnded
  rw [ran_eq]
  exact follows.closed givesOn bound.closed header.name environment

variable (environment) in
/-- A function whose body is emitted without a problem gives back what the
interpreter gives. -/
theorem EmitState.Opens.call? {header : FunctionHeader}
    {body : List Statement} {forms : List Form} {fallback : Option Quantity}
    (opens : state.Opens (mutableNames (header.parameters.map Prod.fst) forms))
    (written : List.Forall₂ Statement.Written body forms)
    (distinct : (header.parameters.map Prod.fst).Nodup)
    (passes : state.builder.PassesFrom arguments 0 header.parameters arguments)
    (gives : GivesBack state.builder fallback) :
    let ran := (emitCode state.builder.function header forms).run environment
      state
    ran.2.problems = state.problems →
      ran.1 = .ok () ∧ ∃ value,
        meaning (header.parameters.map Prod.fst) fallback body arguments =
          some value ∧
        (ran.2.builder.module.function state.builder.function).call?
          arguments = some value := by
  intro ran kept
  let isVariable := FormCompiler.isVariable
    (header.parameters.map Prod.fst) body
  have varying : ∀ name ∈ Statement.writtenAll body,
      isVariable name = true := fun name member => by
    simp [isVariable, FormCompiler.isVariable, member]
  have unused : ∀ name ∈ header.parameters.map Prod.fst,
      state.context.stack name = [] := fun name _ => by
    rw [opens.context]
    rfl
  obtain ⟨tracks, remains⟩ := opens.tracks arguments
    (show ∀ name, _ = isVariable name from contains_mutableNames written _)
  have stays : ran.2.builder.function = state.builder.function :=
    (keeps_emitCode state.builder.function header forms environment
      state).follows.function
  obtain ⟨done, value, means, returns⟩ := tracks.fillBody
    environment unused written distinct varying
    (passes.mono opens.closed remains) (gives.mono opens.closed remains) kept
  have here := returns.call?
  refine ⟨done, value, (meaning_eq ..).trans means, ?_⟩
  rw [← stays]
  exact here

end Functions

end FormCompiler
