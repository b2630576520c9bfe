import FormCompiler.Proofs.GlobalConstants
import FormCompiler.Proofs.Personalities
import FormCompiler.Proofs.SlotOrder

/-!
# Emitted modules as traces

Whatever is emitted is a trace that starts from a module with declarations but
no code.  The globals of that module are those that the form declares, and it
shares no literals yet.
-/

namespace FormCompiler

open Ir

/-! ## Bodies -/

/-- Naming the personality of a function is a trace. -/
theorem Draft.trace_marked (personality : Personality) (function : FunctionId)
    (draft : Draft) :
    Trace draft []
      { draft with module := draft.module.marked personality function } := by
  let word := Module.withTypes (TypeTable.int 32) draft.module
  let typed := Module.withTypes (TypeTable.function word.1 [] true) word.2
  let added := Module.addFunction personality.routine typed.1 .external typed.2
  have types : Step draft [] ⟨typed.2, draft.literals⟩ := .furnish rfl rfl
  have declares : Trace ⟨typed.2, draft.literals⟩ []
      ⟨added.2, draft.literals⟩ :=
    trace_addFunction ⟨typed.2, draft.literals⟩ _ _ _
  have names (middle : Draft) : Step middle []
      (middle.turned (Module.setPersonality function added.1)) :=
    .label function fun _ => rfl
  have marks (middle : Draft) : Step middle []
      (middle.turned (Module.addAttributes function [.unwindTable])) :=
    .label function fun _ => rfl
  exact (Trace.single types).trans
    (declares.trans ((Trace.single (names _)).trans (.single (marks _))))

namespace EmitState

variable {environment : Environment} {state : EmitState}

theorem trace_marked (environment : Environment) (function : FunctionId)
    (state : EmitState) :
    Draft.Trace state.draft [] (state.marked environment function).draft := by
  unfold marked
  split
  · exact Draft.trace_marked _ function state.draft
  · exact .done

theorem known_marked (environment : Environment) (function : FunctionId)
    (known : state.builder.function < state.builder.module.functions.length) :
    (state.marked environment function).builder.function <
      (state.marked environment function).builder.module.functions.length := by
  rcases marked_cases environment function state with
    ⟨-, same⟩ | ⟨later, -, marks, same⟩
  · rw [same]
    exact known
  · rw [same]
    exact known.trans_le (by simpa using marks.continues.names.length_le)

/-- Emitting a body into a function that is there is a trace. -/
theorem trace_emitBody
    (known : state.builder.function < state.builder.module.functions.length)
    (function : FunctionId) (header : FunctionHeader) (body : List Form) :
    ∃ events, Draft.Trace state.draft events
      ((emitBody function header body).run environment state).2.draft := by
  rw [run_emitBody]
  have fills : Tries (Keeps []) _ (fillBody function header body) :=
    keeps_fillBody function header body
  obtain ⟨events, trace, -⟩ := wanders_inEntry
    (known_marked environment function known) (fills environment _).evolves
  exact ⟨_, (trace_marked environment function state).trans trace⟩

end EmitState

/-! ## Functions of a module -/

namespace ModuleState

variable {configuration : Configuration} {state later : ModuleState}
  {forms : List Form}

/-- The module with its literals. -/
def draft (state : ModuleState) : Draft := ⟨state.module, state.literals⟩

/-- What happens is a trace. -/
def Traces (state later : ModuleState) : Prop :=
  ∃ events, Draft.Trace state.draft events later.draft

instance : Std.Refl Traces := ⟨fun _ => ⟨[], .done⟩⟩

instance : Trans Traces Traces Traces := ⟨by
  rintro state middle later ⟨events, trace⟩ ⟨more, moreTrace⟩
  exact ⟨events ++ more, trace.trans moreTrace⟩⟩

theorem traces_emitFunction (configuration : Configuration)
    (header : FunctionHeader) (body : List Form) (state : ModuleState) :
    state.Traces ((emitFunction configuration header body).run state).2 := by
  rw [run_emitFunction]
  cases found : state.module.function? header.name with
  | none => exact Std.Refl.refl state
  | some function =>
      exact (state.entering function header body).trace_emitBody
        (Module.lt_of_function? found) function header body

theorem traces_emitFunctions (configuration : Configuration)
    (headers : List FunctionHeader) (state : ModuleState) :
    state.Traces ((emitFunctions configuration headers).run state).2 := by
  induction headers generalizing state with
  | nil => exact Std.Refl.refl state
  | cons header headers ih =>
      unfold emitFunctions
      cases header.body with
      | none => exact ih state
      | some body =>
          have first := traces_emitFunction configuration header body state
          dsimp only
          rw [run_handler_bind]
          generalize (emitFunction configuration header body).run state =
            outcome at first ⊢
          obtain ⟨result, middle⟩ := outcome
          cases result with
          | error error => exact first
          | ok _ => exact Trans.trans first (ih middle)

/-! ## Declarations -/

/-- A module with declarations only, and with no globals but those that
certain forms declare. -/
structure Bare (forms : List Form) (state : ModuleState) : Prop extends
    state.Whole where
  literals : state.literals = {}
  functions : ∀ function ∈ state.module.functions, function.blocks = []
  globals : ∀ global ∈ state.module.globals, ∃ form ∈ forms,
    form.head? = some "global" ∧
      global.DeclaredBy state.module.types form

/-- No global, no literal and no block is added. -/
structure Spares (state later : ModuleState) : Prop where
  literals : later.literals = state.literals
  functions : ∀ function ∈ later.module.functions,
    function ∈ state.module.functions ∨ function.blocks = []
  globals : later.module.globals = state.module.globals

instance : Std.Refl Spares := ⟨fun _ => ⟨rfl, fun _ => .inl, rfl⟩⟩

instance : Trans Spares Spares Spares :=
  ⟨fun first second => ⟨second.literals.trans first.literals,
    fun function member =>
      (second.functions function member).elim (first.functions function) .inr,
    second.globals.trans first.globals⟩⟩

theorem spares_modify {change : ModuleState → ModuleState}
    (literals : ∀ state, (change state).literals = state.literals)
    (functions : ∀ state,
      (change state).module.functions = state.module.functions)
    (globals : ∀ state, (change state).module.globals = state.module.globals) :
    Relates Spares (modify change) :=
  fun state => ⟨literals state,
    fun _ member => .inl (functions state ▸ member), globals state⟩

theorem spares_onModule {Result : Type} {operation : StateM Module Result}
    (functions : ∀ module, ∀ function ∈ (operation module).2.functions,
      function ∈ module.functions ∨ function.blocks = [])
    (globals : ∀ module, (operation module).2.globals = module.globals) :
    Relates Spares (onModule operation) :=
  fun state => ⟨rfl, functions state.module, globals state.module⟩

theorem spares_bind {Result Other : Type} {operation : StateM Module Result}
    {next : Result → StateM Module Other}
    (first : Relates Spares (onModule operation))
    (rest : ∀ result, Relates Spares (onModule (next result))) :
    Relates Spares (onModule (operation >>= next)) :=
  Relates.bind first rest

theorem spares_withTypes {Result : Type}
    (operation : StateM TypeTable Result) :
    Relates Spares (onModule (Module.withTypes operation)) :=
  spares_onModule (fun _ _ => .inl) fun _ => rfl

theorem spares_addProblem (operation : String) (span : Option Span)
    (cause : ProblemCause) :
    Relates Spares (modify (·.addProblem operation span cause)) :=
  spares_modify (fun _ => rfl) (fun _ => rfl) fun _ => rfl

theorem spares_addFunction (name : String) (type : TypeId)
    (linkage : Linkage) :
    Relates Spares (onModule (Module.addFunction name type linkage)) := by
  refine spares_onModule (fun module function member => ?_)
    fun module => Module.globals_addFunction _ _ _ module
  cases found : module.function? name with
  | some id =>
      rw [Module.addFunction_of_found found] at member
      exact .inl member
  | none =>
      obtain ⟨added, -, functions, -, -, noBlocks⟩ :=
        Module.addFunction_append found type linkage
      rw [functions, List.mem_append, List.mem_singleton] at member
      rcases member with old | rfl
      · exact .inl old
      · exact .inr noBlocks

theorem spares_reading {Result : Type} (operation : String)
    (span : Option Span) (reader : TypeReader Result) :
    Relates Spares (reading operation span reader) := by
  refine .bind (spares_withTypes _) fun outcome => ?_
  split
  · exact .pure _
  · exact .bind (spares_addProblem _ _ _) fun _ => .pure none

theorem spares_declareHeader (form : Form) :
    Relates Spares (declareHeader form) := by
  refine .bind (spares_reading _ _ _) fun header => ?_
  split
  · exact .pure ()
  · exact .bind (spares_addFunction _ _ _) fun _ =>
      spares_modify (fun _ => rfl) (fun _ => rfl) fun _ => rfl

theorem spares_declarePersonality (personality : Personality) :
    Relates Spares (onModule (declarePersonality personality)) :=
  spares_bind (spares_withTypes _) fun _ =>
    spares_bind (spares_withTypes _) fun type =>
      spares_addFunction personality.routine type .external

theorem Bare.declared {global : Global} (bare : state.Bare forms)
    (member : global ∈ state.module.globals)
    (grows : state.Extends later) : ∃ form ∈ forms,
      form.head? = some "global" ∧
        global.DeclaredBy later.module.types form := by
  obtain ⟨form, isForm, isGlobal, declared⟩ := bare.globals global member
  exact ⟨form, isForm, isGlobal,
    declared.mono bare.sound.types grows.types⟩

/-- What adds no code leaves such a module one. -/
theorem Bare.spared {Result : Type} {operation : ModuleEmission Result}
    {good : ModuleState → Result → Prop} (bare : state.Bare forms)
    (keeps : state.Keeps operation good) (spares : Relates Spares operation) :
    (operation state).2.Bare forms := by
  obtain ⟨literals, functions, globals⟩ := spares state
  refine ⟨keeps.holds, literals.trans bare.literals,
    fun function member => ?_, fun global member => ?_⟩
  · exact (functions function member).elim (bare.functions function) id
  · exact bare.declared (globals ▸ member) keeps.follows

theorem Bare.declareGlobal {form : Form} (bare : state.Bare forms)
    (member : form ∈ forms) (isGlobal : form.head? = some "global") :
    (declareGlobal form state).2.Bare forms := by
  have keeps := keeps_declareGlobal bare.toWhole form
  have gains := gains_declareGlobal form state
  refine ⟨keeps.holds, gains.literals.trans bare.literals,
    gains.functions ▸ bare.functions, ?_⟩
  rcases gains.globals with same | ⟨global, more, declared⟩
  · rw [same]
    exact fun global member => bare.declared member keeps.follows
  · rw [more]
    refine List.forall_mem_append.mpr
      ⟨fun global member => bare.declared member keeps.follows,
        List.forall_mem_singleton.mpr ?_⟩
    exact ⟨form, member, isGlobal, declared⟩

theorem bare_declare {form : Form} (member : form ∈ forms) :
    Relates (fun state later => state.Bare forms → later.Bare forms)
      (declare form) := by
  unfold declare
  split
  · next isGlobal =>
      exact fun state bare => bare.declareGlobal member isGlobal
  · exact fun state bare => bare.spared
      (keeps_declareHeader bare.toWhole form) (spares_declareHeader form)
  · split
    · exact fun state => id
    · exact fun state bare => bare.spared
        (keeps_addProblem bare.toWhole _ _ _) (spares_addProblem _ _ _)

theorem bare_ofConfiguration (configuration : Configuration) :
    (ofConfiguration configuration).Bare forms := by
  have empty : (ofConfiguration configuration).module.functions = [] ∧
      (ofConfiguration configuration).module.globals = [] := by
    unfold ofConfiguration Module.setTriple
    split <;> exact ⟨rfl, rfl⟩
  refine ⟨whole_ofConfiguration configuration, rfl, ?_, ?_⟩
  · rw [empty.1]
    exact List.forall_mem_nil _
  · rw [empty.2]
    exact List.forall_mem_nil _

/-! ## Modules -/

theorem Bare.setting (bare : state.Bare forms)
    (settings : List (String × Form)) :
    (state.setting settings).Bare forms := by
  have whole := bare.toWhole.setting settings
  obtain ⟨name, same⟩ := state.setting_eq settings
  rw [same] at whole ⊢
  exact ⟨whole, bare.literals, bare.functions, bare.globals⟩

theorem Bare.layOutModule (bare : state.Bare forms)
    (fresh : state.module.types.bodies = []) (declarations : List Form) :
    (layOutModule declarations state).2.Bare forms :=
  bare.spared (keeps_layOutModule bare.toWhole fresh declarations)
    (spares_modify (fun _ => rfl) (fun _ => rfl) fun _ => rfl)

theorem Bare.declaring {added : List Form} (bare : state.Bare forms)
    (declared : added ⊆ forms) : (state.declaring added).Bare forms := by
  induction added generalizing state with
  | nil => exact bare
  | cons form added ih =>
      rw [List.cons_subset] at declared
      exact ih (bare_declare declared.1 state bare) declared.2

theorem Bare.prepared (bare : state.Bare forms)
    (fresh : state.module.types.bodies = []) (configuration : Configuration)
    {parts : ModuleParts} (declared : parts.declarations ⊆ forms) :
    (state.prepared configuration parts).Bare forms := by
  have stillFresh :
      (state.setting parts.settings).module.types.bodies = [] := by
    obtain ⟨name, same⟩ := state.setting_eq parts.settings
    rw [same]
    exact fresh
  have ready := ((bare.setting parts.settings).layOutModule stillFresh
    parts.declarations).declaring declared
  exact preparing_cases ready (fun personality =>
    ready.spared (keeps_onModule ready.toWhole
      (runs_declarePersonality ready.sound personality))
      (spares_declarePersonality personality)) _

end ModuleState

/-- The global that a form declares. -/
def globalName? (form : Form) : Option String :=
  if form.head? = some "global" then
    (KeywordArguments.ofForm form).symbol? "name"
  else none

/-- The forms that a module form is made of besides its settings. -/
def declaredForms (form : Form) : List Form :=
  (splitModule (form.list?.getD []).tail).1.declarations

/-- The globals that a module form declares. -/
def globalNames (form : Form) : List String :=
  (splitModule (form.list?.getD []).tail).1.declarations.filterMap globalName?

namespace ModuleState

variable {state : ModuleState} {forms : List Form}

/-- What a module leaves is a trace from its declarations on. -/
theorem arises_emitModule (configuration : Configuration) (form : Form)
    (bare : state.Bare (declaredForms form))
    (fresh : state.module.types.bodies = []) :
    let later := ((emitModule configuration form).run state).2
    ∃ start : ModuleState, start.Bare (declaredForms form) ∧
      start.Extends later ∧ start.Traces later := by
  intro later
  have still {start : ModuleState} (bare : start.Bare (declaredForms form))
      (same : later = start) : ∃ start : ModuleState,
        start.Bare (declaredForms form) ∧ start.Extends later ∧
          start.Traces later := by
    rw [same]
    exact ⟨start, bare, Std.Refl.refl start, Std.Refl.refl start⟩
  rcases run_emitModule configuration form state with
    ⟨text, run⟩ | ⟨text, run⟩ | run
  · exact still bare (congrArg Prod.snd run)
  · exact still (bare.setting _) (congrArg Prod.snd run)
  · have prepared := bare.prepared fresh configuration
      (List.Subset.refl (declaredForms form))
    rw [show later = _ from congrArg Prod.snd run]
    exact ⟨_, prepared, (whole_emitFunctions prepared.toWhole configuration _
      prepared.headers).2.2, traces_emitFunctions configuration _ _⟩

theorem arises_emitted (configuration : Configuration) (form : Form) :
    ∃ start : ModuleState, start.Bare (declaredForms form) ∧
      start.Extends (emitted configuration form).state ∧
      start.Traces (emitted configuration form).state :=
  arises_emitModule configuration form (bare_ofConfiguration configuration)
    (bodies_ofConfiguration configuration)

/-- An emitted module is a trace from its declarations on. -/
theorem traces_emitted (configuration : Configuration) (form : Form) :
    ∃ start : ModuleState, start.Bare (declaredForms form) ∧
      start.Traces (emitted configuration form).state := by
  obtain ⟨start, bare, -, traces⟩ := arises_emitted configuration form
  exact ⟨start, bare, traces⟩

theorem Bare.block?_eq_none (bare : state.Bare forms) (id : BlockId) :
    state.module.block? id = none := by
  rw [Module.block?_eq, Module.function]
  cases found : state.module.functions[id.function]? with
  | none => rfl
  | some function =>
      rw [Option.getD_some,
        bare.functions function (List.mem_of_getElem? found)]
      rfl

end ModuleState

/-! ## Slots -/

/-- A slot stands in the first block of its function, and no load and no store
of the block precedes it. -/
def Ir.Module.SlotLeads (module : Module) (register : Register)
    (type : IrType) : Prop :=
  ∃ block, module.block? ⟨register.function, 0⟩ = some block ∧
    ∃ (place : Nat) (name : String),
      block.instructions[place]? = some ⟨register, name, .alloca type⟩ ∧
      ∀ (other : Nat) (access : Instruction),
        block.instructions[other]? = some access →
        access.operation.accessesMemory = true → place < other

theorem Draft.Trace.slotLeads {start later : Draft} {events : List Event}
    (trace : Trace start events later) {register : Register} {type : IrType}
    (noted : .slot register type ∈ events) :
    later.module.SlotLeads register type := by
  obtain ⟨block, found, leads⟩ := trace.slots noted
  exact ⟨block, found, leads.precedes⟩

/-- A module with a loop that assigns to a variable. -/
def assigningModule : Form :=
  Form.list [Form.symbol "module",
    Form.keywordCall "fn" [("name", Form.symbol "f"),
      ("params", Form.vector [Form.list [Form.symbol "param",
        Form.symbol "i32", Form.symbol "%n"]]),
      ("body", Form.vector [Form.list [Form.symbol "while",
        Form.symbol "%n", Form.vector [Form.list [Form.symbol "assign",
          Form.symbol "%x", Form.symbol "%n"]]]])]]

/-- A builder in the body of the loop. -/
def assigningBuilder : Builder :=
  { module := (emitted {} assigningModule).state.module
    function := 0
    block := some ⟨0, 2⟩ }

def Ir.Value.isRegister (value : Value) : Bool :=
  match value.content with
  | .firstClass (.register ..) => true
  | _ => false

/-- A module is in step with its literals, unless it declares a global under a
name that is kept for them. -/
theorem ModuleState.Bare.inStep {forms : List Form} {state : ModuleState}
    (bare : state.Bare forms)
    (others : ∀ name ∈ forms.filterMap globalName?,
      ∀ (kind : LiteralKind) number, name ≠ kind.globalName number) :
    state.draft.InStep := by
  have literals : state.draft.literals.entries = [] :=
    congrArg LiteralPool.entries bare.literals
  refine ⟨?_, ?_, fun global member kind number _ => ?_⟩
  · rw [literals]
    exact List.forall_mem_nil _
  · rw [literals]
    exact .nil
  · obtain ⟨form, isForm, isGlobal, declared⟩ := bare.globals global member
    have isName : globalName? form = some global.name := by
      rw [globalName?, if_pos isGlobal, declared.name]
    exact others global.name
      (List.mem_filterMap.mpr ⟨form, isForm, isName⟩) kind number

/-- Where an instruction for a literal succeeds, it defines the address of the
first byte of the constant that the literal has, and the address is noted. -/
theorem defineLiteral_notes {environment : Environment} {state : EmitState}
    {block : BlockId} (steady : state.builder.Steady)
    (placed : state.builder.block = some block)
    (known : (state.builder.module.block? block).isSome = true)
    {destination : String} {literal : Literal}
    (succeeds : ((defineLiteral destination literal).run environment
      state).1 = .ok ()) :
    ∃ pointer id register middle events,
      (defineLiteral destination literal).run environment state =
        (define destination pointer pointer.type).run environment middle ∧
      pointer.content = .firstClass (.register register .pointer) ∧
      Draft.Trace state.draft events middle.draft ∧
      .address literal id register ∈ events := by
  have split (address : Emission (Option Value)) :
      (do
        let pointer ← orFail (.unresolved destination) (← address)
        define destination pointer pointer.type : Handler Unit).run
          environment state =
      (orFail (.unresolved destination) (address environment state).1 >>=
        fun pointer => define destination pointer pointer.type).run
          environment (address environment state).2 :=
    rfl
  rw [defineLiteral_eq, split] at succeeds ⊢
  have applied := addressLiteral_apply literal destination environment state
  generalize addressLiteral literal destination environment state = outcome
    at applied succeeds ⊢
  obtain ⟨found, middle⟩ := outcome
  cases found with
  | none => cases succeeds
  | some pointer =>
      obtain ⟨internedSteady, before, interns, -⟩ :=
        state.evolves_interned environment literal steady
      obtain ⟨register, isRegister, trace⟩ := Builder.firstByte_notes
        internedSteady placed (interns.known known)
        (congrArg Prod.fst applied).symm
      have found := state.literals.find?_intern literal state.builder.module
      have same := congrArg Prod.snd applied
      dsimp only at same
      refine ⟨pointer, (state.literals.intern literal
        state.builder.module).1.1, register, middle, _, rfl, isRegister, ?_,
        List.mem_append_right before (List.mem_singleton_self _)⟩
      rw [same]
      exact interns.trans (trace _ _ found)

/-- A module with a text. -/
def greetingModule (globals : List Form) : Form :=
  Form.list ([Form.symbol "module"] ++ globals ++
    [Form.keywordCall "fn" [("name", Form.symbol "f"),
      ("body", Form.vector [Form.list [Form.symbol "cstr", Form.symbol "%p",
        .atom .empty (.string "hi")]])]])

/-- A global under a name that is kept for literals. -/
def reservedGlobal : Form :=
  Form.keywordCall "global" [("name", Form.symbol "__edn.cstr.1"),
    ("type", Form.keywordCall "array" [("elem", Form.symbol "i8"),
      ("size", .atom .empty (.int 3))]),
    ("init", .atom .empty (.string "no"))]

end FormCompiler
