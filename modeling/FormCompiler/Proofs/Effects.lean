import Mathlib.Data.List.Perm.Subperm
import FormCompiler.Emit.Body
import FormCompiler.Proofs.NameUses
import FormCompiler.Proofs.PlainBuilding

/-!
# What emission does

An emission is described by the uses that it may make of names, each at most
as often as it is listed, and by what it does to the rest of the state.  Both
hold from every state on, and for a handler whether it gives up or not.  Uses
add up when emissions are put in sequence.

Most instructions build plain code at the end of the current block and leave
alone where loops and exceptions lead.
-/

namespace FormCompiler

open Ir

/-- A relation between the states before and after an emission.  It speaks of
the uses made of names, and it may depend on the environment. -/
abbrev Effect :=
  Environment → List NameUse → EmitState → EmitState → Prop

namespace EmitState

/-- Names were used as accounted for. -/
def Uses (_ : Environment) (uses : List NameUse) (state later : EmitState) :
    Prop :=
  ∃ used, List.Subperm used uses ∧
    FunctionContext.Touches used state.context later.context

/-- Names were used as accounted for, plain code was built somewhere, and
loops and exceptions lead where they did. -/
structure Roams (environment : Environment) (uses : List NameUse)
    (state later : EmitState) : Prop where
  uses : state.Uses environment uses later
  module : state.builder.module.Flows [] later.builder.module
  loops : later.context.loops = state.context.loops
  unwindTargets : later.unwindTargets = state.unwindTargets

/-- The same with the builder at the block where it was. -/
structure Quietly (environment : Environment) (uses : List NameUse)
    (state later : EmitState) : Prop where
  uses : state.Uses environment uses later
  builder : state.builder.Plainly later.builder
  loops : later.context.loops = state.context.loops
  unwindTargets : later.unwindTargets = state.unwindTargets

/-- The module that is under construction, with its literals. -/
def draft (state : EmitState) : Draft := state.builder.draft state.literals

/-- Some name has a slot. -/
def Slotted (state : EmitState) (slot : Value) : Prop :=
  ∃ name, ∃ entry ∈ state.context.stack name, entry.slot = slot

/-- What happens is a trace that notes the new slots of names. -/
def Wanders (state later : EmitState) : Prop :=
  ∃ events, Draft.Trace state.draft events later.draft ∧
    ∀ slot, later.Slotted slot → state.Slotted slot ∨ slot.SlotIn events

/-- From a steady builder on, what happens is such a trace, and it leaves the
builder steady. -/
def Evolves (_ : Environment) (_ : List NameUse) (state later : EmitState) :
    Prop :=
  state.builder.Steady → later.builder.Steady ∧ state.Wanders later

/-- What plain instructions do. -/
structure Plainly (environment : Environment) (uses : List NameUse)
    (state later : EmitState) : Prop
    extends Quietly environment uses state later where
  evolves : state.Evolves environment [] later

end EmitState

/-- Effects in sequence add up their uses of names. -/
class Graded (Changes : Effect) : Prop where
  refl : ∀ environment state, Changes environment [] state state
  trans : ∀ {environment first second state later last},
    Changes environment first state later →
    Changes environment second later last →
    Changes environment (first ++ second) state last
  mono : ∀ {environment fewer more state later}, List.Subperm fewer more →
    Changes environment fewer state later →
    Changes environment more state later

instance : Graded EmitState.Uses where
  refl _ state := ⟨[], .refl [], .refl state.context⟩
  trans := by
    rintro _ _ _ _ _ _ ⟨used, fits, touches⟩ ⟨more, moreFits, moreTouches⟩
    exact ⟨used ++ more, fits.append moreFits, touches.trans moreTouches⟩
  mono := by
    rintro _ _ _ _ _ subperm ⟨used, fits, touches⟩
    exact ⟨used, fits.trans subperm, touches⟩

instance : Graded EmitState.Roams where
  refl environment state :=
    ⟨Graded.refl environment state, .refl _, rfl, rfl⟩
  trans first second := ⟨Graded.trans first.uses second.uses,
    first.module.trans second.module, second.loops.trans first.loops,
    second.unwindTargets.trans first.unwindTargets⟩
  mono subperm roams := ⟨Graded.mono subperm roams.uses, roams.module,
    roams.loops, roams.unwindTargets⟩

instance : Graded EmitState.Quietly where
  refl environment state :=
    ⟨Graded.refl environment state, Std.Refl.refl _, rfl, rfl⟩
  trans first second := ⟨Graded.trans first.uses second.uses,
    Trans.trans first.builder second.builder,
    second.loops.trans first.loops,
    second.unwindTargets.trans first.unwindTargets⟩
  mono subperm quietly := ⟨Graded.mono subperm quietly.uses, quietly.builder,
    quietly.loops, quietly.unwindTargets⟩

namespace EmitState

variable {environment : Environment} {uses : List NameUse}
  {state later : EmitState}

/-- Nothing but the code and its problems, names and places is about to
change. -/
theorem Evolves.of_same (builder : later.builder = state.builder)
    (literals : later.literals = state.literals)
    (slots : ∀ slot, later.Slotted slot → state.Slotted slot) :
    state.Evolves environment uses later := by
  intro steady
  have drafts : later.draft = state.draft := by
    rw [draft, draft, builder, literals]
  exact ⟨builder ▸ steady, [], drafts ▸ .done, fun slot slotted =>
    .inl (slots slot slotted)⟩

/-- What is built leaves alone which slots names have. -/
theorem Evolves.of_advances {builder : Builder}
    (advances : state.builder.Advances builder) :
    state.Evolves environment uses { state with builder } := by
  intro steady
  obtain ⟨later, events, trace⟩ := advances steady
  exact ⟨later, events, trace state.literals, fun _ => .inl⟩

end EmitState

theorem Ir.Value.SlotIn.append_left {slot : Value} {events : List Event}
    (noted : slot.SlotIn events) (more : List Event) :
    slot.SlotIn (events ++ more) :=
  fun register type same => (noted register type same).imp fun _ =>
    List.mem_append_left more

theorem Ir.Value.SlotIn.append_right {slot : Value} {events : List Event}
    (noted : slot.SlotIn events) (before : List Event) :
    slot.SlotIn (before ++ events) :=
  fun register type same => (noted register type same).imp fun _ =>
    List.mem_append_right before

instance : Graded EmitState.Evolves where
  refl _ _ := .of_same rfl rfl fun _ => id
  trans := by
    intro _ _ _ _ _ _ first second steady
    obtain ⟨middle, events, trace, slots⟩ := first steady
    obtain ⟨last, more, moreTrace, moreSlots⟩ := second middle
    refine ⟨last, events ++ more, trace.trans moreTrace,
      fun slot slotted => ?_⟩
    rcases moreSlots slot slotted with old | noted
    · exact (slots slot old).imp_right (·.append_left more)
    · exact .inr (noted.append_right events)
  mono _ evolves := evolves

instance : Graded EmitState.Plainly where
  refl environment state :=
    ⟨Graded.refl environment state, Graded.refl environment state⟩
  trans first second := ⟨Graded.trans first.toQuietly second.toQuietly,
    Graded.trans first.evolves second.evolves⟩
  mono subperm plainly :=
    ⟨Graded.mono subperm plainly.toQuietly, plainly.evolves⟩

variable {Changes : Effect}
  {Result Other Part Item Error : Type} {uses more : List NameUse}

/-- From every state on, an emission does no more than what is accounted
for. -/
def Does (Changes : Effect) (uses : List NameUse)
    (emission : Emission Result) : Prop :=
  ∀ environment state,
    Changes environment uses state (emission environment state).2

/-- The same of an emission that may fail, whether it does or not. -/
def Tries (Changes : Effect) (uses : List NameUse)
    (handler : ExceptT Error Emission Result) : Prop :=
  Does Changes uses handler.run

/-! ## Emissions in sequence -/

namespace Does

variable {emission : Emission Result} {next : Result → Emission Other}

theorem roams (does : Does EmitState.Plainly uses emission) :
    Does EmitState.Roams uses emission := by
  intro environment state
  have plainly := does environment state
  exact ⟨plainly.uses, plainly.builder.module, plainly.loops,
    plainly.unwindTargets⟩

/-- Plain instructions make the uses of names that they are said to. -/
theorem names (does : Does EmitState.Plainly uses emission) :
    Does EmitState.Uses uses emission :=
  fun environment state => (does environment state).uses

theorem quietly (does : Does EmitState.Plainly uses emission) :
    Does EmitState.Quietly uses emission :=
  fun environment state => (does environment state).toQuietly

/-- Plain instructions are built step by step. -/
theorem evolves (does : Does EmitState.Plainly uses emission) :
    Does EmitState.Evolves [] emission :=
  fun environment state => (does environment state).evolves

/-- Looking at the state first. -/
theorem look {look : Emission Part} {seen : Environment → EmitState → Part}
    {next : Part → Emission Result}
    (looks : ∀ environment state,
      look environment state = (seen environment state, state))
    (rest : ∀ environment state, Changes environment uses state
      (next (seen environment state) environment state).2) :
    Does Changes uses (look >>= next) := by
  intro environment state
  have run : (look >>= next) environment state =
      next (seen environment state) environment state := by
    show next (look environment state).1 environment
      (look environment state).2 = _
    rw [looks]
  rw [run]
  exact rest environment state

theorem ite {condition : Prop} [Decidable condition]
    {other : Emission Result} (holds : Does Changes uses emission)
    (fails : Does Changes uses other) :
    Does Changes uses (if condition then emission else other) := by
  split
  · exact holds
  · exact fails

theorem map (does : Does Changes uses emission) (change : Result → Other) :
    Does Changes uses (change <$> emission) :=
  does

variable [Graded Changes]

theorem mono (does : Does Changes uses emission)
    (fewer : List.Subperm uses more) : Does Changes more emission :=
  fun environment state => Graded.mono fewer (does environment state)

theorem pure (result : Result) :
    Does Changes uses (Pure.pure result : Emission Result) :=
  fun environment state =>
    Graded.mono List.nil_subperm (Graded.refl environment state)

/-- What follows may depend on the state that it starts from. -/
theorem bindAt {environment : Environment} {state : EmitState}
    (first : Changes environment uses state (emission environment state).2)
    (rest : Changes environment more (emission environment state).2
      (next (emission environment state).1 environment
        (emission environment state).2).2) :
    Changes environment (uses ++ more) state
      ((emission >>= next) environment state).2 :=
  Graded.trans first rest

theorem bind (first : Does Changes uses emission)
    (rest : ∀ result, Does Changes more (next result)) :
    Does Changes (uses ++ more) (emission >>= next) :=
  fun environment state =>
    bindAt (first environment state) (rest _ environment _)

/-- An emission that uses no names first. -/
theorem step (first : Does Changes [] emission)
    (rest : ∀ result, Does Changes uses (next result)) :
    Does Changes uses (emission >>= next) :=
  first.bind rest

/-- An emission that uses no names last. -/
theorem last (first : Does Changes uses emission)
    (rest : ∀ result, Does Changes [] (next result)) :
    Does Changes uses (emission >>= next) := by
  simpa using first.bind rest

theorem forM {act : Item → Emission Unit} {uses : Item → List NameUse}
    {items : List Item}
    (each : ∀ item ∈ items, Does Changes (uses item) (act item)) :
    Does Changes (items.flatMap uses) (items.forM act) := by
  induction items with
  | nil => exact pure ()
  | cons item items ih =>
      rw [List.forall_mem_cons] at each
      rw [List.forM_eq_forM, List.forM_cons]
      exact each.1.bind fun _ => ih each.2

/-- An emission that uses no names for every element of a list. -/
theorem each {act : Item → Emission Unit} {items : List Item}
    (each : ∀ item ∈ items, Does Changes [] (act item)) :
    Does Changes [] (items.forM act) := by
  have none : items.flatMap (fun _ => ([] : List NameUse)) = [] := by simp
  exact none ▸ forM each

theorem mapM {act : Item → Emission Result} {items : List Item}
    (each : ∀ item ∈ items, Does Changes [] (act item)) :
    Does Changes [] (items.mapM act) := by
  induction items with
  | nil => exact pure []
  | cons item items ih =>
      rw [List.forall_mem_cons] at each
      rw [List.mapM_cons]
      exact step each.1 fun _ => step (ih each.2) fun _ => pure _

end Does

/-! ## Handlers in sequence -/

namespace Tries

variable {handler : ExceptT Error Emission Result}
  {next : Result → ExceptT Error Emission Other}

theorem names (tries : Tries EmitState.Plainly uses handler) :
    Tries EmitState.Uses uses handler :=
  Does.names tries

theorem lift {emission : Emission Result} (does : Does Changes uses emission) :
    Tries Changes uses (liftM emission : ExceptT Error Emission Result) :=
  does

/-- Looking at the state first. -/
theorem look {look : Emission Part} {seen : Environment → EmitState → Part}
    {next : Part → ExceptT Error Emission Result}
    (looks : ∀ environment state,
      look environment state = (seen environment state, state))
    (rest : ∀ environment state, Changes environment uses state
      ((next (seen environment state)).run environment state).2) :
    Tries Changes uses
      ((liftM look : ExceptT Error Emission Part) >>= next) := by
  have lifted : ∀ environment state,
      (liftM look : ExceptT Error Emission Part).run environment state =
        (.ok (seen environment state), state) := by
    intro environment state
    show (Except.ok (look environment state).1,
      (look environment state).2) = _
    rw [looks]
  unfold Tries
  rw [ExceptT.run_bind]
  exact Does.look lifted rest

theorem ite {condition : Prop} [Decidable condition]
    {other : ExceptT Error Emission Result}
    (holds : Tries Changes uses handler) (fails : Tries Changes uses other) :
    Tries Changes uses (if condition then handler else other) := by
  split
  · exact holds
  · exact fails

variable [Graded Changes]

theorem mono (tries : Tries Changes uses handler)
    (fewer : List.Subperm uses more) : Tries Changes more handler :=
  Does.mono tries fewer

theorem pure (result : Result) :
    Tries Changes uses (Pure.pure result : ExceptT Error Emission Result) :=
  Does.pure (Except.ok result)

theorem throw (error : Error) :
    Tries Changes uses (throw error : ExceptT Error Emission Result) :=
  Does.pure (Except.error error)

theorem bind (first : Tries Changes uses handler)
    (rest : ∀ result, Tries Changes more (next result)) :
    Tries Changes (uses ++ more) (handler >>= next) := by
  unfold Tries
  rw [ExceptT.run_bind]
  refine Does.bind first fun outcome => ?_
  cases outcome with
  | error cause => exact throw cause
  | ok result => exact rest result

/-- A handler that uses no names first. -/
theorem step (first : Tries Changes [] handler)
    (rest : ∀ result, Tries Changes uses (next result)) :
    Tries Changes uses (handler >>= next) :=
  first.bind rest

/-- A handler that uses no names last. -/
theorem last (first : Tries Changes uses handler)
    (rest : ∀ result, Tries Changes [] (next result)) :
    Tries Changes uses (handler >>= next) := by
  simpa using first.bind rest

theorem map (tries : Tries Changes uses handler) (change : Result → Other) :
    Tries Changes uses (change <$> handler) := by
  rw [map_eq_pure_bind]
  exact tries.last fun _ => pure _

/-- What is done first only under a condition. -/
theorem when {condition : Prop} [Decidable condition]
    {first : ExceptT Error Emission PUnit}
    {next : PUnit → ExceptT Error Emission Result}
    (holds : Tries Changes [] first)
    (rest : Tries Changes uses (next ⟨⟩)) :
    Tries Changes uses (if condition then first >>= next else next ⟨⟩) :=
  ite (step holds fun _ => rest) rest

/-- Reading a part of the form first. -/
theorem parse {part : Except ProblemCause Part} {next : Part → Handler Result}
    (rest : ∀ item, part = .ok item → Tries Changes uses (next item)) :
    Tries Changes uses ((liftM part : Handler Part) >>= next) := by
  cases part with
  | error cause => exact throw cause
  | ok item => exact rest item rfl

theorem orFail (cause : ProblemCause) (found : Option Result) :
    Tries Changes uses (FormCompiler.orFail cause found) := by
  cases found with
  | none => exact throw cause
  | some result => exact pure result

theorem orFail_step (cause : ProblemCause) {found : Option Part}
    {next : Part → Handler Result}
    (rest : ∀ part, found = some part → Tries Changes uses (next part)) :
    Tries Changes uses (FormCompiler.orFail cause found >>= next) := by
  cases found with
  | none => exact throw cause
  | some part => exact rest part rfl

theorem forM {act : Item → Handler Unit} {uses : Item → List NameUse}
    {items : List Item}
    (each : ∀ item ∈ items, Tries Changes (uses item) (act item)) :
    Tries Changes (items.flatMap uses) (items.forM act) := by
  induction items with
  | nil => exact pure ()
  | cons item items ih =>
      rw [List.forall_mem_cons] at each
      rw [List.forM_eq_forM, List.forM_cons]
      exact each.1.bind fun _ => ih each.2

theorem mapM {act : Item → Handler Result} {items : List Item}
    (each : ∀ item ∈ items, Tries Changes [] (act item)) :
    Tries Changes [] (items.mapM act) := by
  induction items with
  | nil => exact pure []
  | cons item items ih =>
      rw [List.forall_mem_cons] at each
      rw [List.mapM_cons]
      exact step each.1 fun _ => step (ih each.2) fun _ => pure _

end Tries

theorem Tries.attempt [Graded Changes] {handler : Handler Result}
    (tries : Tries Changes uses handler) :
    Does Changes uses (attempt handler) :=
  Does.last tries fun _ => .pure _

/-! ## Results that are known -/

theorem run_bind_of_ok {handler : ExceptT Error Emission Result}
    {next : Result → ExceptT Error Emission Other} {environment : Environment}
    {state : EmitState} {result : Result}
    (outcome : (handler.run environment state).1 = .ok result) :
    (handler >>= next).run environment state =
      (next result).run environment (handler.run environment state).2 := by
  show (ExceptT.bindCont next (handler.run environment state).1 :
    Emission _) environment (handler.run environment state).2 = _
  rw [outcome]
  rfl

theorem run_bind_of_error {handler : ExceptT Error Emission Result}
    {next : Result → ExceptT Error Emission Other} {environment : Environment}
    {state : EmitState} {cause : Error}
    (outcome : (handler.run environment state).1 = .error cause) :
    (handler >>= next).run environment state =
      (.error cause, (handler.run environment state).2) := by
  show (ExceptT.bindCont next (handler.run environment state).1 :
    Emission _) environment (handler.run environment state).2 = _
  rw [outcome]
  rfl

/-- Whenever a handler gives a result, the result is good. -/
def Gives (handler : Handler Result) (good : Result → Prop) : Prop :=
  ∀ environment state result,
    (handler.run environment state).1 = .ok result → good result

namespace Gives

variable {handler : Handler Result} {next : Result → Handler Other}
  {good : Result → Prop} {goodLater : Other → Prop}

theorem pure {result : Result} (holds : good result) :
    Gives (Pure.pure result : Handler Result) good := by
  rintro _ _ _ ⟨⟩
  exact holds

theorem throw (cause : ProblemCause) :
    Gives (throw cause : Handler Result) good := by
  rintro _ _ _ ⟨⟩

theorem bind (first : Gives handler good)
    (rest : ∀ result, good result → Gives (next result) goodLater) :
    Gives (handler >>= next) goodLater := by
  intro environment state last given
  cases outcome : (handler.run environment state).1 with
  | error cause =>
      rw [run_bind_of_error outcome] at given
      cases given
  | ok result =>
      rw [run_bind_of_ok outcome] at given
      exact rest result (first environment state result outcome) environment _
        last given

theorem skip (rest : ∀ result, Gives (next result) goodLater) :
    Gives (handler >>= next) goodLater :=
  bind (fun _ _ _ _ => trivial) fun result (_ : True) => rest result

theorem parse {part : Except ProblemCause Item} {next : Item → Handler Result}
    (rest : ∀ item, part = .ok item → Gives (next item) good) :
    Gives ((liftM part : Handler Item) >>= next) good := by
  cases part with
  | error cause => exact throw cause
  | ok item => exact rest item rfl

theorem orFail_step (cause : ProblemCause) {found : Option Item}
    {next : Item → Handler Result}
    (rest : ∀ item, found = some item → Gives (next item) good) :
    Gives (orFail cause found >>= next) good := by
  cases found with
  | none => exact throw cause
  | some item => exact rest item rfl

theorem ite {condition : Prop} [Decidable condition] {other : Handler Result}
    (holds : condition → Gives handler good)
    (fails : ¬condition → Gives other good) :
    Gives (if condition then handler else other) good := by
  split
  · next yes => exact holds yes
  · next no => exact fails no

end Gives

/-- What a handler gives is known afterwards. -/
theorem Tries.known {handler : Handler Result} {next : Result → Handler Other}
    {good : Result → Prop}
    {Changes : Effect} [Graded Changes]
    (tries : Tries Changes [] handler) (gives : Gives handler good)
    (rest : ∀ result, good result → Tries Changes uses (next result)) :
    Tries Changes uses (handler >>= next) := by
  intro environment state
  cases outcome : (handler.run environment state).1 with
  | error cause =>
      rw [run_bind_of_error outcome]
      exact Graded.mono List.nil_subperm (tries environment state)
  | ok result =>
      rw [run_bind_of_ok outcome]
      exact Graded.trans (tries environment state)
        (rest result (gives environment state result outcome) environment _)

/-- From every state on, an emission has a good result. -/
def Yields (emission : Emission Result) (good : Result → Prop) : Prop :=
  ∀ environment state, good (emission environment state).1

/-- What an emission yields is known afterwards. -/
theorem Does.known {emission : Emission Result}
    {next : Result → Emission Other} {good : Result → Prop}
    {Changes : Effect} [Graded Changes]
    (does : Does Changes [] emission)
    (yields : Yields emission good)
    (rest : ∀ result, good result → Does Changes uses (next result)) :
    Does Changes uses (emission >>= next) :=
  fun environment state => Graded.trans (does environment state)
    (rest _ (yields environment state) environment _)

/-! ## Plain steps -/

namespace EmitState.Plainly

variable {environment : Environment} {state later : EmitState}

/-- Everything but what is neither names nor code stays. -/
theorem of_same (context : later.context = state.context)
    (builder : later.builder = state.builder)
    (unwindTargets : later.unwindTargets = state.unwindTargets)
    (literals : later.literals = state.literals) :
    state.Plainly environment [] later := by
  refine ⟨⟨⟨[], .refl [], context ▸ .refl _⟩, builder ▸ Std.Refl.refl _,
    congrArg FunctionContext.loops context, unwindTargets⟩,
    .of_same builder literals ?_⟩
  unfold EmitState.Slotted
  rw [context]
  exact fun _ => id

end EmitState.Plainly

theorem does_onBuilder {operation : Build Result}
    (computes : Builder.Computes operation) :
    Does EmitState.Plainly [] (onBuilder operation) :=
  fun _ state => ⟨⟨⟨[], .refl [], .refl _⟩,
    (computes state.builder).toPlainly, rfl, rfl⟩,
    .of_advances (computes state.builder).traces⟩

theorem does_types (operation : StateM TypeTable Result) :
    Does EmitState.Plainly [] (liftM operation : Emission Result) :=
  does_onBuilder (Builder.computes_onTypes operation)

theorem quietly_modifyContext {change : FunctionContext → FunctionContext}
    (touches : ∀ context,
      FunctionContext.Touches uses context (change context))
    (loops : ∀ context, (change context).loops = context.loops) :
    Does EmitState.Quietly uses (modifyContext change) :=
  fun _ state => ⟨⟨uses, .refl uses, touches state.context⟩,
    Std.Refl.refl _, loops state.context, rfl⟩

theorem does_modifyContext {change : FunctionContext → FunctionContext}
    (touches : ∀ context,
      FunctionContext.Touches uses context (change context))
    (loops : ∀ context, (change context).loops = context.loops)
    (slots : ∀ context, (change context).slotStacks = context.slotStacks) :
    Does EmitState.Plainly uses (modifyContext change) := by
  refine fun environment state =>
    ⟨quietly_modifyContext touches loops environment state,
      .of_same rfl rfl fun slot => ?_⟩
  rintro ⟨name, entry, member, same⟩
  refine ⟨name, entry, ?_, same⟩
  unfold FunctionContext.stack at member ⊢
  exact slots state.context ▸ member

theorem does_get : Does EmitState.Plainly [] (get : Emission EmitState) :=
  fun _ _ => .of_same rfl rfl rfl rfl

theorem does_read : Does EmitState.Plainly [] (read : Emission Environment) :=
  fun _ _ => .of_same rfl rfl rfl rfl

theorem does_context : Does EmitState.Plainly [] context :=
  fun _ _ => .of_same rfl rfl rfl rfl

theorem does_tables : Does EmitState.Plainly [] types :=
  fun _ _ => .of_same rfl rfl rfl rfl

theorem does_module : Does EmitState.Plainly [] module :=
  fun _ _ => .of_same rfl rfl rfl rfl

theorem does_currentBlock? : Does EmitState.Plainly [] currentBlock? :=
  fun _ _ => .of_same rfl rfl rfl rfl

theorem does_isTerminated : Does EmitState.Plainly [] isTerminated :=
  fun _ _ => .of_same rfl rfl rfl rfl

theorem does_personality? : Does EmitState.Plainly [] personality? :=
  fun _ _ => .of_same rfl rfl rfl rfl

theorem does_functionType : Does EmitState.Plainly [] functionType :=
  fun _ _ => .of_same rfl rfl rfl rfl

theorem does_returnType : Does EmitState.Plainly [] returnType :=
  fun _ _ => .of_same rfl rfl rfl rfl

theorem does_pointeeOf? (value : Value) :
    Does EmitState.Plainly [] (pointeeOf? value) :=
  fun _ _ => .of_same rfl rfl rfl rfl

theorem does_spelling (type : TypeId) :
    Does EmitState.Plainly [] (spelling type) :=
  fun _ _ => .of_same rfl rfl rfl rfl

theorem does_report (operation : String) (cause : ProblemCause) :
    Does EmitState.Plainly [] (report operation cause) :=
  fun _ _ => .of_same rfl rfl rfl rfl

theorem does_freshId : Does EmitState.Plainly [] freshId :=
  fun _ _ => ⟨⟨⟨[], .refl [], .done ⟨rfl, rfl, rfl, rfl, rfl, rfl⟩⟩,
    Std.Refl.refl _, rfl, rfl⟩, .of_same rfl rfl fun _ => id⟩

theorem does_declareFunction (name : String) (result : TypeId)
    (parameters : List TypeId) (variadic : Bool) :
    Does EmitState.Plainly []
      (declareFunction name result parameters variadic) := by
  refine .step does_module fun module => ?_
  split
  · exact .pure _
  · refine .step (does_types _) fun type => ?_
    exact does_onBuilder (Builder.computes_addFunction name type .external)

theorem tries_typeOf (form : Form) :
    Tries EmitState.Plainly [] (typeOf form) :=
  does_onBuilder (Builder.computes_onTypes _)

theorem tries_mismatch (what : String) (expected found : TypeId) :
    Tries EmitState.Plainly uses
      (mismatch what expected found : Handler Result) := by
  refine .step (.lift (does_spelling expected)) fun _ => ?_
  exact .step (.lift (does_spelling found)) fun _ => .throw _

theorem tries_expectType (what : String) (expected found : TypeId) :
    Tries EmitState.Plainly [] (expectType what expected found) :=
  .ite (.pure ()) (tries_mismatch what expected found)

/-! ## Resolution -/

theorem does_orElseFind {first second : Emission (Option Result)}
    (searches : Does EmitState.Plainly [] first)
    (otherwise : Does EmitState.Plainly [] second) :
    Does EmitState.Plainly [] (orElseFind first second) := by
  refine .step searches fun found => ?_
  split
  · exact .pure _
  · exact otherwise

theorem does_loadSlot (name : String) :
    Does EmitState.Plainly [] (loadSlot name) := by
  refine .step does_context fun context => ?_
  split
  · exact does_onBuilder (Builder.computes_load _ name)
  · exact .pure none

theorem does_boundValue (name : String) :
    Does EmitState.Plainly [] (boundValue name) :=
  .step does_context fun _ => .pure _

theorem does_readAliased (initial : String) :
    Does EmitState.Plainly [] (readAliased initial) := by
  refine .step does_context fun context => ?_
  split
  · exact does_orElseFind (does_loadSlot _) (does_boundValue _)
  · exact .pure none

theorem does_getValue (name : String) :
    Does EmitState.Plainly [] (getValue name) := by
  refine does_orElseFind (does_loadSlot name) ?_
  refine does_orElseFind (does_readAliased name) ?_
  refine does_orElseFind ?_ (does_boundValue name)
  split
  · exact does_readAliased _
  · exact .pure none

theorem tries_valueOf (form : Form) :
    Tries EmitState.Plainly [] (valueOf form) := by
  refine .orFail_step _ fun name _ => ?_
  exact .step (.lift (does_getValue name)) fun _ => .orFail _ _

theorem tries_operand (form : Form) (type : TypeId) :
    Tries EmitState.Plainly [] (operand form type) := by
  refine .step (.lift does_tables) fun table => ?_
  split
  · exact .ite (does_onBuilder (Builder.computes_constantFloat type _))
      (does_onBuilder (Builder.computes_constantInt type _))
  · exact does_onBuilder (Builder.computes_constantFloat type _)
  · exact does_onBuilder (Builder.computes_constantInt type _)
  · exact .ite (does_onBuilder (Builder.computes_constantZero type))
      (tries_valueOf _)
  · exact tries_valueOf _

theorem tries_typedOperand (form : Form) (type : TypeId) (what : String) :
    Tries EmitState.Plainly [] (typedOperand form type what) := by
  refine .step (tries_operand form type) fun value => ?_
  exact .step (tries_expectType _ type value.type) fun _ => .pure value

theorem quietly_pushSlot (name : String) (slot : Value) (type : TypeId) :
    Does EmitState.Quietly [.slotted name]
      (modifyContext (·.pushSlot name slot type)) :=
  quietly_modifyContext (fun context => .slot context name slot type)
    fun _ => rfl

theorem does_bind (name : String) (value : Value) (type : TypeId) :
    Does EmitState.Plainly [.bound name]
      (modifyContext (·.bind name value type)) :=
  does_modifyContext (fun context => .bind context name value type)
    (fun _ => rfl) fun _ => rfl

theorem quietly_ensureSlot (name : String) (type : TypeId) (seeded : Bool) :
    Does EmitState.Quietly [.slotted name]
      (ensureSlot name type seeded) := by
  refine .step does_context.quietly fun context => ?_
  split
  · exact .pure _
  · refine .step (does_onBuilder
      (Builder.computes_entryAlloca type _)).quietly
      fun slot => .step does_context.quietly fun context => ?_
    dsimp only
    have pushed (_ : Unit) : Does EmitState.Quietly [.slotted name] (do
        modifyContext (·.pushSlot name slot type)
        pure slot) :=
      .last (quietly_pushSlot name slot type) fun _ => .pure slot
    split
    · exact .ite (.step (does_onBuilder
        (Builder.computes_store _ slot)).quietly pushed) (pushed ())
    · exact pushed ()

theorem quietly_declareSlot (name : String) (type : TypeId) :
    Does EmitState.Quietly [.slotted name] (declareSlot name type) := by
  refine .step does_tables.quietly fun table =>
    .step does_context.quietly fun context => ?_
  dsimp only
  split
  · exact .pure _
  · refine .step (does_onBuilder
      (Builder.computes_entryAlloca type _)).quietly fun slot => ?_
    exact .last (quietly_pushSlot name slot type) fun _ => .pure slot

/-- A name gets a slot that was asked for. -/
theorem EmitState.Evolves.slot {environment : Environment}
    {state : EmitState} {type : TypeId} (label name : String)
    {filled : Builder} (fills : (Builder.entryAlloca type label
      state.builder).2.Drafts filled) :
    state.Evolves environment [] { state with
      builder := filled
      context := state.context.pushSlot name (Builder.entryAlloca type label
        state.builder).1 type } := by
  intro steady
  obtain ⟨-, -, events, noted, trace⟩ :=
    Builder.entryAlloca_notes steady.entered type label
  have made := ((Builder.computes_entryAlloca type label
    state.builder).traces steady).1
  obtain ⟨later, more, moreTrace⟩ := fills.traces made
  refine ⟨later, events ++ more,
    (trace state.literals).trans (moreTrace state.literals), ?_⟩
  rintro slot ⟨other, entry, member, rfl⟩
  rw [FunctionContext.stack_pushSlot] at member
  split at member
  · next same =>
      subst same
      rcases List.mem_cons.mp member with rfl | old
      · exact .inr (noted.append_left more)
      · exact .inl ⟨other, entry, old, rfl⟩
  · exact .inl ⟨other, entry, member, rfl⟩

theorem does_ensureSlot (name : String) (type : TypeId) (seeded : Bool) :
    Does EmitState.Plainly [.slotted name] (ensureSlot name type seeded) := by
  refine fun environment state =>
    ⟨quietly_ensureSlot name type seeded environment state, ?_⟩
  refine Does.look (fun _ _ => rfl) (fun environment state => ?_)
    environment state
  cases state.context.slot? name with
  | some slot => exact Graded.refl environment state
  | none =>
      let made := Builder.entryAlloca type s!"{name}.slot" state.builder
      have pushed : state.Evolves environment [] { state with
          builder := made.2
          context := state.context.pushSlot name made.1 type } :=
        .slot _ name (Std.Refl.refl made.2)
      dsimp only
      rw [reader_bind_apply, reader_bind_apply]
      generalize FunctionContext.value? _ name = known
      cases known with
      | none => exact pushed
      | some value =>
          dsimp only
          cases seeded && value.type == type with
          | false => exact pushed
          | true =>
              exact .slot _ name
                (Builder.computes_store value made.1 made.2).toDrafts

theorem does_declareSlot (name : String) (type : TypeId) :
    Does EmitState.Plainly [.slotted name] (declareSlot name type) := by
  refine fun environment state =>
    ⟨quietly_declareSlot name type environment state, ?_⟩
  refine Does.look (fun _ _ => rfl) (fun environment state => ?_)
    environment state
  refine Does.look (fun _ _ => rfl) (fun environment state => ?_)
    environment state
  generalize Option.filter _ _ = own
  cases own with
  | some slot => exact Graded.refl environment state
  | none => exact .slot _ name (Std.Refl.refl _)

/-- The uses of a name that is given a result. -/
def results (name : String) : List NameUse := [.published name, .backed name]

/-- A slot that a mutable name has anyway need not be accounted for as one
that is asked for. -/
theorem EmitState.Plainly.asBacked {environment : Environment}
    {state later : EmitState} {name : String}
    (plainly : state.Plainly environment [.slotted name] later)
    (mutable : state.context.isMutable name = true) :
    state.Plainly environment [.backed name] later := by
  obtain ⟨⟨⟨used, fits, touches⟩, builder, loops, targets⟩, evolves⟩ :=
    plainly
  refine ⟨⟨⟨used.map (FunctionContext.asBacked name), ?_,
    touches.asBacked mutable⟩, builder, loops, targets⟩, evolves⟩
  rcases List.subperm_singleton_iff.mp fits with rfl | rfl
  · exact List.nil_subperm
  · simp [FunctionContext.asBacked]

theorem tries_define (name : String) (value : Value) (type : TypeId) :
    Tries EmitState.Plainly (results name) (define name value type) := by
  have publishes : Does EmitState.Plainly [.published name]
      (modifyContext (·.publish name value type)) :=
    does_modifyContext (fun context => .publish context name value type)
      (fun _ => rfl) fun _ => rfl
  refine .bind (.lift publishes) fun _ => ?_
  refine .look (fun _ _ => rfl) fun environment state => ?_
  split
  · next mutable =>
      refine EmitState.Plainly.asBacked ((?stores :
        Tries EmitState.Plainly [.slotted name] _) environment state) mutable
      refine .last (.lift (does_ensureSlot name type false)) fun slot => ?_
      refine .step (.lift (does_pointeeOf? slot)) fun pointee => ?_
      split
      · refine .step (tries_expectType _ _ value.type) fun _ => ?_
        exact does_onBuilder (Builder.computes_store value slot)
      · exact .throw _
  · exact (Tries.pure () : Tries EmitState.Plainly [.backed name] _)
      environment state

/-! ## Conditions -/

theorem does_buildComparison (comparison : Comparison) (typeForm : Form)
    (left right : Value) (name : String) :
    Does EmitState.Plainly []
      (buildComparison comparison typeForm left right name) :=
  .step does_tables fun _ =>
    .ite (does_onBuilder (Builder.computes_compareFloat _ left right name))
      (does_onBuilder (Builder.computes_compareInt _ left right name))

theorem tries_recompute (name : String) (form : Form) :
    Tries EmitState.Plainly [] (recompute name form) := by
  unfold recompute
  split
  · refine .step (tries_typeOf _) fun type => ?_
    refine .step (tries_operand _ type) fun left => ?_
    refine .step (tries_operand _ type) fun right => ?_
    dsimp only
    split
    · exact .map (.lift (does_buildComparison _ _ left right _)) some
    · exact .ite (.map (.lift (does_onBuilder
        (Builder.computes_binary _ left right _))) some) (.pure none)
    · exact .pure none
  · exact .pure none

theorem does_recomputed (name : String) :
    Does EmitState.Plainly [] (recomputed name) := by
  refine .step does_context fun context => ?_
  split
  · exact .step (tries_recompute name _).attempt fun _ => .pure _
  · exact .pure none

end FormCompiler
