import FormCompiler.Emit.Resolution
import FormCompiler.Proofs.EmitStates

/-!
# Emission step by step

Emissions that are quiet are put in sequence here.  What is known ahead of an
emission is a fact about the type table that stays true when the table grows:
that it has certain types, and that certain values are well typed.  So facts
need not be carried from state to state by hand; each step adds what its
result satisfies to what is known already.

A handler that gives up leaves a state that is as good as any other.
-/

namespace FormCompiler

open Ir

/-! ## Stable facts -/

/-- Facts that stay true when the type table grows. -/
class Stable (known : TypeTable → Prop) : Prop where
  mono : ∀ {table later : TypeTable}, table.Closed → table.Grows later →
    known table → known later

instance (fact : Prop) : Stable fun _ => fact := ⟨fun _ _ holds => holds⟩

instance (type : TypeId) : Stable fun table => table.Has type :=
  ⟨fun _ grows has => has.mono grows⟩

instance (value : Value) : Stable fun table => value.Typed table :=
  ⟨fun closed grows typed => typed.mono closed grows⟩

instance (earlier : TypeTable) : Stable fun table => earlier.Grows table :=
  ⟨fun _ grows earlierGrows => earlierGrows.trans grows⟩

instance {first second : TypeTable → Prop} [Stable first] [Stable second] :
    Stable fun table => first table ∧ second table :=
  ⟨fun closed grows both =>
    ⟨Stable.mono closed grows both.1, Stable.mono closed grows both.2⟩⟩

instance {Item : Type} {facts : Item → TypeTable → Prop}
    [∀ item, Stable (facts item)] :
    Stable fun table => ∀ item, facts item table :=
  ⟨fun closed grows all item => Stable.mono closed grows (all item)⟩

instance {premise : Prop} {fact : TypeTable → Prop} [Stable fact] :
    Stable fun table => premise → fact table :=
  ⟨fun closed grows holds condition =>
    Stable.mono closed grows (holds condition)⟩

instance (type : TypeId) (kind : TypeKind) :
    Stable fun table => table.Has type ∧ table.kind type = kind :=
  ⟨fun _ grows both => ⟨both.1.mono grows, by
    rw [both.1.kind_eq grows, both.2]⟩⟩

/-! ## Quiet emissions -/

variable {scene : Scene} {known enough : TypeTable → Prop}
  {Result Other Part : Type} {gives : TypeTable → Result → Prop}
  {goal : TypeTable → Other → Prop}

/-- Where something is known of the type table, an emission is quiet and
gives a good result. -/
def Emits (scene : Scene) (known : TypeTable → Prop)
    (emission : Emission Result) (gives : TypeTable → Result → Prop) : Prop :=
  ∀ state, state.Ready scene → known state.table →
    Preserves (EmitState.Ready scene) EmitState.Quiet state
      (emission scene.environment) fun later result => gives later.table result

/-- One emission after another, from a certain state. -/
theorem Preserves.before {state : EmitState} {emission : Emission Result}
    {next : Result → Emission Other} {good : EmitState → Result → Prop}
    {goodLater : EmitState → Other → Prop}
    (preserves : Preserves (EmitState.Ready scene) EmitState.Quiet state
      (emission scene.environment) good)
    (rest : ∀ later result, later.Ready scene → state.Quiet later →
      good later result →
      Preserves (EmitState.Ready scene) EmitState.Quiet later
        (next result scene.environment) goodLater) :
    Preserves (EmitState.Ready scene) EmitState.Quiet state
      ((emission >>= next) scene.environment) goodLater :=
  preserves.bind rest

/-- Looking at a certain state first. -/
theorem Preserves.look {state : EmitState} {emission : Emission Part}
    {seen : Part} {next : Part → Emission Result}
    {good : EmitState → Result → Prop}
    (looks : emission scene.environment state = (seen, state))
    (rest : Preserves (EmitState.Ready scene) EmitState.Quiet state
      (next seen scene.environment) good) :
    Preserves (EmitState.Ready scene) EmitState.Quiet state
      ((emission >>= next) scene.environment) good := by
  have run : (emission >>= next) scene.environment state =
      next seen scene.environment state := by
    show next (emission scene.environment state).1 scene.environment
      (emission scene.environment state).2 = _
    rw [looks]
  exact ⟨run ▸ rest.holds, run ▸ rest.follows, run ▸ rest.good⟩

/-- A handler that looks at a certain state first. -/
theorem Preserves.lookAt {state : EmitState} {look : Emission Part}
    {seen : Part} {next : Part → Handler Result}
    {good : EmitState → Except ProblemCause Result → Prop}
    (looks : look scene.environment state = (seen, state))
    (rest : Preserves (EmitState.Ready scene) EmitState.Quiet state
      ((next seen).run scene.environment) good) :
    Preserves (EmitState.Ready scene) EmitState.Quiet state
      (((liftM look : Handler Part) >>= next).run scene.environment) good := by
  have lifted : (liftM look : Handler Part).run scene.environment state =
      (.ok seen, state) := by
    show (Except.ok (look scene.environment state).1,
      (look scene.environment state).2) = _
    rw [looks]
  rw [ExceptT.run_bind]
  exact Preserves.look lifted rest

namespace Emits

variable {emission : Emission Result} {next : Result → Emission Other}

theorem given (emits : Emits scene enough emission gives)
    (implies : ∀ table, known table → enough table) :
    Emits scene known emission gives :=
  fun state ready holds => emits state ready (implies _ holds)

theorem weaken {other : TypeTable → Result → Prop}
    (emits : Emits scene known emission gives)
    (implies : ∀ table result, gives table result → other table result) :
    Emits scene known emission other :=
  fun state ready holds =>
    (emits state ready holds).weaken fun _ result => implies _ result

theorem pure {result : Result}
    (good : ∀ table, known table → gives table result) :
    Emits scene known (Pure.pure result) gives :=
  fun _ ready holds => Preserves.pure ready (good _ holds)

/-- One emission after another. -/
theorem step [Stable known] (first : Emits scene enough emission gives)
    (implies : ∀ table, known table → enough table)
    (rest : ∀ result, Emits scene
      (fun table => known table ∧ gives table result) (next result) goal) :
    Emits scene known (emission >>= next) goal := by
  intro state ready holds
  apply (first state ready (implies _ holds)).before
  intro later result laterReady quiet good
  exact rest result later laterReady
    ⟨Stable.mono ready.builder.sound.types quiet.grows holds, good⟩

theorem map [Stable known] (emits : Emits scene known emission gives)
    {change : Result → Other}
    (implies : ∀ table result, known table → gives table result →
      goal table (change result)) :
    Emits scene known (change <$> emission) goal := by
  rw [map_eq_pure_bind]
  refine .step emits (fun _ holds => holds) fun result => ?_
  exact .pure fun table both => implies table result both.1 both.2

theorem ite {condition : Prop} [Decidable condition]
    {other : Emission Result}
    (holds : condition → Emits scene known emission gives)
    (fails : ¬condition → Emits scene known other gives) :
    Emits scene known (if condition then emission else other) gives := by
  split
  · next yes => exact holds yes
  · next no => exact fails no

/-- Looking at the state first. -/
theorem look {look : Emission Part} {seen : EmitState → Part}
    {next : Part → Emission Result}
    (looks : ∀ state, look scene.environment state = (seen state, state))
    (rest : ∀ state, state.Ready scene → known state.table → Emits scene
      (fun table => known table ∧ state.table.Grows table)
      (next (seen state)) gives) :
    Emits scene known (look >>= next) gives := by
  intro state ready holds
  exact Preserves.look (looks state) (rest state ready holds state ready
    ⟨holds, TypeTable.Grows.refl _⟩)

/-- An emission for every element of a list. -/
theorem forM {Item : Type} [Stable known] {act : Item → Emission Unit}
    {items : List Item}
    (each : ∀ item ∈ items, Emits scene known (act item) fun _ _ => True) :
    Emits scene known (items.forM act) fun _ _ => True := by
  induction items with
  | nil => exact .pure fun _ _ => trivial
  | cons item items ih =>
      rw [List.forall_mem_cons] at each
      rw [List.forM_eq_forM, List.forM_cons]
      refine .step each.1 (fun _ holds => holds) fun _ => ?_
      exact (ih each.2).given fun _ holds => holds.1

end Emits

/-! ## Steps of an emission -/

theorem preserves_onBuilder {state : EmitState} (ready : state.Ready scene)
    {operation : Build Result} {good : Builder → Result → Prop}
    (builds : state.builder.Builds operation good) :
    Preserves (EmitState.Ready scene) EmitState.Quiet state
      (onBuilder operation scene.environment)
      fun later result => good later.builder result := by
  obtain ⟨laterReady, quiet, good⟩ := builds
  have sound := ready.toSound.withBuilder ready.builder.sound.types
    quiet.module.develops fun _ _ _ => quiet.module.leads
  exact ⟨⟨sound, laterReady⟩,
    ⟨quiet, fun _ escapes => .inl escapes, rfl, List.prefix_refl _⟩, good⟩

theorem emits_onBuilder {operation : Build Result}
    (builds : ∀ builder : Builder, builder.Ready →
      known builder.module.types →
      builder.Builds operation fun later result =>
        gives later.module.types result) :
    Emits scene known (onBuilder operation) gives :=
  fun state ready holds =>
    preserves_onBuilder ready (builds state.builder ready.builder holds)

theorem emits_modifyContext {change : FunctionContext → FunctionContext}
    (keeps : ∀ context table, known table → context.Known table →
      (change context).Known table)
    (loops : ∀ context, (change context).loops = context.loops) :
    Emits scene known (modifyContext change) fun _ _ => True := by
  intro state ready holds
  have fewer : ∀ targets ∈ (change state.context).loops,
      targets ∈ state.context.loops := by
    rw [loops]
    exact fun _ member => member
  have sound := ready.toSound.withContext
    (keeps state.context _ holds ready.context) fewer
  refine ⟨⟨sound, ready.builder⟩,
    ⟨Builder.Quiet.refl _, ?_, rfl, List.prefix_refl _⟩, trivial⟩
  rintro block (⟨targets, member, leads⟩ | others)
  · exact .inl (.inl ⟨targets, fewer targets member, leads⟩)
  · exact .inl (.inr others)

/-- Changes of what no fact is about. -/
theorem emits_modify {change : EmitState → EmitState}
    (same : ∀ state, ∃ literals closureCount problems span, change state =
      { state with literals, closureCount, problems, span }) :
    Emits scene known (modify change : Emission Unit) fun _ _ => True := by
  intro state ready _
  obtain ⟨literals, closureCount, problems, span, same⟩ := same state
  have laterReady : (change state).Ready scene := by
    rw [same]
    refine ⟨⟨ready.context, ready.layouts, ready.pending, ready.apart,
      ready.coroutine, ready.escapes, ?_⟩, ready.builder⟩
    intro join member
    have settled := ready.matchEnds join member
    exact ⟨settled.known, settled.notFirst, settled.has, settled.aside,
      settled.settled⟩
  have quiet : state.Quiet (change state) := by
    rw [same]
    exact ⟨Builder.Quiet.refl _, fun _ escapes => .inl escapes, rfl,
      List.prefix_refl _⟩
  exact ⟨laterReady, quiet, trivial⟩

theorem emits_report (operation : String) (cause : ProblemCause) :
    Emits scene known (report operation cause) fun _ _ => True :=
  emits_modify fun state => ⟨state.literals, state.closureCount,
    state.problems ++ [⟨scene.environment.functionName, operation, cause,
      state.span⟩], state.span, rfl⟩

/-! ## Handlers -/

/-- A handler is quiet whether it gives up or not. -/
def Handles (scene : Scene) (known : TypeTable → Prop)
    (handler : Handler Result) (gives : TypeTable → Result → Prop) : Prop :=
  Emits scene known handler.run fun table outcome =>
    ∀ result, outcome = .ok result → gives table result

namespace Handles

variable {handler : Handler Result} {next : Result → Handler Other}

theorem given (handles : Handles scene enough handler gives)
    (implies : ∀ table, known table → enough table) :
    Handles scene known handler gives :=
  Emits.given handles implies

theorem weaken {other : TypeTable → Result → Prop}
    (handles : Handles scene known handler gives)
    (implies : ∀ table result, gives table result → other table result) :
    Handles scene known handler other :=
  Emits.weaken handles fun table _ good result same =>
    implies table result (good result same)

theorem pure {result : Result}
    (good : ∀ table, known table → gives table result) :
    Handles scene known (Pure.pure result) gives := by
  apply Emits.pure
  rintro table holds _ ⟨⟩
  exact good table holds

theorem throw (cause : ProblemCause) :
    Handles scene known (throw cause : Handler Result) gives := by
  apply Emits.pure
  rintro table holds _ ⟨⟩

/-- What follows a failure is never done. -/
theorem throw_bind (cause : ProblemCause) :
    Handles scene known ((MonadExcept.throw cause : Handler Result) >>= next)
      goal :=
  throw cause

theorem lift {emission : Emission Result}
    (emits : Emits scene known emission gives) :
    Handles scene known (liftM emission : Handler Result) gives := by
  intro state ready holds
  obtain ⟨laterReady, quiet, good⟩ := emits state ready holds
  refine ⟨laterReady, quiet, ?_⟩
  rintro _ ⟨⟩
  exact good

/-- One handler after another. -/
theorem step [Stable known] (first : Handles scene enough handler gives)
    (implies : ∀ table, known table → enough table)
    (rest : ∀ result, Handles scene
      (fun table => known table ∧ gives table result) (next result) goal) :
    Handles scene known (handler >>= next) goal := by
  unfold Handles
  rw [ExceptT.run_bind]
  apply Emits.step first implies
  intro outcome
  cases outcome with
  | error cause => exact throw cause
  | ok result =>
      exact (rest result).given fun _ both => ⟨both.1, both.2 result rfl⟩

/-- What follows a handler that always gives up is never done. -/
theorem fail_bind [Stable known]
    (fails : Handles scene known handler fun _ _ => False) :
    Handles scene known (handler >>= next) goal :=
  .step fails (fun _ holds => holds) fun _ _ _ both => both.2.elim

theorem map [Stable known] (handles : Handles scene known handler gives)
    {change : Result → Other}
    (implies : ∀ table result, known table → gives table result →
      goal table (change result)) :
    Handles scene known (change <$> handler) goal := by
  rw [map_eq_pure_bind]
  refine .step handles (fun _ holds => holds) fun result => ?_
  exact .pure fun table both => implies table result both.1 both.2

theorem ite {condition : Prop} [Decidable condition]
    {other : Handler Result}
    (holds : condition → Handles scene known handler gives)
    (fails : ¬condition → Handles scene known other gives) :
    Handles scene known (if condition then handler else other) gives := by
  split
  · next yes => exact holds yes
  · next no => exact fails no

/-- A handler for every element of a list. -/
theorem mapM {Item : Type} [Stable known]
    [∀ result, Stable fun table => gives table result]
    {read : Item → Handler Result} {items : List Item}
    (each : ∀ item ∈ items, Handles scene known (read item) gives) :
    Handles scene known (items.mapM read) fun table results =>
      ∀ result ∈ results, gives table result := by
  induction items with
  | nil => exact .pure fun _ _ => by simp
  | cons item items ih =>
      rw [List.forall_mem_cons] at each
      rw [List.mapM_cons]
      refine .step each.1 (fun _ holds => holds) fun result => ?_
      refine .step (ih each.2) (fun _ holds => holds.1) fun results => ?_
      refine .pure fun table holds => ?_
      rw [List.forall_mem_cons]
      exact ⟨holds.1.2, holds.2⟩

/-- A handler without a result for every element of a list. -/
theorem forM {Item : Type} [Stable known] {act : Item → Handler Unit}
    {items : List Item}
    (each : ∀ item ∈ items, Handles scene known (act item) fun _ _ => True) :
    Handles scene known (items.forM act) fun _ _ => True := by
  induction items with
  | nil => exact .pure fun _ _ => trivial
  | cons item items ih =>
      rw [List.forall_mem_cons] at each
      rw [List.forM_eq_forM, List.forM_cons]
      refine .step each.1 (fun _ holds => holds) fun _ => ?_
      exact (ih each.2).given fun _ holds => holds.1

/-- Reading a part of the form first. -/
theorem parse {part : Except ProblemCause Part}
    {next : Part → Handler Result}
    (rest : ∀ item, part = .ok item →
      Handles scene known (next item) gives) :
    Handles scene known
      ((liftM part : Handler Part) >>= next) gives := by
  cases part with
  | error cause => exact throw cause
  | ok item => exact rest item rfl

theorem orFail (cause : ProblemCause) {found : Option Result}
    (good : ∀ result, found = some result → ∀ table, known table →
      gives table result) :
    Handles scene known (FormCompiler.orFail cause found) gives := by
  cases found with
  | none => exact throw cause
  | some result => exact pure (good result rfl)

theorem orFail_step (cause : ProblemCause) {found : Option Part}
    {next : Part → Handler Result}
    (rest : ∀ part, found = some part →
      Handles scene known (next part) gives) :
    Handles scene known (FormCompiler.orFail cause found >>= next) gives := by
  cases found with
  | none => exact throw cause
  | some part => exact rest part rfl

/-- Looking at the state first. -/
theorem look {look : Emission Part} {seen : EmitState → Part}
    {next : Part → Handler Result}
    (looks : ∀ state, look scene.environment state = (seen state, state))
    (rest : ∀ state, state.Ready scene → known state.table → Handles scene
      (fun table => known table ∧ state.table.Grows table)
      (next (seen state)) gives) :
    Handles scene known ((liftM look : Handler Part) >>= next) gives := by
  have lifted : ∀ state, (liftM look : Handler Part).run scene.environment
      state = (.ok (seen state), state) := by
    intro state
    show (Except.ok (look scene.environment state).1,
      (look scene.environment state).2) = _
    rw [looks]
  unfold Handles
  rw [ExceptT.run_bind]
  exact Emits.look lifted rest

end Handles

/-- A handler that gave up has no result. -/
theorem emits_attempt [Stable known] {handler : Handler Result}
    (handles : Handles scene known handler gives) :
    Emits scene known (attempt handler) fun table found =>
      ∀ result ∈ found, gives table result := by
  refine .step handles (fun _ holds => holds) fun outcome => ?_
  refine .pure fun table both result found => ?_
  cases outcome with
  | error cause => cases found
  | ok given =>
      cases found
      exact both.2 result rfl

theorem handles_typeOf (form : Form) :
    Handles scene known (typeOf form) fun table type => table.Has type :=
  emits_onBuilder fun _ ready _ =>
    Builder.builds_onTypes ready (reads_type ready.sound.types form)

theorem handles_mismatch (what : String) (expected found : TypeId) :
    Handles scene known (mismatch what expected found : Handler Result)
      gives := by
  unfold mismatch
  refine .look (fun _ => rfl) fun _ _ _ => ?_
  refine .look (fun _ => rfl) fun _ _ _ => ?_
  exact .throw _

theorem handles_expectType (what : String) (expected found : TypeId) :
    Handles scene known (expectType what expected found)
      fun _ _ => found = expected := by
  unfold expectType
  split
  · next same => exact .pure fun _ _ => same
  · exact handles_mismatch what expected found

/-! ## Types -/

theorem emits_atomic {kind : TypeKind} (atomic : kind.parts = []) :
    Emits scene known (liftM (TypeTable.intern kind) : Emission TypeId)
      fun table type => table.Has type :=
  emits_onBuilder fun _ ready _ =>
    (Builder.builds_atomic ready atomic).weaken fun _ _ found => found.1

theorem emits_int (bits : Nat) :
    Emits scene known (liftM (TypeTable.int bits) : Emission TypeId)
      fun table type => table.Has type ∧ table.kind type = .int bits :=
  emits_onBuilder fun _ ready _ => Builder.builds_atomic ready rfl

theorem emits_named (name : String) :
    Emits scene known (liftM (TypeTable.named name) : Emission TypeId)
      fun table type => table.Has type ∧ table.kind type = .named name :=
  emits_onBuilder fun _ ready _ => Builder.builds_atomic ready rfl

theorem emits_pointer (pointee : TypeId) :
    Emits scene (fun table => table.Has pointee)
      (liftM (TypeTable.pointer pointee) : Emission TypeId)
      fun table type => table.Has type :=
  emits_onBuilder fun _ ready has =>
    (Builder.builds_pointer ready has).weaken fun _ _ found => found.1

theorem emits_bytePointer :
    Emits scene known (liftM TypeTable.bytePointer : Emission TypeId)
      fun table type => table.Has type :=
  emits_onBuilder fun _ ready _ =>
    (Builder.builds_bytePointer ready).weaken fun _ _ found => found.1

theorem emits_array (element : TypeId) (length : Nat) :
    Emits scene (fun table => table.Has element)
      (liftM (TypeTable.array element length) : Emission TypeId)
      fun table type => table.Has type :=
  emits_onBuilder fun _ ready has => Builder.builds_onTypes ready
    ((TypeTable.yields_array ready.sound.types has length).weaken
      fun _ _ found => found.1)

/-! ## Constants and addresses -/

theorem emits_constantUndef (type : TypeId) :
    Emits scene (fun table => table.Has type)
      (liftM (Builder.constantUndef type) : Emission Value)
      fun table value => value.Typed table ∧ value.type = type :=
  emits_onBuilder fun _ ready has => Builder.builds_constantUndef ready has

theorem emits_constantZero (type : TypeId) :
    Emits scene (fun table => table.Has type)
      (liftM (Builder.constantZero type) : Emission Value)
      fun table value => value.Typed table ∧ value.type = type :=
  emits_onBuilder fun _ ready has => Builder.builds_constantZero ready has

theorem emits_constantInt (type : TypeId) (number : Int) :
    Emits scene (fun table => table.Has type)
      (liftM (Builder.constantInt type number) : Emission Value)
      fun table value => value.Typed table ∧ value.type = type :=
  emits_onBuilder fun _ ready has =>
    Builder.builds_constantInt ready has number

theorem emits_constantFloat (type : TypeId) (number : Double) :
    Emits scene (fun table => table.Has type)
      (liftM (Builder.constantFloat type number) : Emission Value)
      fun table value => value.Typed table ∧ value.type = type :=
  emits_onBuilder fun _ ready has =>
    Builder.builds_constantFloat ready has number

theorem emits_constantI32 (number : Int) :
    Emits scene known (liftM (Builder.constantI32 number) : Emission Value)
      fun table value => value.Typed table :=
  emits_onBuilder fun _ ready _ => Builder.builds_constantI32 ready number

theorem emits_constantBool (truth : Bool) :
    Emits scene known (liftM (Builder.constantBool truth) : Emission Value)
      fun table value => value.Typed table ∧ value.operand.type = .int 1 :=
  emits_onBuilder fun _ ready _ => Builder.builds_constantBool ready truth

theorem emits_constantNone :
    Emits scene known (liftM Builder.constantNone : Emission Value)
      fun table value => value.Typed table :=
  emits_onBuilder fun _ ready _ => Builder.builds_constantNone ready

theorem emits_globalAddress (id : GlobalId) :
    Emits scene known (liftM (Builder.globalAddress id) : Emission Value)
      fun table value => value.Typed table :=
  emits_onBuilder fun _ ready _ => Builder.builds_globalAddress ready id

theorem emits_functionAddress (id : FunctionId) :
    Emits scene known (liftM (Builder.functionAddress id) : Emission Value)
      fun table value => value.Typed table :=
  emits_onBuilder fun _ ready _ =>
    (Builder.builds_functionAddress ready id).weaken fun _ _ found => found.1

/-! ## Instructions -/

theorem emits_binary (operator : BinaryOperator) (left right : Value)
    (name : String) :
    Emits scene known
      (liftM (Builder.binary operator left right name) : Emission Value)
      fun _ value => Builder.Resembles left value :=
  emits_onBuilder fun _ ready _ =>
    Builder.builds_binary ready operator left right name

theorem emits_typedBinary (operator : BinaryOperator) (left right : Value)
    (name : String) :
    Emits scene
      (fun table => left.Typed table ∧ left.isFirstClass = true)
      (liftM (Builder.binary operator left right name) : Emission Value)
      fun table value => value.Typed table ∧ value.isFirstClass = true := by
  refine emits_onBuilder fun builder ready both => ?_
  apply (Builder.builds_binary ready operator left right name).imp
  intro later value _ quiet resembles
  have typed := both.1.mono ready.sound.types quiet.module.types
  exact ⟨resembles.typed typed both.2, resembles.firstClass⟩

theorem emits_compareInt (predicate : IntPredicate) (left right : Value)
    (name : String) :
    Emits scene known
      (liftM (Builder.compareInt predicate left right name) : Emission Value)
      fun table value => value.Typed table ∧ value.operand.type = .int 1 :=
  emits_onBuilder fun _ ready _ =>
    Builder.builds_compareInt ready predicate left right name

theorem emits_compareFloat (predicate : FloatPredicate) (left right : Value)
    (name : String) :
    Emits scene known
      (liftM (Builder.compareFloat predicate left right name) : Emission Value)
      fun table value => value.Typed table ∧ value.operand.type = .int 1 :=
  emits_onBuilder fun _ ready _ =>
    Builder.builds_compareFloat ready predicate left right name

theorem emits_cast (operator : CastOperator) (value : Value)
    (target : TypeId) (name : String) :
    Emits scene (fun table => value.Typed table ∧ table.Has target)
      (liftM (Builder.cast operator value target name) : Emission Value)
      fun table value => value.Typed table ∧ value.type = target :=
  emits_onBuilder fun _ ready both =>
    Builder.builds_cast ready operator both.1 both.2 name

theorem emits_bitcast (value : Value) (target : TypeId) (name : String) :
    Emits scene (fun table => value.Typed table ∧ table.Has target)
      (liftM (Builder.bitcast value target name) : Emission Value)
      fun table value => value.Typed table ∧ value.type = target :=
  emits_cast .bitcast value target name

theorem emits_alloca (type : TypeId) (name : String) :
    Emits scene (fun table => table.Has type)
      (liftM (Builder.alloca type name) : Emission Value)
      fun table value => value.Typed table :=
  emits_onBuilder fun _ ready has =>
    (Builder.builds_alloca ready has name).weaken fun _ _ found => found.1

theorem emits_entryAlloca (type : TypeId) (name : String) :
    Emits scene (fun table => table.Has type)
      (liftM (Builder.entryAlloca type name) : Emission Value)
      fun table value => value.Typed table :=
  emits_onBuilder fun _ ready has =>
    (Builder.builds_entryAlloca ready has name).weaken
      fun _ _ found => found.1

theorem emits_load (pointer : Value) (name : String) :
    Emits scene known
      (liftM (Builder.load pointer name) : Emission (Option Value))
      fun table found => ∀ value ∈ found, value.Typed table :=
  emits_onBuilder fun _ ready _ => Builder.builds_load ready pointer name

theorem emits_store (value pointer : Value) :
    Emits scene known (liftM (Builder.store value pointer) : Emission Unit)
      fun _ _ => True :=
  emits_onBuilder fun _ ready _ => Builder.builds_store ready value pointer

theorem emits_elementPointer (base : Value) (indices : List Value)
    (name : String) :
    Emits scene known
      (liftM (Builder.elementPointer base indices name) :
        Emission (Option Value))
      fun table found => ∀ value ∈ found, value.Typed table :=
  emits_onBuilder fun _ ready _ =>
    Builder.builds_elementPointer ready base indices name

theorem emits_fieldPointer (base : Value) (field : Nat) (name : String) :
    Emits scene known
      (liftM (Builder.fieldPointer base field name) :
        Emission (Option Value))
      fun table found => ∀ value ∈ found, value.Typed table :=
  emits_onBuilder fun _ ready _ =>
    Builder.builds_fieldPointer ready base field name

theorem emits_offsetPointer (base : Value) (offset : Nat) (name : String) :
    Emits scene (fun table => base.Typed table)
      (liftM (Builder.bytePointer base offset name) :
        Emission (Option Value))
      fun table found => ∀ value ∈ found, value.Typed table :=
  emits_onBuilder fun _ ready typed =>
    Builder.builds_offsetPointer ready typed offset name

theorem emits_call (callee : Value) (arguments : List Value)
    (name : String) :
    Emits scene known
      (liftM (Builder.call callee arguments name) : Emission (Option Value))
      fun table found => ∀ value ∈ found, value.Typed table :=
  emits_onBuilder fun _ ready _ =>
    Builder.builds_call ready callee arguments name

theorem emits_vaArg (list : Value) (type : TypeId) (name : String) :
    Emits scene (fun table => table.Has type)
      (liftM (Builder.vaArg list type name) : Emission Value)
      fun table value => value.Typed table ∧ value.type = type :=
  emits_onBuilder fun _ ready has =>
    Builder.builds_vaArg ready list has name

end FormCompiler
