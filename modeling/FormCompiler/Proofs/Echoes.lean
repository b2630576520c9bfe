import FormCompiler.Proofs.MovedForms

/-!
# Emission at other places

Where forms stand in their source is recorded in their metadata.  Emission
keeps such places with its problems, and whole forms with the names that they
define.  One emission echoes another when it does the same elsewhere: from the
moved state it goes to the other's moved state, with the same result.

A handler repeats another in the same sense, also where both give up.
-/

namespace FormCompiler

open Ir

/-! ## States elsewhere -/

variable {move : Move}

namespace FunctionContext

/-- The names with their definitions elsewhere. -/
def moved (move : Move) (context : FunctionContext) : FunctionContext :=
  { context with
    definitions := ⟨context.definitions.entries.map fun entry =>
      (entry.1, entry.2.moved move)⟩ }

variable (context : FunctionContext) (name : String)

theorem value?_moved :
    (context.moved move).value? name = context.value? name := rfl

theorem type?_moved :
    (context.moved move).type? name = context.type? name := rfl

theorem alias?_moved :
    (context.moved move).alias? name = context.alias? name := rfl

theorem slot?_moved :
    (context.moved move).slot? name = context.slot? name := rfl

theorem ownSlot?_moved :
    (context.moved move).ownSlot? name = context.ownSlot? name := rfl

theorem isMutable_moved :
    (context.moved move).isMutable name = context.isMutable name := rfl

theorem innermostLoop?_moved :
    (context.moved move).innermostLoop? = context.innermostLoop? := rfl

theorem definition?_moved :
    (context.moved move).definition? name =
      (context.definition? name).map (Form.moved move) := by
  unfold definition? moved NameMap.find?
  induction context.definitions.entries with
  | nil => rfl
  | cons entry entries ih =>
      obtain ⟨other, form⟩ := entry
      simp only [List.map_cons, List.lookup_cons]
      cases name == other with
      | true => rfl
      | false => exact ih

theorem recordDefinition_moved (form : Form) :
    (context.moved move).recordDefinition name (form.moved move) =
      (context.recordDefinition name form).moved move := by
  unfold recordDefinition moved NameMap.insert NameMap.erase
  simp only [List.map_cons, List.filter_map, Function.comp_def]

theorem unwindName_moved (depth : Nat) :
    (context.moved move).unwindName depth name =
      (context.unwindName depth name).moved move := by
  unfold unwindName
  dsimp only
  have same : (context.moved move).slotStacks = context.slotStacks := rfl
  rw [same]
  split
  · rfl
  · split <;> rfl

theorem unwindTo_moved (depth : Nat) :
    (context.moved move).unwindTo depth =
      (context.unwindTo depth).moved move := by
  have folded (names : List String) (context : FunctionContext) :
      names.foldl (fun context name => context.unwindName depth name)
          (context.moved move) =
        (names.foldl (fun context name => context.unwindName depth name)
          context).moved move := by
    induction names generalizing context with
    | nil => rfl
    | cons name names ih =>
        rw [List.foldl_cons, List.foldl_cons, unwindName_moved, ih]
  unfold unwindTo
  have same : (context.moved move).slotStacks = context.slotStacks := rfl
  rw [same, folded]
  rfl

end FunctionContext

/-- The state elsewhere. -/
def EmitState.moved (move : Move) (state : EmitState) : EmitState :=
  { state with
    context := state.context.moved move
    problems := move.earlier ++ state.problems.map (Problem.moved move)
    span := move.place state.span }

/-! ## Echoes -/

variable {Result Part Last Error Item : Type}

/-- The environment of a function that may be named otherwise. -/
def Environment.moved (move : Move) (environment : Environment) :
    Environment :=
  { environment with functionName := move.name environment.functionName }

/-- Elsewhere, the second emission does what the first does, and its result is
moved likewise. -/
def Echoes (move : Move) (strip : Result → Result)
    (first second : Emission Result) : Prop :=
  ∀ environment state, second (environment.moved move) (state.moved move) =
    (strip (first environment state).1,
      (first environment state).2.moved move)

/-- The same of emissions that may fail, whether they do or not. -/
def Repeats (move : Move) (strip : Result → Result)
    (first second : ExceptT Error Emission Result) : Prop :=
  Echoes move (Except.map strip) first.run second.run

theorem echoes_onBuilder (operation : Build Result) :
    Echoes move id (onBuilder operation) (onBuilder operation) :=
  fun _ _ => rfl

namespace Echoes

variable {strip : Part → Part} {last : Result → Result}
  {first second : Emission Part} {next other : Part → Emission Result}

theorem pure (result : Part) :
    Echoes move strip (Pure.pure result) (Pure.pure (strip result)) :=
  fun _ _ => rfl

theorem bind (echoes : Echoes move strip first second)
    (rest : ∀ part, Echoes move last (next part) (other (strip part))) :
    Echoes move last (first >>= next) (second >>= other) := by
  intro environment state
  generalize elsewhere : environment.moved move = there
  show other (second there (state.moved move)).1 there
    (second there (state.moved move)).2 = _
  rw [← elsewhere, echoes]
  exact rest _ environment _

theorem step (echoes : Echoes move id first second)
    (rest : ∀ part, Echoes move last (next part) (other part)) :
    Echoes move last (first >>= next) (second >>= other) :=
  echoes.bind rest

/-- Building code first. -/
theorem build {operation : Build Part}
    (rest : ∀ part, Echoes move last (next part) (other part)) :
    Echoes move last ((liftM operation : Emission Part) >>= next)
      ((liftM operation : Emission Part) >>= other) :=
  step (echoes_onBuilder operation) rest

/-- Looking at the names. -/
theorem context {next other : FunctionContext → Emission Result}
    (rest : ∀ context,
      Echoes move last (next context) (other (context.moved move))) :
    Echoes move last (FormCompiler.context >>= next)
      (FormCompiler.context >>= other) :=
  bind (fun _ _ => rfl) rest

/-- Looking at the state. -/
theorem state {next other : EmitState → Emission Result}
    (rest : ∀ state,
      Echoes move last (next state) (other (state.moved move))) :
    Echoes move last (get >>= next) (get >>= other) :=
  bind (fun _ _ => rfl) rest

theorem modifyContext {change other : FunctionContext → FunctionContext}
    (same : ∀ context,
      other (context.moved move) = (change context).moved move) :
    Echoes move id (FormCompiler.modifyContext change)
      (FormCompiler.modifyContext other) := by
  intro environment state
  show ((), { state.moved move with
    context := other (state.context.moved move) }) = _
  rw [same]
  rfl

theorem ite {condition : Prop} [Decidable condition]
    {first second other otherwise : Emission Result}
    (holds : Echoes move last first second)
    (fails : Echoes move last other otherwise) :
    Echoes move last (if condition then first else other)
      (if condition then second else otherwise) := by
  split
  · exact holds
  · exact fails

theorem forM {items : List Item} {act : Item → Emission Unit}
    (each : ∀ item, Echoes move id (act item) (act item)) :
    Echoes move id (items.forM act) (items.forM act) := by
  induction items with
  | nil => exact pure ()
  | cons item items ih =>
      rw [List.forM_eq_forM, List.forM_cons]
      exact step (each item) fun _ => ih

theorem mapM {items : List Item} {stripItem : Item → Item}
    {act other : Item → Emission Part}
    (each : ∀ item, Echoes move strip (act item) (other (stripItem item))) :
    Echoes move (List.map strip) (items.mapM act)
      ((items.map stripItem).mapM other) := by
  induction items with
  | nil => exact pure []
  | cons item items ih =>
      rw [List.map_cons, List.mapM_cons, List.mapM_cons]
      exact bind (each item) fun _ => bind ih fun _ => pure _

end Echoes

namespace Repeats

variable {strip : Part → Part} {last : Result → Result}

section

variable {first second : ExceptT Error Emission Part}
  {next other : Part → ExceptT Error Emission Result}

theorem pure (result : Part) :
    Repeats move strip (Pure.pure result : ExceptT Error Emission Part)
      (Pure.pure (strip result)) :=
  fun _ _ => rfl

theorem throw (error : Error) :
    Repeats move strip (throw error : ExceptT Error Emission Part)
      (throw error) :=
  fun _ _ => rfl

theorem lift {first second : Emission Part}
    (echoes : Echoes move strip first second) :
    Repeats move strip (liftM first : ExceptT Error Emission Part)
      (liftM second) := by
  intro environment state
  show (Except.ok (second (environment.moved move) (state.moved move)).1,
    (second (environment.moved move) (state.moved move)).2) = _
  rw [echoes]
  rfl

theorem bind (repeats : Repeats move strip first second)
    (rest : ∀ part, Repeats move last (next part) (other (strip part))) :
    Repeats move last (first >>= next) (second >>= other) := by
  unfold Repeats
  rw [ExceptT.run_bind, ExceptT.run_bind]
  refine Echoes.bind repeats fun outcome => ?_
  cases outcome with
  | error cause => exact fun _ _ => rfl
  | ok part => exact rest part

theorem step (repeats : Repeats move id first second)
    (rest : ∀ part, Repeats move last (next part) (other part)) :
    Repeats move last (first >>= next) (second >>= other) :=
  repeats.bind rest

/-- A handler that has nothing to do with places. -/
theorem blind {handler : ExceptT Error Emission Part}
    (same : ∀ environment state,
      handler.run (environment.moved move) (state.moved move) =
        ((handler.run environment state).1,
          (handler.run environment state).2.moved move)) :
    Repeats move id handler handler := by
  intro environment state
  rw [same]
  cases (handler.run environment state).1 <;> rfl

theorem ite {condition : Prop} [Decidable condition]
    {first second other otherwise : ExceptT Error Emission Result}
    (holds : Repeats move last first second)
    (fails : Repeats move last other otherwise) :
    Repeats move last (if condition then first else other)
      (if condition then second else otherwise) := by
  split
  · exact holds
  · exact fails

/-- Giving up under a condition. -/
theorem refusal {condition : Prop} [Decidable condition]
    {fail : ExceptT Error Emission PUnit}
    {next other : PUnit → ExceptT Error Emission Result}
    (blind : Repeats move id fail fail)
    (rest : Repeats move last (next ⟨⟩) (other ⟨⟩)) :
    Repeats move last (if condition then fail >>= next else next ⟨⟩)
      (if condition then fail >>= other else other ⟨⟩) :=
  ite (step blind fun _ => rest) rest

theorem map {change : Part → Result} {first second : Handler Part}
    (repeats : Repeats move id first second) :
    Repeats move id (change <$> first) (change <$> second) := by
  rw [map_eq_pure_bind, map_eq_pure_bind]
  exact step repeats fun part => pure (change part)

theorem forM {items : List Item} {act : Item → Handler Unit}
    (each : ∀ item, Repeats move id (act item) (act item)) :
    Repeats move id (items.forM act) (items.forM act) := by
  induction items with
  | nil => exact pure ()
  | cons item items ih =>
      rw [List.forM_eq_forM, List.forM_cons]
      exact step (each item) fun _ => ih

theorem mapM {items : List Item} {stripItem : Item → Item}
    {act other : Item → Handler Part}
    (each : ∀ item, Repeats move id (act item) (other (stripItem item))) :
    Repeats move id (items.mapM act) ((items.map stripItem).mapM other) := by
  induction items with
  | nil => exact pure []
  | cons item items ih =>
      rw [List.map_cons, List.mapM_cons, List.mapM_cons]
      exact step (each item) fun _ => step ih fun _ => pure _

/-- Building code first. -/
theorem build {operation : Build Part}
    (rest : ∀ part, Repeats move last (next part) (other part)) :
    Repeats move last ((liftM operation : ExceptT Error Emission Part) >>= next)
      ((liftM operation : ExceptT Error Emission Part) >>= other) :=
  step (lift (echoes_onBuilder operation)) rest

/-- Looking at the names. -/
theorem context
    {next other : FunctionContext → ExceptT Error Emission Result}
    (rest : ∀ context,
      Repeats move last (next context) (other (context.moved move))) :
    Repeats move last
      ((liftM FormCompiler.context : ExceptT Error Emission _) >>= next)
      ((liftM FormCompiler.context : ExceptT Error Emission _) >>= other) :=
  bind (fun _ _ => rfl) rest

/-- Looking at the state. -/
theorem state {next other : EmitState → ExceptT Error Emission Result}
    (rest : ∀ state,
      Repeats move last (next state) (other (state.moved move))) :
    Repeats move last (get >>= next) (get >>= other) :=
  bind (fun _ _ => rfl) rest

/-- Looking at the environment. -/
theorem environment
    {next other : Environment → ExceptT Error Emission Result}
    (rest : ∀ environment,
      Repeats move last (next environment) (other (environment.moved move))) :
    Repeats move last (read >>= next) (read >>= other) :=
  bind (fun _ _ => rfl) rest

end

/-! ### Reading parts of forms -/

section

variable {next other : Part → Handler Result}

theorem parse {part otherPart : Except ProblemCause Part}
    (same : otherPart = part.map strip)
    (rest : ∀ part, Repeats move last (next part) (other (strip part))) :
    Repeats move last ((liftM part : Handler Part) >>= next)
      ((liftM otherPart : Handler Part) >>= other) := by
  subst same
  cases part with
  | error cause => exact throw cause
  | ok part => exact rest part

/-- What is read has nothing to do with metadata. -/
theorem read {next other : Part → Handler Result}
    {part : Except ProblemCause Part}
    (rest : ∀ part, Repeats move last (next part) (other part)) :
    Repeats move last ((liftM part : Handler Part) >>= next)
      ((liftM part : Handler Part) >>= other) := by
  cases part with
  | error cause => exact throw cause
  | ok part => exact rest part

theorem orFail (cause : ProblemCause) {part otherPart : Option Part}
    (same : otherPart = part.map strip)
    (rest : ∀ part, Repeats move last (next part) (other (strip part))) :
    Repeats move last (FormCompiler.orFail cause part >>= next)
      (FormCompiler.orFail cause otherPart >>= other) := by
  subst same
  cases part with
  | none => exact throw cause
  | some part => exact rest part

/-- A part that has no metadata. -/
theorem found (cause : ProblemCause) {part : Option Part}
    (rest : ∀ part, Repeats move last (next part) (other part)) :
    Repeats move last (FormCompiler.orFail cause part >>= next)
      (FormCompiler.orFail cause part >>= other) := by
  cases part with
  | none => exact throw cause
  | some part => exact rest part

theorem given (cause : ProblemCause) (part : Option Part) :
    Repeats move id (FormCompiler.orFail cause part)
      (FormCompiler.orFail cause part) := by
  cases part with
  | none => exact throw cause
  | some part => exact pure part

end

section

variable {items : List Form} {index : Nat} {shape : String}

theorem length {length : Nat} {next other : Unit → Handler Result}
    (rest : Repeats move last (next ()) (other ())) :
    Repeats move last
      ((liftM (expectLength items length shape) : Handler Unit) >>= next)
      ((liftM (expectLength (items.map (Form.moved move)) length shape) :
        Handler Unit) >>= other) := by
  rw [expectLength_moved]
  cases expectLength items length shape with
  | error cause => exact throw cause
  | ok _ => exact rest

theorem name {next other : String → Handler Result}
    (rest : ∀ name, Repeats move last (next name) (other name)) :
    Repeats move last
      ((liftM (nameAt items index shape) : Handler String) >>= next)
      ((liftM (nameAt (items.map (Form.moved move)) index shape) :
        Handler String) >>= other) := by
  rw [nameAt_moved]
  cases nameAt items index shape with
  | error cause => exact throw cause
  | ok name => exact rest name

theorem symbol {next other : String → Handler Result}
    (rest : ∀ name, Repeats move last (next name) (other name)) :
    Repeats move last ((liftM (symbolAt items index shape) : Handler String) >>=
        next)
      ((liftM (symbolAt (items.map (Form.moved move)) index shape) :
        Handler String) >>= other) := by
  rw [symbolAt_moved]
  cases symbolAt items index shape with
  | error cause => exact throw cause
  | ok name => exact rest name

theorem itemSymbol {next other : String → Handler Result}
    (rest : ∀ name, Repeats move last (next name) (other name)) :
    Repeats move last ((liftM (itemSymbolAt items index shape) :
        Handler String) >>= next)
      ((liftM (itemSymbolAt (items.map (Form.moved move)) index shape) :
        Handler String) >>= other) := by
  rw [itemSymbolAt_moved]
  cases itemSymbolAt items index shape with
  | error cause => exact throw cause
  | ok name => exact rest name

theorem following {next other : List Form → Handler Result}
    (rest : ∀ forms,
      Repeats move last (next forms) (other (forms.map (Form.moved move)))) :
    Repeats move last ((liftM (itemsFrom items index shape) :
        Handler (List Form)) >>= next)
      ((liftM (itemsFrom (items.map (Form.moved move)) index shape) :
        Handler (List Form)) >>= other) :=
  parse (itemsFrom_moved items index shape) rest

theorem arguments {next other : KeywordArguments → Handler Result}
    (rest : ∀ arguments,
      Repeats move last (next arguments) (other (arguments.moved move))) :
    Repeats move last ((liftM (KeywordArguments.follow items index shape) :
        Handler KeywordArguments) >>= next)
      ((liftM (KeywordArguments.follow (items.map (Form.moved move)) index
        shape) : Handler KeywordArguments) >>= other) :=
  parse (KeywordArguments.follow_moved items index shape) rest

theorem item {next other : Form → Handler Result}
    (rest : ∀ form, Repeats move last (next form) (other (form.moved move))) :
    Repeats move last
      ((liftM (itemAt items index shape) : Handler Form) >>= next)
      ((liftM (itemAt (items.map (Form.moved move)) index shape) :
        Handler Form) >>= other) :=
  parse (itemAt_moved items index shape) rest

theorem vector {next other : List Form → Handler Result}
    (rest : ∀ elements,
      Repeats move last (next elements)
        (other (elements.map (Form.moved move)))) :
    Repeats move last ((liftM (vectorAt items index shape) :
        Handler (List Form)) >>= next)
      ((liftM (vectorAt (items.map (Form.moved move)) index shape) :
        Handler (List Form)) >>= other) :=
  parse (vectorAt_moved items index shape) rest

/-- Reading the type at a position. -/
theorem type {form : Form} {next other : TypeId → Handler Result}
    (rest : ∀ type, Repeats move last (next type) (other type)) :
    Repeats move last (typeOf form >>= next)
      (typeOf (form.moved move) >>= other) := by
  unfold typeOf
  rw [readType_moved]
  exact step (blind fun _ _ => rfl) rest

end

end Repeats

/-! ## Steps of emission -/

section Steps

variable {Result Part : Type} {last : Result → Result}

theorem echoes_report (operation : String) (cause : ProblemCause) :
    Echoes move id (report operation cause) (report operation cause) := by
  intro environment state
  have added : (state.moved move).problems ++
      [Problem.mk (environment.moved move).functionName operation cause
        (move.place state.span)] =
      move.earlier ++ (state.problems ++
        [Problem.mk environment.functionName operation cause
          state.span]).map (Problem.moved move) := by
    rw [List.map_append, ← List.append_assoc]
    rfl
  exact congrArg (fun problems =>
    ((), ({ state.moved move with problems := problems } : EmitState))) added

theorem echoes_freshId : Echoes move id freshId freshId :=
  fun _ _ => rfl

theorem echoes_declareFunction (name : String) (result : TypeId)
    (parameters : List TypeId) (variadic : Bool) :
    Echoes move id (declareFunction name result parameters variadic)
      (declareFunction name result parameters variadic) := by
  refine .step (fun _ _ => rfl) fun module => ?_
  split
  · exact .pure _
  · exact .step (fun _ _ => rfl) fun type => fun _ _ => rfl

theorem repeats_mismatch (what : String) (expected found : TypeId) :
    Repeats move last (mismatch what expected found)
      (mismatch what expected found) := by
  refine .step (fun _ _ => rfl) fun _ => ?_
  exact .step (fun _ _ => rfl) fun _ => .throw _

theorem repeats_expectType (what : String) (expected found : TypeId) :
    Repeats move id (expectType what expected found)
      (expectType what expected found) :=
  .ite (.pure ()) (repeats_mismatch what expected found)

end Steps

/-! ## Resolution -/

section Resolution

variable {Result : Type}

theorem echoes_orElseFind {first second other otherwise :
      Emission (Option Result)}
    (searches : Echoes move id first second)
    (continues : Echoes move id other otherwise) :
    Echoes move id (orElseFind first other) (orElseFind second otherwise) := by
  refine .step searches fun found => ?_
  cases found with
  | some result => exact .pure _
  | none => exact continues

theorem echoes_loadSlot (name : String) :
    Echoes move id (loadSlot name) (loadSlot name) := by
  refine .context fun context => ?_
  rw [FunctionContext.slot?_moved]
  split
  · exact echoes_onBuilder _
  · exact .pure none

theorem echoes_boundValue (name : String) :
    Echoes move id (boundValue name) (boundValue name) :=
  fun _ _ => rfl

theorem echoes_readAliased (initial : String) :
    Echoes move id (readAliased initial) (readAliased initial) := by
  refine .context fun context => ?_
  rw [FunctionContext.alias?_moved]
  split
  · exact echoes_orElseFind (echoes_loadSlot _) (echoes_boundValue _)
  · exact .pure none

theorem echoes_getValue (name : String) :
    Echoes move id (getValue name) (getValue name) := by
  refine echoes_orElseFind (echoes_loadSlot name) ?_
  refine echoes_orElseFind (echoes_readAliased name) ?_
  refine echoes_orElseFind ?_ (echoes_boundValue name)
  split
  · exact echoes_readAliased _
  · exact .pure none

theorem repeats_valueOf (form : Form) :
    Repeats move id (valueOf form) (valueOf (form.moved move)) := by
  unfold valueOf
  rw [localName?_moved]
  refine .found _ fun name => ?_
  exact .step (.lift (echoes_getValue name)) fun _ => .given _ _

theorem repeats_operand (form : Form) (type : TypeId) :
    Repeats move id (operand form type) (operand (form.moved move) type) := by
  unfold operand
  have named : Repeats move id _ _ := repeats_valueOf form
  refine .step (fun _ _ => rfl) fun table => ?_
  cases form with
  | group note bracket items =>
      rw [Form.moved_group] at named ⊢
      exact named
  | tagged note tag value =>
      rw [Form.moved_tagged] at named ⊢
      exact named
  | atom note value =>
      rw [Form.moved_atom] at named ⊢
      cases value with
      | int value => exact .ite (fun _ _ => rfl) (fun _ _ => rfl)
      | float value => exact fun _ _ => rfl
      | bool value => exact fun _ _ => rfl
      | nil => exact .ite (fun _ _ => rfl) named
      | string | keyword | symbol => exact named

theorem repeats_typedOperand (form : Form) (type : TypeId) (what : String) :
    Repeats move id (typedOperand form type what)
      (typedOperand (form.moved move) type what) := by
  unfold typedOperand
  rw [localName?_moved]
  refine .step (repeats_operand form type) fun value => ?_
  exact .step (repeats_expectType _ type value.type) fun _ => .pure value

theorem echoes_ensureSlot (name : String) (type : TypeId) (seeded : Bool) :
    Echoes move id (ensureSlot name type seeded)
      (ensureSlot name type seeded) := by
  refine .context fun context => ?_
  rw [FunctionContext.slot?_moved]
  split
  · exact .pure _
  · refine .step (fun _ _ => rfl) fun slot => .context fun context => ?_
    rw [FunctionContext.value?_moved]
    have pushed (_ : Unit) : Echoes move id (do
        modifyContext (·.pushSlot name slot type)
        pure slot) (do
        modifyContext (·.pushSlot name slot type)
        pure slot) :=
      .step (.modifyContext fun _ => rfl) fun _ => .pure slot
    dsimp only
    split
    · exact .ite (.step (fun _ _ => rfl) pushed) (pushed ())
    · exact pushed ()

theorem echoes_declareSlot (name : String) (type : TypeId) :
    Echoes move id (declareSlot name type) (declareSlot name type) := by
  refine .step (fun _ _ => rfl) fun table => .context fun context => ?_
  rw [FunctionContext.ownSlot?_moved]
  dsimp only
  split
  · exact .pure _
  · refine .step (fun _ _ => rfl) fun slot => ?_
    exact .step (.modifyContext fun _ => rfl) fun _ => .pure slot

theorem repeats_define (name : String) (value : Value) (type : TypeId) :
    Repeats move id (define name value type) (define name value type) := by
  refine .step (.lift (.modifyContext fun _ => rfl)) fun _ => ?_
  refine .context fun context => ?_
  rw [FunctionContext.isMutable_moved]
  refine .ite ?_ (.pure ())
  refine .step (.lift (echoes_ensureSlot name type false)) fun slot => ?_
  refine .step (fun _ _ => rfl) fun pointee => ?_
  split
  · exact .step (repeats_expectType _ _ value.type) fun _ => fun _ _ => rfl
  · exact .throw _

theorem echoes_buildComparison (comparison : Comparison) (typeForm : Form)
    (left right : Value) (name : String) :
    Echoes move id (buildComparison comparison typeForm left right name)
      (buildComparison comparison (typeForm.moved move) left right name) := by
  unfold buildComparison
  rw [isUnsigned_moved]
  exact .step (fun _ _ => rfl) fun table =>
    .ite (echoes_onBuilder _) (echoes_onBuilder _)

theorem repeats_recompute (name : String) (form : Form) :
    Repeats move id (recompute name form)
      (recompute name (form.moved move)) := by
  unfold recompute
  rw [Form.list?_moved, Form.head?_moved]
  cases form.list? with
  | none => exact .pure none
  | some items =>
      match items with
      | [] | [_] | [_, _] | [_, _, _] | [_, _, _, _]
      | _ :: _ :: _ :: _ :: _ :: _ :: _ => exact .pure none
      | [_, _, typeForm, leftForm, rightForm] =>
          refine .type fun type => ?_
          refine .step (repeats_operand leftForm type) fun left => ?_
          refine .step (repeats_operand rightForm type) fun right => ?_
          dsimp only
          split
          · exact .map (.lift (echoes_buildComparison _ typeForm left right _))
          · exact .ite (.map (fun _ _ => rfl)) (.pure none)
          · exact .pure none

theorem echoes_recomputed (name : String) :
    Echoes move id (recomputed name) (recomputed name) := by
  refine .context fun context => ?_
  rw [FunctionContext.definition?_moved]
  cases context.definition? name with
  | none => exact .pure none
  | some form =>
      have attempted : Echoes move id (attempt (recompute name form))
          (attempt (recompute name (form.moved move))) := by
        refine .bind (repeats_recompute name form) fun outcome => ?_
        cases outcome <;> exact .pure _
      exact .step attempted fun _ => .pure _

end Resolution

end FormCompiler
