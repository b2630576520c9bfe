import FormCompiler.Proofs.Detours
import FormCompiler.Proofs.Effects

/-!
# Problems that were recorded

A problem that was recorded stays recorded, and the place for the next one is
the same before and after an emission.  Simple instructions record nothing by
themselves, so whatever is awaited of new problems, what they are made of
decides it.  Where there is no new problem after some emission, nothing on the
way gave up.
-/

namespace FormCompiler

open Ir

/-- The place stays, and new problems follow those so far, each one as awaited
at this place. -/
structure EmitState.Collects (awaited : Option Span → Problem → Prop)
    (_ : Environment) (_ : List NameUse) (state later : EmitState) :
    Prop where
  span : later.span = state.span
  added : ∃ added, later.problems = state.problems ++ added ∧
    ∀ problem ∈ added, awaited state.span problem

/-- Any problem is as good as another. -/
def AnyProblem (_ : Option Span) (_ : Problem) : Prop := True

variable {Result : Type} {awaited : Option Span → Problem → Prop}

namespace EmitState.Collects

variable {environment : Environment} {uses : List NameUse}
  {state later : EmitState}

theorem silent (span : later.span = state.span)
    (problems : later.problems = state.problems) :
    Collects awaited environment uses state later :=
  ⟨span, [], by rw [problems, List.append_nil], List.forall_mem_nil _⟩

theorem isPrefix (collects : Collects awaited environment uses state later) :
    state.problems <+: later.problems := by
  obtain ⟨added, same, -⟩ := collects.added
  exact ⟨added, same.symm⟩

end EmitState.Collects

instance : Graded (EmitState.Collects awaited) where
  refl _ _ := .silent rfl rfl
  trans := by
    rintro _ _ _ _ _ _ ⟨span, added, grown, each⟩ ⟨rest, more, later, others⟩
    refine ⟨rest.trans span, added ++ more, ?_, ?_⟩
    · rw [later, grown, List.append_assoc]
    · rw [span] at others
      exact List.forall_mem_append.mpr ⟨each, others⟩
  mono _ collects := ⟨collects.span, collects.added⟩

/-- An emission keeps the problems and adds such as are awaited. -/
abbrev Collects (awaited : Option Span → Problem → Prop)
    (emission : Emission Result) : Prop :=
  Does (EmitState.Collects awaited) [] emission

/-- The same of a handler, whether it gives up or not. -/
abbrev CollectsAnyhow (awaited : Option Span → Problem → Prop)
    (handler : Handler Result) : Prop :=
  Tries (EmitState.Collects awaited) [] handler

/-! ## Steps -/

theorem collects_onBuilder (operation : Build Result) :
    Collects awaited (onBuilder operation) :=
  fun _ _ => .silent rfl rfl

theorem collects_built (operation : Build Result) :
    CollectsAnyhow awaited (liftM operation) :=
  collects_onBuilder operation

theorem collects_modifyContext (change : FunctionContext → FunctionContext) :
    Collects awaited (modifyContext change) :=
  fun _ _ => .silent rfl rfl

theorem collects_context : Collects awaited context :=
  fun _ _ => .silent rfl rfl

theorem collects_types : Collects awaited types := fun _ _ => .silent rfl rfl

theorem collects_isTerminated : Collects awaited isTerminated :=
  fun _ _ => .silent rfl rfl

theorem collects_returnType : Collects awaited returnType :=
  fun _ _ => .silent rfl rfl

theorem collects_pointeeOf? (value : Value) :
    Collects awaited (pointeeOf? value) :=
  fun _ _ => .silent rfl rfl

theorem collects_spelling (type : TypeId) : Collects awaited (spelling type) :=
  fun _ _ => .silent rfl rfl

theorem collects_report {operation : String} {cause : ProblemCause}
    (expects : ∀ function span,
      awaited span ⟨function, operation, cause, span⟩) :
    Collects awaited (report operation cause) :=
  fun _ _ => ⟨rfl, [_], rfl, List.forall_mem_singleton.mpr (expects _ _)⟩

theorem collects_typeOf (form : Form) : CollectsAnyhow awaited (typeOf form) :=
  fun _ _ => .silent rfl rfl

theorem collects_expectType (what : String) (expected found : TypeId) :
    CollectsAnyhow awaited (expectType what expected found) := by
  refine .ite (.pure ()) ?_
  refine .step (.lift (collects_spelling expected)) fun _ => ?_
  exact .step (.lift (collects_spelling found)) fun _ => .throw _

/-! ## Resolution -/

theorem collects_orElseFind {first second : Emission (Option Result)}
    (searches : Collects awaited first)
    (otherwise : Collects awaited second) :
    Collects awaited (orElseFind first second) := by
  refine .step searches fun found => ?_
  split
  · exact .pure _
  · exact otherwise

theorem collects_loadSlot (name : String) :
    Collects awaited (loadSlot name) := by
  refine .step collects_context fun context => ?_
  split
  · exact collects_onBuilder _
  · exact .pure none

theorem collects_boundValue (name : String) :
    Collects awaited (boundValue name) :=
  .step collects_context fun _ => .pure _

theorem collects_readAliased (initial : String) :
    Collects awaited (readAliased initial) := by
  refine .step collects_context fun context => ?_
  split
  · exact collects_orElseFind (collects_loadSlot _) (collects_boundValue _)
  · exact .pure none

theorem collects_getValue (name : String) :
    Collects awaited (getValue name) := by
  refine collects_orElseFind (collects_loadSlot name) ?_
  refine collects_orElseFind (collects_readAliased name) ?_
  refine collects_orElseFind ?_ (collects_boundValue name)
  split
  · exact collects_readAliased _
  · exact .pure none

theorem collects_valueOf (form : Form) :
    CollectsAnyhow awaited (valueOf form) := by
  refine .orFail_step _ fun name _ => ?_
  exact .step (.lift (collects_getValue name)) fun _ => .orFail _ _

theorem collects_operand (form : Form) (type : TypeId) :
    CollectsAnyhow awaited (operand form type) := by
  refine .step (.lift collects_types) fun table => ?_
  split
  · exact .ite (collects_built _) (collects_built _)
  · exact collects_built _
  · exact collects_built _
  · exact .ite (collects_built _) (collects_valueOf _)
  · exact collects_valueOf _

theorem collects_typedOperand (form : Form) (type : TypeId) (what : String) :
    CollectsAnyhow awaited (typedOperand form type what) := by
  refine .step (collects_operand form type) fun value => ?_
  exact .step (collects_expectType _ type value.type) fun _ => .pure value

theorem collects_ensureSlot (name : String) (type : TypeId) (seeded : Bool) :
    Collects awaited (ensureSlot name type seeded) := by
  refine .step collects_context fun context => ?_
  split
  · exact .pure _
  · refine .step (collects_onBuilder _) fun slot =>
      .step collects_context fun context => ?_
    dsimp only
    have pushed (_ : Unit) : Collects awaited (do
        modifyContext (·.pushSlot name slot type)
        pure slot) :=
      .step (collects_modifyContext _) fun _ => .pure slot
    split
    · exact .ite (.step (collects_onBuilder _) pushed) (pushed ())
    · exact pushed ()

theorem collects_declareSlot (name : String) (type : TypeId) :
    Collects awaited (declareSlot name type) := by
  refine .step collects_types fun table =>
    .step collects_context fun context => ?_
  dsimp only
  split
  · exact .pure _
  · refine .step (collects_onBuilder _) fun slot => ?_
    exact .step (collects_modifyContext _) fun _ => .pure slot

theorem collects_define (name : String) (value : Value) (type : TypeId) :
    CollectsAnyhow awaited (define name value type) := by
  refine .step (.lift (collects_modifyContext _)) fun _ => ?_
  refine .step (.lift collects_context) fun context => .ite ?_ (.pure ())
  refine .step (.lift (collects_ensureSlot name type false)) fun slot => ?_
  refine .step (.lift (collects_pointeeOf? slot)) fun pointee => ?_
  split
  · exact .step (collects_expectType _ _ value.type) fun _ =>
      collects_built _
  · exact .throw _

/-! ## Instructions -/

theorem collects_emitConstant (items : List Form) :
    CollectsAnyhow awaited (emitConstant items) := by
  refine .parse fun _ _ => .parse fun destination _ => ?_
  refine .parse fun _ _ => .step (collects_typeOf _) fun type => ?_
  refine .parse fun literal _ => .step (.lift collects_types) fun table => ?_
  exact .step (.lift (collects_onBuilder _)) fun value =>
    collects_define destination value type

theorem collects_emitBinary (operator : BinaryOperator) (items : List Form) :
    CollectsAnyhow awaited (emitBinary operator items) := by
  refine .parse fun _ _ => .parse fun destination _ => ?_
  refine .parse fun _ _ => .step (collects_typeOf _) fun type => ?_
  refine .step (.lift collects_types) fun table => .ite ?_ ?_
  · exact .step (.lift (collects_spelling type)) fun _ => .throw _
  · refine .parse fun _ _ => .step (collects_operand _ type) fun left => ?_
    refine .parse fun _ _ => .step (collects_operand _ type) fun right => ?_
    refine .step (collects_expectType _ type left.type) fun _ => ?_
    refine .step (collects_expectType _ type right.type) fun _ => ?_
    refine .when (.lift (collects_modifyContext _)) ?_
    exact .step (.lift (collects_onBuilder _)) fun value =>
      collects_define destination value type

theorem collects_initialValue (form : Form) (type : TypeId) :
    CollectsAnyhow awaited (initialValue form type) := by
  have read : CollectsAnyhow awaited (do
      pure (← operand form type, (none : Option String))) :=
    .step (collects_operand _ type) fun _ => .pure _
  unfold initialValue
  split
  · exact read
  · exact read
  · exact read
  · split
    · exact .step (collects_valueOf _) fun _ => .pure _
    · exact .step (.lift (collects_onBuilder _)) fun _ => .pure _

theorem collects_emitVariable (items : List Form) :
    CollectsAnyhow awaited (emitVariable items) := by
  refine .parse fun _ _ => .parse fun destination _ => ?_
  refine .parse fun _ _ => .step (collects_typeOf _) fun type => ?_
  refine .parse fun form _ => .step (collects_initialValue _ type) ?_
  rintro ⟨initial, source⟩
  refine .step (collects_expectType _ type initial.type) fun _ => ?_
  refine .step (.lift (collects_declareSlot destination type)) fun slot => ?_
  refine .step (.lift (collects_onBuilder _)) fun _ => ?_
  refine .step (.lift (collects_onBuilder _)) fun loaded =>
    .orFail_step _ fun value _ => ?_
  refine .step (.lift (collects_modifyContext _)) fun _ => ?_
  split
  · exact .ite (.lift (collects_modifyContext _)) (.pure ())
  · exact .pure ()

theorem collects_emitAssign (items : List Form) :
    CollectsAnyhow awaited (emitAssign items) := by
  refine .parse fun _ _ => .parse fun destination _ => ?_
  refine .parse fun _ _ => .step (collects_valueOf _) fun value => ?_
  refine .step (.lift (collects_ensureSlot destination value.type false))
    fun slot => .step (.lift (collects_pointeeOf? slot)) fun pointee => ?_
  refine .step (collects_expectType _ _ value.type) fun _ => ?_
  refine .step (.lift (collects_onBuilder _)) fun _ => ?_
  refine .step (.lift (collects_onBuilder _)) fun loaded =>
    .orFail_step _ fun current _ => ?_
  exact .lift (collects_modifyContext _)

theorem collects_buildDefaultReturn (type : TypeId) :
    Collects awaited (buildDefaultReturn type) := by
  refine .step collects_types fun table => .ite (collects_onBuilder _) ?_
  exact .step (collects_onBuilder _) fun value => collects_onBuilder _

theorem collects_emitReturn (items : List Form) :
    CollectsAnyhow awaited (emitReturn items) := by
  refine .step (.lift collects_returnType) fun expected => ?_
  split
  · exact .lift (collects_buildDefaultReturn expected)
  · exact .lift (collects_buildDefaultReturn expected)
  · refine .step (collects_typeOf _) fun type => ?_
    refine .step (collects_expectType _ expected type) fun _ => ?_
    exact .step (collects_typedOperand _ type _) fun value =>
      collects_built _
  · exact .throw _

/-! ## Bodies -/

theorem collects_emitSequence {emit : FormEmitter} {body : List Form}
    (emits : ∀ form ∈ body, Collects awaited (emit form)) :
    Collects awaited (emitSequence emit body) := by
  induction body with
  | nil => exact .pure ()
  | cons form body ih =>
      rw [List.forall_mem_cons] at emits
      refine .step collects_isTerminated fun terminated => ?_
      exact .ite (.pure ()) (.step emits.1 fun _ => ih emits.2)

theorem collects_readLocal (shape : String) (form : Form) :
    CollectsAnyhow awaited (readLocal shape form) := by
  unfold readLocal
  split
  · refine .ite (.step (.throw _) fun _ => ?_) ?_
    all_goals
      refine .orFail_step _ fun name _ => ?_
      exact .step (collects_typeOf _) fun _ => .pure _
  · exact .throw _

theorem collects_inScope {emission : Emission Unit}
    (collects : Collects awaited emission) :
    Collects awaited (inScope emission) := by
  refine .step collects_context fun context => ?_
  refine .step (collects_modifyContext _) fun _ => ?_
  exact .step collects fun _ => collects_modifyContext _

/-- The body of a block is one of the bodies that its form holds. -/
theorem collects_emitBlock {emit : FormEmitter} {items : List Form}
    (emits : ∀ shape locals body, blockParts items shape = .ok (locals, body) →
      ∀ form ∈ body, Collects awaited (emit form)) :
    CollectsAnyhow awaited (emitBlock emit items) := by
  refine .parse fun (locals, body) found => ?_
  refine .step (.mapM fun form _ => collects_readLocal _ form)
    fun declared => .lift (collects_inScope ?_)
  refine .step (.each fun (name, type) _ => ?_) fun _ =>
    collects_emitSequence (emits _ _ _ found)
  exact .step (collects_declareSlot name type) fun _ => .pure ()

/-! ## Forms -/

/-- How a form was emitted by a handler: at its place, and with one more
problem where the handler gave up. -/
inductive Handled (handler : Handler Unit) (environment : Environment)
    (form : Form) (state later : EmitState) : Prop
  | done {middle : EmitState} :
      handler.run environment
          { state with span := form.span?.or state.span } =
        (.ok (), middle) →
      later = { middle with span := state.span } →
      Handled handler environment form state later
  | gaveUp {middle : EmitState} {cause : ProblemCause} {problem : Problem} :
      handler.run environment
          { state with span := form.span?.or state.span } =
        (.error cause, middle) →
      later.problems = middle.problems ++ [problem] →
      later.span = state.span →
      Handled handler environment form state later

theorem atPlaceOf_apply (form : Form) (emission : Emission Unit)
    (environment : Environment) (state : EmitState) :
    (atPlaceOf form emission environment state).2 =
      { (emission environment
          { state with span := form.span?.or state.span }).2 with
        span := state.span } := rfl

/-- A list form is emitted by the opcode at its head. -/
theorem handled_emitWithin (depth : Nat) {form : Form} {items : List Form}
    {head : String} {opcode : Opcode} (list : form.list? = some items)
    (found : form.head? = some head) (known : Opcode.ofHead? head = some opcode)
    (environment : Environment) (state : EmitState) :
    Handled (dispatch (emitWithin depth) opcode items) environment form state
      (emitWithin (depth + 1) form environment state).2 := by
  rw [emitWithin, list]
  dsimp only
  unfold emitList
  rw [found, Option.bind_some, known, atPlaceOf_apply]
  dsimp only
  rw [reader_bind_apply]
  generalize dispatch (emitWithin depth) opcode items = handler
  generalize ran : handler.run environment
    { state with span := form.span?.or state.span } = outcome
  obtain ⟨result | _, middle⟩ := outcome
  · exact .gaveUp ran rfl rfl
  · exact .done ran rfl

/-- Nothing is forgotten on the way to the end of a form. -/
theorem Handled.collects {handler : Handler Unit} {environment : Environment}
    {form : Form} {state later : EmitState} {uses : List NameUse}
    (handled : Handled handler environment form state later)
    (collects : CollectsAnyhow AnyProblem handler) :
    EmitState.Collects AnyProblem environment uses state later := by
  have before := (collects environment
    { state with span := form.span?.or state.span }).isPrefix
  have grown (prefixed : state.problems <+: later.problems)
      (span : later.span = state.span) :
      EmitState.Collects AnyProblem environment uses state later := by
    obtain ⟨added, same⟩ := prefixed
    exact ⟨span, added, same.symm, fun _ _ => trivial⟩
  cases handled with
  | done ran ends =>
      subst ends
      rw [ran] at before
      exact grown before rfl
  | gaveUp ran ends span =>
      rw [ran] at before
      refine grown ?_ span
      rw [ends]
      exact before.trans (List.prefix_append _ _)

/-- Where no problem is new, the handler did not give up. -/
theorem Handled.of_kept {handler : Handler Unit} {environment : Environment}
    {form : Form} {state later : EmitState}
    (handled : Handled handler environment form state later)
    (collects : CollectsAnyhow AnyProblem handler)
    (kept : later.problems = state.problems) :
    ∃ middle, handler.run environment
        { state with span := form.span?.or state.span } =
          (.ok (), middle) ∧
      middle.problems = state.problems ∧
      later = { middle with span := state.span } := by
  have before := (collects environment
    { state with span := form.span?.or state.span }).isPrefix
  cases handled with
  | done ran ends =>
      subst ends
      exact ⟨_, ran, kept, rfl⟩
  | gaveUp ran ends _ =>
      rw [ran] at before
      have longer := before.length_le
      have lengths := congrArg List.length (ends.symm.trans kept)
      rw [List.length_append] at lengths
      simp only [List.length_singleton] at lengths
      dsimp only at longer
      omega

end FormCompiler
