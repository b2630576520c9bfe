import FormCompiler.Proofs.KeptProblems
import FormCompiler.Proofs.ModuleEchoes
import FormCompiler.Proofs.PlacedForms

/-!
# Where problems are

Emission does with moved forms what it does with the forms.  So a problem that
stands outside the forms of a body would have to follow a move that leaves
these forms alone, but nothing of the kind is emitted: all places are those of
forms in the body.  Nor can a problem of a form with a place be nowhere, since
it would be somewhere once the body around the form is.
-/

namespace FormCompiler

open Ir

/-! ## Moves that leave forms alone -/

namespace Tree

variable {Note : Type} {change : Note → Note}

mutual

theorem mapNotes_eq_self : ∀ tree : Tree Note,
    (∀ node ∈ tree.nodes, change node.note = node.note) →
      tree.mapNotes change = tree
  | .atom note value, same => by
      rw [mapNotes, show change note = note from
        same (.atom note value) List.mem_cons_self]
  | .group note bracket items, same => by
      rw [nodes, List.forall_mem_cons] at same
      rw [mapNotes, show change note = note from same.1,
        mapNotesList_eq_self items same.2]
  | .tagged note tag value, same => by
      rw [nodes, List.forall_mem_cons] at same
      rw [mapNotes, show change note = note from same.1,
        mapNotes_eq_self value same.2]

theorem mapNotesList_eq_self : ∀ trees : List (Tree Note),
    (∀ node ∈ nodesList trees, change node.note = node.note) →
      mapNotesList change trees = trees
  | [], _ => rfl
  | tree :: trees, same => by
      rw [nodesList, List.forall_mem_append] at same
      rw [mapNotesList, mapNotes_eq_self tree same.1,
        mapNotesList_eq_self trees same.2]

end

theorem isSome_list? (tree : Tree Note) : tree.list?.isSome = tree.isList := by
  cases tree with
  | group note bracket items => cases bracket <;> rfl
  | atom | tagged => rfl

end Tree

namespace Move

variable {move : Move}

/-- Forms stay where they are. -/
def KeepsForms (move : Move) : Prop := move.note = id

theorem KeepsForms.form (keeps : move.KeepsForms) (form : Form) :
    form.moved move = form :=
  Tree.mapNotes_eq_self form fun _ _ => congrFun keeps _

theorem KeepsForms.context (keeps : move.KeepsForms)
    (context : FunctionContext) : context.moved move = context := by
  have same : (fun entry : String × Form =>
      (entry.1, entry.2.moved move)) = id :=
    funext fun entry => congrArg (Prod.mk entry.1) (keeps.form entry.2)
  unfold FunctionContext.moved
  rw [same, List.map_id]

theorem KeepsForms.state (keeps : move.KeepsForms) (state : EmitState) :
    state.moved move = { state with
      problems := move.earlier ++ state.problems.map (Problem.moved move)
      span := move.place state.span } := by
  unfold EmitState.moved
  rw [keeps.context]

/-- Nothing moves, but there are problems already. -/
def after (problems : List Problem) : Move where
  note := id
  place := id
  earlier := problems
  place_or _ _ := rfl
  note_empty := rfl

/-- What is nowhere comes to a place. -/
def landing (place : Span) : Move where
  note := id
  place span := some (span.getD place)
  place_or metadata outer := by
    rw [id]
    cases metadata.span? <;> rfl
  note_empty := rfl

/-- A place that is not the given one. -/
def elsewhere (span : Span) : Span :=
  if span = .point ⟨0, 0⟩ then .point ⟨0, 1⟩ else .point ⟨0, 0⟩

theorem elsewhere_ne (span : Span) : elsewhere span ≠ span := by
  unfold elsewhere
  split
  · next same =>
      rw [same]
      decide
  · next other => exact Ne.symm other

theorem span?_ofSpan_elsewhere (span : Span) :
    (Metadata.ofSpan (elsewhere span)).span? = some (elsewhere span) := by
  apply Metadata.span?_ofSpan
  all_goals
    unfold elsewhere
    split <;> decide

/-- Every name but one gets longer. -/
def otherName (name other : String) : String :=
  if other = name then other else other.push 'x'

theorem otherName_self (name : String) : otherName name name = name :=
  if_pos rfl

theorem eq_of_otherName {name other : String}
    (stays : otherName name other = other) : other = name := by
  by_contra differs
  rw [otherName, if_neg differs] at stays
  have longer := congrArg String.length stays
  simp at longer

/-- Nothing moves, and all functions but one get another name. -/
def othersRenamed (name : String) : Move where
  note := id
  place := id
  name := otherName name
  place_or _ _ := rfl
  note_empty := rfl

/-- What is outside of a span goes elsewhere, and all functions but one get
another name. -/
def beyond (extent : Span) (name : String) : Move where
  note metadata :=
    match metadata.span? with
    | some span =>
        if span.Within extent then metadata else .ofSpan (elsewhere span)
    | none => metadata
  place := Option.map fun span =>
    if span.Within extent then span else elsewhere span
  name := otherName name
  place_or metadata outer := by
    cases found : metadata.span? with
    | none => simp [found]
    | some span =>
        by_cases within : span.Within extent
        · simp [within, found]
        · simp [within, span?_ofSpan_elsewhere]
  note_empty := rfl

section

variable {extent : Span} {name : String}

theorem beyond_form {form : Form} (inside : form.Inside extent) :
    form.moved (beyond extent name) = form := by
  apply Tree.mapNotes_eq_self
  intro node member
  have within := inside node member
  dsimp only [beyond]
  split
  · next span found => rw [if_pos (within span found)]
  · rfl

theorem of_beyond_problem {problem : Problem}
    (stays : problem.moved (beyond extent name) = problem) :
    problem.function = name ∧
      ∀ span ∈ problem.span, span.Within extent := by
  obtain ⟨function, operation, cause, place⟩ := problem
  have named := congrArg Problem.function stays
  have placed := congrArg Problem.span stays
  dsimp only [Problem.moved, beyond] at named placed ⊢
  refine ⟨eq_of_otherName named, ?_⟩
  rintro span ⟨rfl⟩
  by_contra outside
  rw [Option.map_some, if_neg outside] at placed
  exact elsewhere_ne span (Option.some.inj placed)

end

end Move

/-! ## Places of problems -/

/-- The problem has a place within a span. -/
def Problem.LocatedIn (extent : Span) (problem : Problem) : Prop :=
  ∃ span, problem.span = some span ∧ span.Within extent

/-- The problem is that a body has an element that is no list, and it has the
place of the body. -/
def Problem.IsStrayAt (body : List Form) (span : Option Span)
    (problem : Problem) : Prop :=
  ∃ element ∈ body, element.isList = false ∧
    problem.operation = element.kindName ∧
    problem.cause = .malformed "(op ..)" ∧ problem.span = span

/-- The problem was met with an edge of a phi. -/
def Problem.IsOfPhiAt (span : Option Span) (problem : Problem) : Prop :=
  problem.operation = "phi" ∧ problem.span = span

section Bodies

variable {environment : Environment} {state : EmitState}

theorem EmitState.problems_moved_after (problems : List Problem)
    (state : EmitState) :
    (state.moved (.after problems)).problems =
      problems ++ state.problems :=
  congrArg (problems ++ ·) (List.map_id state.problems)

theorem EmitState.moved_after (state : EmitState) :
    EmitState.moved (.after state.problems)
      { state with problems := [] } = state := by
  have keeps : (Move.after state.problems).KeepsForms := rfl
  rw [keeps.state]
  show { state with problems := state.problems ++ [] } = _
  rw [List.append_nil]

/-- Problems that are there already do not matter. -/
theorem Echoes.problems_eq {Result : Type} {strip : Result → Result}
    {emission : Emission Result} {state : EmitState}
    (echoes : Echoes (.after state.problems) strip emission emission)
    (environment : Environment) :
    (emission environment state).2.problems = state.problems ++
      (emission environment { state with problems := [] }).2.problems := by
  have same := echoes environment { state with problems := [] }
  rw [state.moved_after] at same
  have run := congrArg (fun outcome => outcome.2.problems) same
  exact run.trans (EmitState.problems_moved_after _ _)

/-- No problem is anywhere else. -/
theorem moved_of_map_eq {move : Move} {problems : List Problem}
    (same : problems = problems.map (Problem.moved move)) :
    ∀ problem ∈ problems, problem.moved move = problem := by
  rw [← List.map_inj_left, ← same]
  exact (List.map_id problems).symm

theorem emitForm_of_list {form : Form} {items : List Form}
    (list : form.list? = some items) :
    ∃ depth, emitForm form = emitList (emitWithin depth) form items := by
  obtain ⟨depth, height⟩ := Nat.exists_eq_add_one.mpr form.height_pos
  refine ⟨depth, ?_⟩
  rw [emitForm, height, emitWithin, list]

theorem emitForm_of_not_list {form : Form} (other : form.list? = none) :
    emitForm form = report form.kindName (.malformed "(op ..)") := by
  obtain ⟨depth, height⟩ := Nat.exists_eq_add_one.mpr form.height_pos
  rw [emitForm, height, emitWithin, other]

/-- The problems of a list with a place have places, wherever the list is
emitted. -/
theorem collects_emitForm_of_list {form : Form} {items : List Form}
    {place : Span} (list : form.list? = some items)
    (placed : form.span? = some place) :
    Collects (fun _ problem => problem.span.isSome = true)
      (emitForm form) := by
  have again {move : Move} (keeps : move.KeepsForms) :
      Echoes move id (emitForm form) (emitForm form) := by
    have echoes : Echoes move id (emitForm form)
        (emitForm (form.moved move)) := echoes_emitForm form
    rwa [keeps.form] at echoes
  intro environment state
  obtain ⟨depth, emits⟩ := emitForm_of_list list
  have here (span : Option Span) (state : EmitState) :
      (emitForm form environment { state with span }).2.problems =
        (emitForm form environment state).2.problems := by
    rw [emits]
    unfold emitList
    rw [atPlaceOf_apply, atPlaceOf_apply, placed]
    rfl
  have keeps : (Move.landing place).KeepsForms := rfl
  have lands := congrArg (fun outcome => outcome.2.problems)
    (again keeps environment { state with problems := [] })
  rw [keeps.state] at lands
  have stay := moved_of_map_eq ((here _ _).symm.trans lands)
  have early : (Move.after state.problems).KeepsForms := rfl
  refine ⟨?_, _, (again early).problems_eq environment, ?_⟩
  · rw [emits]
    rfl
  · intro problem member
    have same := congrArg Problem.span (stay problem member)
    rw [← same]
    rfl

theorem EmitState.Collects.imp {awaited other : Option Span → Problem → Prop}
    {uses : List NameUse} {later : EmitState}
    (collects : EmitState.Collects awaited environment uses state later)
    (implies : ∀ span problem, awaited span problem → other span problem) :
    EmitState.Collects other environment uses state later := by
  obtain ⟨added, grown, each⟩ := collects.added
  exact ⟨collects.span, added, grown,
    fun problem member => implies _ problem (each problem member)⟩

/-- A body whose lists have places has problems with places, unless an element
is no list. -/
theorem collects_emitSequence_of_placed {body : List Form}
    (placed : ∀ form ∈ body, form.isList = true →
      form.span?.isSome = true) :
    Collects (fun span problem =>
        problem.span.isSome = true ∨ problem.IsStrayAt body span)
      (emitSequence emitForm body) := by
  refine collects_emitSequence fun form member => ?_
  cases list : form.list? with
  | some items =>
      have isList : form.isList = true := by
        rw [← form.isSome_list?, list]
        rfl
      obtain ⟨place, found⟩ :=
        Option.isSome_iff_exists.mp (placed form member isList)
      exact fun environment state =>
        (collects_emitForm_of_list list found environment state).imp
          fun _ _ => .inl
  | none =>
      have other : form.isList = false := by
        rw [← form.isSome_list?, list]
        rfl
      rw [emitForm_of_not_list list]
      exact collects_report fun function span =>
        .inr ⟨form, member, other, rfl, rfl, rfl⟩

/-! ## Around bodies -/

variable {awaited : Option Span → Problem → Prop}

theorem collects_bindParameters (function : FunctionId) (name : String)
    (index : Nat) (parameters : List (String × TypeId)) :
    Tries (EmitState.Collects awaited) []
      (bindParameters function name index parameters) := by
  induction parameters generalizing index with
  | nil => exact .pure ()
  | cons parameter parameters ih =>
      obtain ⟨parameter, type⟩ := parameter
      unfold bindParameters
      refine .step (fun _ _ => .silent rfl rfl) fun _ => ?_
      refine .step (fun _ _ => .silent rfl rfl) fun module => ?_
      dsimp only
      split
      · exact .throw _
      · refine .step (.lift (collects_modifyContext _)) fun _ => ?_
        refine .step (.lift collects_context) fun context => ?_
        refine .ite ?_ (ih (index + 1))
        exact .step (.lift (collects_ensureSlot parameter type true))
          fun _ => ih (index + 1)

theorem collects_edgeValue (pending : PendingPhi) (source : EdgeSource)
    (block : BlockId) :
    CollectsAnyhow awaited (edgeValue pending source block) := by
  have checked (value : Value) : CollectsAnyhow awaited (do
      let destination := pending.destination
      expectType s!"phi `{destination}`" pending.type value.type
      pure value) :=
    .step (collects_expectType _ _ _) fun _ => .pure value
  unfold edgeValue
  cases source with
  | value value => exact .step (.pure value) checked
  | named name =>
      refine .step (collects_built _) fun point => ?_
      refine .step (collects_built _) fun _ => ?_
      refine .step (.lift (collects_getValue name)) fun value => ?_
      refine .step (collects_built _) fun _ => ?_
      exact .step (.orFail _ _) checked

/-- Whatever is wrong with an edge is a problem of a phi. -/
theorem collects_addEdge (pending : PendingPhi) (edge : EdgeSource × String) :
    Collects (fun span problem => problem.IsOfPhiAt span)
      (addEdge pending edge) := by
  refine .step (fun _ _ => .silent rfl rfl) fun seen => ?_
  split
  · exact .pure ()
  · refine .step (collects_edgeValue pending edge.1 _) fun outcome => ?_
    cases outcome with
    | ok value => exact .step (.pure value) fun _ => collects_onBuilder _
    | error cause =>
        refine .step (collects_report fun _ _ => ⟨rfl, rfl⟩) fun _ => ?_
        exact .step (collects_onBuilder _) fun _ => collects_onBuilder _

theorem collects_finishBody (name : String) :
    Tries (EmitState.Collects fun span problem => problem.IsOfPhiAt span) []
      (finishBody name) := by
  refine .step (.lift ?_) fun _ => ?_
  · refine .step (fun _ _ => .silent rfl rfl) fun seen => ?_
    refine .step (fun _ _ => .silent rfl rfl) fun _ => ?_
    exact .each fun phi _ => .each fun edge _ => collects_addEdge phi edge
  · exact .step (fun _ _ => .silent rfl rfl) fun _ => .ite (.throw _) (.pure ())

/-- First one kind of problem is added, and then another one. -/
def EmitState.Divides (first last : Option Span → Problem → Prop) : Effect :=
  fun environment _ state later => ∃ middle,
    EmitState.Collects first environment [] state middle ∧
      EmitState.Collects last environment [] middle later

namespace Divides

variable {Result Error : Type} {first last : Option Span → Problem → Prop}
  {handler : ExceptT Error Emission Result}

theorem atLast (tries : Tries (EmitState.Collects last) [] handler) :
    Tries (EmitState.Divides first last) [] handler :=
  fun environment state =>
    ⟨state, Graded.refl environment state, tries environment state⟩

theorem step {Part : Type} {start : ExceptT Error Emission Part}
    {next : Part → ExceptT Error Emission Result}
    (starts : Tries (EmitState.Collects first) [] start)
    (rest : ∀ part, Tries (EmitState.Divides first last) [] (next part)) :
    Tries (EmitState.Divides first last) [] (start >>= next) := by
  intro environment state
  have before := starts environment state
  rw [ExceptT.run_bind, reader_bind_apply]
  generalize start.run environment state = outcome at before ⊢
  obtain ⟨result, middle⟩ := outcome
  cases result with
  | error error => exact ⟨middle, before, Graded.refl environment middle⟩
  | ok part =>
      obtain ⟨later, added, ends⟩ := rest part environment middle
      exact ⟨later, Graded.trans before added, ends⟩

end Divides

/-- The problems of a body are met before those of its phis. -/
theorem divides_emitBody (function : FunctionId) (header : FunctionHeader)
    {body : List Form}
    (placed : ∀ form ∈ body, form.isList = true →
      form.span?.isSome = true) :
    Tries (EmitState.Divides
      (fun span problem =>
        problem.span.isSome = true ∨ problem.IsStrayAt body span)
      fun span problem => problem.IsOfPhiAt span) []
      (emitBody function header body) := by
  have finishes := collects_finishBody header.name
  rw [emitBody_eq]
  refine Divides.step (.lift fun environment state => ?_) fun _ => ?_
  · rw [markPersonality_apply]
    unfold EmitState.marked
    split <;> exact .silent rfl rfl
  refine Divides.step (.lift (collects_onBuilder _)) fun entry => ?_
  refine Divides.step (.lift (collects_onBuilder _)) fun _ => ?_
  refine Divides.step (collects_bindParameters _ _ _ _) fun _ => ?_
  refine Divides.step (.lift (collects_emitSequence_of_placed placed))
    fun _ => Divides.atLast ?_
  refine .step (.lift collects_isTerminated) fun terminated => ?_
  refine .ite ?_ finishes
  refine .step (.lift collects_returnType) fun type => ?_
  exact .step (.lift (collects_buildDefaultReturn type)) fun _ => finishes

/-- Emitting a body has problems with the forms of the body, and then with
edges of phis; only the latter and elements that are no lists have no place. -/
theorem located_emitBody (environment : Environment) (state : EmitState)
    {body : List Form} {extent : Span}
    (inside : ∀ form ∈ body, form.Inside extent)
    (placed : ∀ form ∈ body, form.isList = true → form.span?.isSome = true)
    (nowhere : state.span = none)
    (fresh : ∀ move, state.context.moved move = state.context)
    (function : FunctionId) (header : FunctionHeader) :
    ∃ found unfinished,
      ((emitBody function header body).run environment state).2.problems =
        state.problems ++ (found ++ unfinished) ∧
      (∀ problem ∈ found ++ unfinished,
        problem.function = environment.functionName) ∧
      (∀ problem ∈ found, problem.LocatedIn extent ∨
        problem.IsStrayAt body none) ∧
      ∀ problem ∈ unfinished, problem.IsOfPhiAt none := by
  have again (move : Move) (same : ∀ form ∈ body, form.moved move = form) :
      Repeats move id (emitBody function header body)
        (emitBody function header body) := by
    have repeats : Repeats move id (emitBody function header body)
        (emitBody function (header.moved move) (body.map (Form.moved move))) :=
      repeats_emitBody function header body
    rwa [List.map_congr_left same, List.map_id'] at repeats
  have early : (Move.after state.problems).KeepsForms := rfl
  have grown :=
    (again _ fun form _ => early.form form).problems_eq environment
  -- Nothing that is emitted follows a move beyond the extent of the body.
  have start : EmitState.moved (.beyond extent environment.functionName)
      { state with problems := [] } =
      { state with problems := [] } := by
    unfold EmitState.moved
    rw [fresh, nowhere]
    rfl
  have around : environment.moved
      (.beyond extent environment.functionName) = environment := by
    unfold Environment.moved
    rw [show (Move.beyond extent environment.functionName).name
      environment.functionName = _ from Move.otherName_self _]
  have stays := again (.beyond extent environment.functionName)
    (fun form member => Move.beyond_form (inside form member)) environment
    { state with problems := [] }
  rw [start, around] at stays
  have fixed := moved_of_map_eq
    (congrArg (fun outcome => outcome.2.problems) stays)
  obtain ⟨middle, ⟨span, found, first, located⟩, -, unfinished, last, ofPhi⟩ :=
    divides_emitBody function header placed environment state
  rw [nowhere] at span located
  rw [span] at ofPhi
  rw [first, List.append_assoc, grown] at last
  have added := List.append_cancel_left last
  rw [grown, added]
  rw [added] at fixed
  refine ⟨found, unfinished, rfl, fun problem member =>
    (Move.of_beyond_problem (fixed problem member)).1,
    fun problem member => ?_, ofPhi⟩
  rcases located problem member with somewhere | stray
  · obtain ⟨place, isPlace⟩ := Option.isSome_iff_exists.mp somewhere
    exact .inl ⟨place, isPlace, (Move.of_beyond_problem
      (fixed problem (List.mem_append_left _ member))).2 place isPlace⟩
  · exact .inr stray

end Bodies

end FormCompiler
