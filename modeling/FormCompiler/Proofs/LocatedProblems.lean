import FormCompiler.Proofs.EmittedTraces
import FormCompiler.Proofs.ProblemPlaces

/-!
# Located problems

The problems of a module are those of its settings and declarations, which
belong to no function, and then those of the bodies that it declares, each
with the name of its function.

A problem of a body has a place within the form of the function, with two
exceptions that have no place at all: an element of the body that is no list,
since nothing around it has been entered yet, and an edge of a phi, since
phis are completed after everything in the body has been left.
-/

namespace FormCompiler

open Ir

/-! ## Parts of forms -/

namespace Tree

variable {Note : Type} {tree item : Tree Note} {items : List (Tree Note)}

theorem nodes_subset_of_group {note : Note} {bracket : Bracket}
    (member : item ∈ items) :
    item.nodes ⊆ (Tree.group note bracket items).nodes := by
  rw [nodes, nodesList_eq_flatMap]
  exact fun node inside =>
    List.mem_cons_of_mem _ (List.mem_flatMap_of_mem member inside)

theorem nodes_subset_of_list? (list : tree.list? = some items)
    (member : item ∈ items) : item.nodes ⊆ tree.nodes := by
  unfold list? at list
  split at list
  · cases list
    exact nodes_subset_of_group member
  · cases list

theorem nodes_subset_of_vector? (vector : tree.vector? = some items)
    (member : item ∈ items) : item.nodes ⊆ tree.nodes := by
  unfold vector? at vector
  split at vector
  · cases vector
    exact nodes_subset_of_group member
  · cases vector

theorem isSome_list?_of_head? {head : String}
    (found : tree.head? = some head) :
    ∃ items, tree.list? = some items := by
  obtain ⟨items, list, -⟩ := Option.bind_eq_some_iff.mp found
  exact ⟨items, list⟩

end Tree

namespace KeywordArguments

theorem mem_of_get? {items : List Form} {key : String} {value : Form}
    (found : (ofItems items).get? key = some value) : value ∈ items := by
  obtain ⟨before, after, split, -⟩ := List.lookup_eq_some_iff.mp found
  have pairs : (ofItems items).pairs = readPairs items := rfl
  refine (readPairs_sublist items).subset ?_
  rw [← pairs, split]
  simp

/-- What is in a vector of a list is in the list. -/
theorem nodes_subset_of_vector? {form part : Form} {key : String}
    {body : List Form} (found : (ofForm form).vector? key = some body)
    (member : part ∈ body) : part.nodes ⊆ form.nodes := by
  obtain ⟨value, given, vector⟩ := Option.bind_eq_some_iff.mp found
  have follows := List.mem_of_mem_tail (mem_of_get? given)
  cases list : form.list? with
  | none =>
      rw [list] at follows
      cases follows
  | some items =>
      rw [list, Option.getD_some] at follows
      exact fun node inside => Tree.nodes_subset_of_list? list follows
        (Tree.nodes_subset_of_vector? vector member inside)

end KeywordArguments

/-! ## Headers -/

/-- The header is what a form declares. -/
structure FunctionHeader.IsOf (header : FunctionHeader) (form : Form) :
    Prop where
  isFunction : form.head? = some "fn"
  name : (KeywordArguments.ofForm form).symbol? "name" = some header.name
  body : ∀ body ∈ header.body,
    (KeywordArguments.ofForm form).vector? "body" = some body

/-- What a reader gives if it does not fail. -/
def Parses {Result : Type} (reader : TypeReader Result)
    (good : Result → Prop) : Prop :=
  ∀ table result, (reader.run table).1 = .ok result → good result

namespace Parses

variable {Part Result : Type} {good : Result → Prop}

theorem pure {result : Result} (holds : good result) :
    Parses (Pure.pure result) good := by
  rintro table _ ⟨⟩
  exact holds

theorem bind {start : TypeReader Part} {next : Part → TypeReader Result}
    {goodPart : Part → Prop} (first : Parses start goodPart)
    (rest : ∀ part, goodPart part → Parses (next part) good) :
    Parses (start >>= next) good := by
  intro table result read
  have run : (start >>= next).run table =
      match start.run table with
      | (.ok part, later) => (next part).run later
      | (.error cause, later) => (.error cause, later) := by
    rw [ExceptT.run_bind, stateM_bind_apply]
    obtain ⟨outcome, later⟩ := start.run table
    cases outcome <;> rfl
  rw [run] at read
  rcases started : start.run table with ⟨outcome, later⟩
  rw [started] at read
  cases outcome with
  | error cause => cases read
  | ok part =>
      exact rest part (first table part (by rw [started])) later result read

theorem any (reader : TypeReader Result) : Parses reader fun _ => True :=
  fun _ _ _ => trivial

theorem shaped (shape : String) (part : Option Part) :
    Parses (FormCompiler.shaped shape part) fun found => part = some found := by
  cases part with
  | none => rintro _ _ ⟨⟩
  | some found =>
      rintro _ _ ⟨⟩
      rfl

end Parses

theorem parses_header {form : Form} (isFunction : form.head? = some "fn") :
    Parses (readHeader form) fun header => header.IsOf form := by
  refine .bind (.shaped _ _) fun name isName => ?_
  dsimp only
  split
  all_goals
    refine .bind (.any _) fun result _ => ?_
    refine .bind (.any _) fun parameters _ => ?_
    refine .bind (.any _) fun type _ => .pure ⟨isFunction, isName, ?_⟩
    rintro body isBody
    split at isBody
    · cases isBody
    · exact isBody

/-! ## Declarations -/

namespace ModuleState

variable {state : ModuleState} {forms : List Form}

/-- The headers so far are what some of the forms declare, in their order. -/
def Announces (forms : List Form) (state : ModuleState) : Prop :=
  ∃ functions : List Form, functions.Sublist forms ∧
    List.Forall₂ FunctionHeader.IsOf state.headers functions

theorem Announces.append (announces : state.Announces forms)
    (more : List Form) : state.Announces (forms ++ more) := by
  obtain ⟨functions, among, declared⟩ := announces
  exact ⟨functions, among.trans (List.sublist_append_left forms more),
    declared⟩

theorem headers_declareGlobal (form : Form) (state : ModuleState) :
    (declareGlobal form state).2.headers = state.headers := by
  obtain ⟨module, problems, -, -, ⟨-, same⟩ | ⟨_, _, _, -, -, -, same⟩⟩ :=
    declareGlobal_cases form state
  all_goals rw [same]

theorem Announces.declareHeader (announces : state.Announces forms)
    {form : Form} (isFunction : form.head? = some "fn") :
    (declareHeader form state).2.Announces (forms ++ [form]) := by
  obtain ⟨problems, reads⟩ :=
    reading_eq "fn" form.span? (readHeader form) state
  have parses := parses_header isFunction state.module.types
  unfold FormCompiler.declareHeader
  rw [stateM_bind_apply, reads]
  cases outcome : ((readHeader form).run state.module.types).1 with
  | error cause => exact announces.append [form]
  | ok header =>
      obtain ⟨functions, among, declared⟩ := announces
      exact ⟨functions ++ [form], among.append_right [form],
        List.rel_append declared (.cons (parses header outcome) .nil)⟩

theorem announces_declare (form : Form) :
    Relates (fun state later => state.Announces forms →
      later.Announces (forms ++ [form])) (declare form) := by
  unfold declare
  split
  · intro state announces
    have announces := announces.append [form]
    unfold Announces at announces ⊢
    rwa [headers_declareGlobal]
  · next isFunction =>
      exact fun state announces => announces.declareHeader isFunction
  · split
    all_goals exact fun state announces => announces.append [form]

theorem Announces.declaring (announces : state.Announces forms)
    (added : List Form) :
    (state.declaring added).Announces (forms ++ added) := by
  induction added generalizing state forms with
  | nil => exact announces.append []
  | cons form added ih =>
      have rest := ih (announces_declare form state announces)
      rwa [List.append_assoc] at rest

theorem announces_prepared (none : state.headers = [])
    (configuration : Configuration) (parts : ModuleParts) :
    (state.prepared configuration parts).Announces parts.declarations := by
  have start : (layOutModule parts.declarations
      (state.setting parts.settings)).2.Announces [] := by
    refine ⟨[], List.nil_sublist _, ?_⟩
    rw [show (layOutModule parts.declarations
      (state.setting parts.settings)).2.headers = state.headers from rfl, none]
    exact .nil
  have declared := start.declaring parts.declarations
  exact preparing_cases declared (fun _ => declared) configuration

/-! ## Problems of declarations -/

section Fixed

variable {move : Move}

/-- Where a state is not moved, one that an operation leaves is not. -/
theorem fixed_of_retells {Result : Type} {strip : Result → Result}
    {operation : ModuleEmission Result}
    (retells : Retells move strip operation operation)
    (fixed : state.moved move = state) :
    (operation state).2.moved move = (operation state).2 := by
  have same := congrArg Prod.snd (retells state)
  rw [fixed] at same
  exact same.symm

theorem fixed_declaring (nowhere : move.KeepsNowhere)
    (keeps : move.KeepsForms) (forms : List Form)
    (fixed : state.moved move = state) :
    (state.declaring forms).moved move = state.declaring forms := by
  induction forms generalizing state with
  | nil => exact fixed
  | cons form forms ih =>
      have retells := retells_declare nowhere form
      rw [keeps.form] at retells
      exact ih (fixed_of_retells retells fixed)

theorem fixed_prepared (nowhere : move.KeepsNowhere)
    (keeps : move.KeepsForms) (fixed : state.moved move = state)
    (configuration : Configuration) (parts : ModuleParts) :
    (state.prepared configuration parts).moved move =
      state.prepared configuration parts := by
  have setting : (state.setting parts.settings).moved move =
      state.setting parts.settings :=
    congrArg (ModuleState.setting parts.settings) fixed
  have laysOut := retells_layOutModule nowhere parts.declarations
  rw [List.map_congr_left fun form _ => keeps.form form,
    List.map_id'] at laysOut
  have declared := fixed_declaring nowhere keeps parts.declarations
    (fixed_of_retells laysOut setting)
  refine @preparing_cases _ (fun state => state.moved move = state)
    declared (fun personality => ?_) configuration
  have retells : Retells move id (onModule (declarePersonality personality))
      (onModule (declarePersonality personality)) := fun _ => rfl
  exact fixed_of_retells retells declared

end Fixed

/-- What is done before the bodies has problems outside of functions only. -/
theorem problems_prepared (configuration : Configuration)
    (parts : ModuleParts) :
    ∀ problem ∈ ((ofConfiguration configuration).prepared configuration
      parts).problems, problem.function = "" := by
  have nowhere : (Move.othersRenamed "").KeepsNowhere :=
    ⟨rfl, Move.otherName_self ""⟩
  have fixed := fixed_prepared nowhere rfl
    (show (ofConfiguration configuration).moved (.othersRenamed "") = _
      from rfl) configuration parts
  have same := moved_of_map_eq (congrArg ModuleState.problems fixed).symm
  exact fun problem member =>
    Move.eq_of_otherName (congrArg Problem.function (same problem member))

end ModuleState

/-! ## Problems of functions -/

/-- The problems with a function: first those with forms of its body, which
have a place in the function or are about an element that is no list, and then
those with edges of phis, which have no place. -/
structure Form.Meets (form : Form) (problems : List Problem) : Prop where
  isFunction : form.head? = some "fn"
  named : ∃ name, (KeywordArguments.ofForm form).symbol? "name" = some name ∧
    ∀ problem ∈ problems, problem.function = name
  placed : ∃ extent body found unfinished, form.span? = some extent ∧
    (KeywordArguments.ofForm form).vector? "body" = some body ∧
    problems = found ++ unfinished ∧
    (∀ problem ∈ found, problem.LocatedIn extent ∨
      problem.IsStrayAt body none) ∧
    ∀ problem ∈ unfinished, problem.IsOfPhiAt none

section Functions

variable {form : Form} {header : FunctionHeader}

theorem meets_emitFunction (configuration : Configuration)
    (state : ModuleState) {body : List Form} (isOf : header.IsOf form)
    (isBody : header.body = some body) (nests : form.Nests) :
    ∃ problems, ((emitFunction configuration header body).run
        state).2.problems = state.problems ++ problems ∧
      form.Meets problems := by
  have ofBody := isOf.body body isBody
  obtain ⟨items, list⟩ := Tree.isSome_list?_of_head? isOf.isFunction
  have isList : form.isList = true := by
    rw [← form.isSome_list?, list]
    rfl
  obtain ⟨placed, around⟩ := nests form form.mem_nodes_self
  obtain ⟨extent, span⟩ := Option.isSome_iff_exists.mp (placed isList)
  rw [run_emitFunction]
  cases declared : state.module.function? header.name with
  | none =>
      exact ⟨[], (List.append_nil _).symm, isOf.isFunction,
        ⟨header.name, isOf.name, nofun⟩,
        ⟨extent, body, [], [], span, ofBody, rfl, nofun, nofun⟩⟩
  | some function =>
      obtain ⟨found, unfinished, grown, named, located, ofPhis⟩ :=
        located_emitBody (state.around configuration function)
          (state.entering function header body)
          (fun part member node inside => around extent span node
            (KeywordArguments.nodes_subset_of_vector? ofBody member inside))
          (fun part member => (nests part
            (KeywordArguments.nodes_subset_of_vector? ofBody member
              part.mem_nodes_self)).1)
          rfl (fun _ => rfl) function header
      refine ⟨_, grown, isOf.isFunction, ⟨header.name, isOf.name, ?_⟩,
        ⟨extent, body, found, unfinished, span, ofBody, rfl, located, ofPhis⟩⟩
      exact fun problem member => (named problem member).trans
        (Module.name_of_function? declared)

/-- Bodies are emitted one after another, until one cannot be completed. -/
theorem meets_emitFunctions (configuration : Configuration)
    (state : ModuleState) {headers : List FunctionHeader} {forms : List Form}
    (declared : List.Forall₂ FunctionHeader.IsOf headers forms)
    (nests : ∀ form ∈ forms, form.Nests) :
    ∃ bodies : List (Form × List Problem),
      ((emitFunctions configuration headers).run state).2.problems =
        state.problems ++ bodies.flatMap Prod.snd ∧
      (bodies.map Prod.fst).Sublist forms ∧
      ∀ body ∈ bodies, body.1.Meets body.2 := by
  induction declared generalizing state with
  | nil => exact ⟨[], (List.append_nil _).symm, .slnil, nofun⟩
  | @cons header form headers forms isOf declared ih =>
      rw [List.forall_mem_cons] at nests
      unfold emitFunctions
      cases isBody : header.body with
      | none =>
          obtain ⟨bodies, grown, among, meets⟩ := ih state nests.2
          exact ⟨bodies, grown, among.cons form, meets⟩
      | some body =>
          obtain ⟨problems, first, meets⟩ :=
            meets_emitFunction configuration state isOf isBody nests.1
          dsimp only
          rw [run_handler_bind]
          generalize (emitFunction configuration header body).run state =
            outcome at first
          obtain ⟨result, later⟩ := outcome
          cases result with
          | error error =>
              refine ⟨[(form, problems)], ?_,
                (List.nil_sublist forms).cons_cons form,
                List.forall_mem_singleton.mpr meets⟩
              rw [first, List.flatMap_singleton]
          | ok done =>
              obtain ⟨bodies, grown, among, rest⟩ := ih later nests.2
              refine ⟨(form, problems) :: bodies, ?_, among.cons_cons form,
                List.forall_mem_cons.mpr ⟨meets, rest⟩⟩
              rw [grown, first, List.flatMap_cons, List.append_assoc]

end Functions

/-! ## Modules -/

theorem declarations_sublist (items : List Form) :
    (splitModule items).1.declarations.Sublist items := by
  fun_induction splitModule items with
  | case1 => exact .slnil
  | case2 item rest _ parts error same ih =>
      rw [same] at ih
      exact ih.cons_cons item
  | case3 => exact List.nil_sublist _
  | case4 item key _ value rest parts error same ih =>
      rw [same] at ih
      exact (ih.cons value).cons item

theorem nests_of_declared {module : Form} (nests : module.Nests) :
    ∀ form ∈ declaredForms module, form.Nests := by
  intro form declared
  have item := List.mem_of_mem_tail
    ((declarations_sublist _).subset declared)
  cases list : module.list? with
  | none =>
      rw [list] at item
      cases item
  | some items =>
      rw [list, Option.getD_some] at item
      exact fun node inside =>
        nests node (Tree.nodes_subset_of_list? list item inside)

/-- Emitting a module that was read from a text has problems outside of
functions, and then those of the functions that it declares.

A problem of a function has a place within the form of the function, unless an
element of the body is no list or an edge of a phi has no value: these have no
place, although the element and the phi have one. -/
theorem problems_of_functions (configuration : Configuration)
    {source : String} (fits : FitsCoordinates source) {module : Form}
    (read : readExpanded source = .ok module) :
    ∃ (outside : List Problem) (bodies : List (Form × List Problem)),
      (emitted configuration module).state.problems =
        outside ++ bodies.flatMap Prod.snd ∧
      (∀ problem ∈ outside, problem.function = "") ∧
      (bodies.map Prod.fst).Sublist (declaredForms module) ∧
      ∀ body ∈ bodies, body.1.Meets body.2 := by
  have nests := nests_of_declared (nests_of_readExpanded fits read)
  have done : (emitted configuration module).state =
    ((emitModule configuration module).run
      (.ofConfiguration configuration)).2 := rfl
  rw [done]
  rcases run_emitModule configuration module (.ofConfiguration configuration)
    with ⟨text, run⟩ | ⟨text, run⟩ | run
  · rw [run]
    exact ⟨[], [], rfl, nofun, List.nil_sublist _, nofun⟩
  · rw [run]
    exact ⟨[], [], rfl, nofun, List.nil_sublist _, nofun⟩
  · rw [run]
    obtain ⟨functions, among, declared⟩ := ModuleState.announces_prepared
      (show (ModuleState.ofConfiguration configuration).headers = [] from rfl)
      configuration (splitModule (module.list?.getD []).tail).1
    obtain ⟨bodies, grown, sublist, meets⟩ :=
      meets_emitFunctions configuration _ declared
        fun form member => nests form (among.subset member)
    exact ⟨_, bodies, grown, ModuleState.problems_prepared configuration _,
      sublist.trans among, meets⟩

/-- A function with a symbol for an element and a phi without a value. -/
def strayText : String :=
  "(module (fn :name f :body [g (phi %r i1 [(%q entry)])]))"

theorem fits_strayText : FitsCoordinates strayText :=
  fitsCoordinates_of_length (by decide +kernel)

theorem emitted_strayText : ∃ module, readExpanded strayText = .ok module ∧
    (emitted {} module).state.problems =
      [⟨"f", "symbol", .malformed "(op ..)", none⟩,
        ⟨"f", "phi", .unresolved "q", none⟩] := by
  have problems : ((readExpanded strayText).map fun module =>
      (emitted {} module).state.problems).toOption = some
        [⟨"f", "symbol", .malformed "(op ..)", none⟩,
          ⟨"f", "phi", .unresolved "q", none⟩] := by decide +kernel
  cases read : readExpanded strayText with
  | error diagnostic =>
      rw [read] at problems
      cases problems
  | ok module =>
      rw [read] at problems
      exact ⟨module, rfl, Option.some.inj problems⟩

theorem problems_of_functions_strayText :
    FitsCoordinates strayText ∧ ∃ module,
      readExpanded strayText = .ok module ∧
      ∃ (outside : List Problem) (bodies : List (Form × List Problem)),
        (emitted {} module).state.problems =
          outside ++ bodies.flatMap Prod.snd ∧
        (∀ problem ∈ outside, problem.function = "") ∧
        (bodies.map Prod.fst).Sublist (declaredForms module) ∧
        ∀ body ∈ bodies, body.1.Meets body.2 := by
  obtain ⟨module, read, -⟩ := emitted_strayText
  exact ⟨fits_strayText, module, read,
    problems_of_functions {} fits_strayText read⟩

/-- The symbol and the phi of a body have places, but the problems with them
have none. -/
theorem problems_without_place :
    FitsCoordinates strayText ∧ ∃ module,
      readExpanded strayText = .ok module ∧
      (emitted {} module).state.problems.map
        (fun problem => (problem.function, problem.operation, problem.span)) =
          [("f", "symbol", none), ("f", "phi", none)] := by
  obtain ⟨module, read, problems⟩ := emitted_strayText
  refine ⟨fits_strayText, module, read, ?_⟩
  rw [problems]
  rfl

end FormCompiler
