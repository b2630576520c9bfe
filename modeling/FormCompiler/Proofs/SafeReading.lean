import FormCompiler.Proofs.ItemAccess
import FormCompiler.Proofs.EmittedModules
import FormCompiler.Coverage

/-!
# Modules are read within their bounds

Every problem of an emission is one of the readings that a handler, a type, an
aggregate or a header may fail with, and none of those is a position beyond the
end of a form.  Checking for missing cases breaks off at the empty list, and
only there.

What an emission leaves refers to types, functions and globals that are there.
-/

open Std.Do

set_option mvcgen.warning false

namespace FormCompiler

open Ir

variable {Result : Type}

/-! ## Aggregates and headers -/

attribute [local spec high] inside_intern inside_mapM inside_readType

@[local spec high]
theorem inside_shaped {shape : String} (isShape : IsShape shape)
    (part : Option Result) :
    ⦃⌜True⌝⦄ shaped shape part ⦃readsInside⦄ := by
  cases part with
  | none => exact fun _ _ => isShape
  | some part => exact fun _ _ => trivial

@[local spec high]
theorem inside_readField (head : String) (form : Form) :
    ⦃⌜True⌝⦄ readField head form ⦃readsInside⦄ := by
  have isShape : IsShape fieldShape := isShape_ofList (by decide)
  unfold readField
  mvcgen

@[local spec high]
theorem inside_readFields (arguments : KeywordArguments) (head : String) :
    ⦃⌜True⌝⦄ readFields arguments head ⦃readsInside⦄ := by
  unfold readFields
  mvcgen

@[local spec high]
theorem inside_readVariant (tag : Nat) (form : Form) :
    ⦃⌜True⌝⦄ readVariant tag form ⦃readsInside⦄ := by
  have isShape : IsShape sumShape := isShape_ofList (by decide)
  unfold readVariant
  mvcgen

@[local spec high]
theorem inside_readVariants (tag : Nat) (forms : List Form) :
    ⦃⌜True⌝⦄ readVariants tag forms ⦃readsInside⦄ := by
  induction forms generalizing tag with
  | nil =>
      unfold readVariants
      mvcgen
  | cons form forms ih =>
      unfold readVariants
      mvcgen [ih]

@[local spec high]
theorem inside_readStruct (declaration : Declaration) :
    ⦃⌜True⌝⦄ readStruct declaration ⦃readsInside⦄ := by
  unfold readStruct
  mvcgen

@[local spec high]
theorem inside_readSum (declaration : Declaration) :
    ⦃⌜True⌝⦄ readSum declaration ⦃readsInside⦄ := by
  unfold readSum
  mvcgen

@[local spec high]
theorem inside_readUnion (declaration : Declaration) :
    ⦃⌜True⌝⦄ readUnion declaration ⦃readsInside⦄ := by
  unfold readUnion
  mvcgen

@[local spec high]
theorem inside_readParameter (index : Nat) (form : Form) :
    ⦃⌜True⌝⦄ readParameter index form ⦃readsInside⦄ := by
  have isShape : IsShape functionShape := isShape_ofList (by decide)
  unfold readParameter
  mvcgen

@[local spec high]
theorem inside_readParameters (index : Nat) (forms : List Form) :
    ⦃⌜True⌝⦄ readParameters index forms ⦃readsInside⦄ := by
  induction forms generalizing index with
  | nil =>
      unfold readParameters
      mvcgen
  | cons form forms ih =>
      unfold readParameters
      mvcgen [ih]

theorem inside_readHeader (form : Form) :
    ⦃⌜True⌝⦄ readHeader form ⦃readsInside⦄ := by
  have isShape : IsShape functionShape := isShape_ofList (by decide)
  unfold readHeader
  mvcgen

/-! ## Layouts -/

/-- No problem is a position beyond the end of a form. -/
def AllInRange (problems : List Problem) : Prop :=
  ∀ problem ∈ problems, problem.cause.InRange

theorem AllInRange.append {first second : List Problem}
    (before : AllInRange first) (after : AllInRange second) :
    AllInRange (first ++ second) := by
  intro problem member
  rcases List.mem_append.mp member with member | member
  · exact before problem member
  · exact after problem member

theorem AllInRange.concat {problems : List Problem} {problem : Problem}
    (before : AllInRange problems) (inRange : problem.cause.InRange) :
    AllInRange (problems ++ [problem]) :=
  before.append fun _ member => List.mem_singleton.mp member ▸ inRange

theorem LayoutState.inRange_enter {Layout : Type}
    {declaration : Declaration} {reader : TypeReader Layout}
    (inside : ⦃⌜True⌝⦄ reader ⦃readsInside⦄)
    {add : Layouts → Layout → Layouts} {state : LayoutState}
    (before : AllInRange state.problems) :
    AllInRange (state.enter declaration reader add).problems := by
  have reads := staysInside_run inside state.table
  unfold LayoutState.enter
  rcases outcome : reader.run state.table with ⟨result, table⟩
  rw [outcome] at reads
  cases result with
  | ok layout => exact before
  | error cause => exact before.concat (reads cause rfl)

theorem LayoutState.inRange_enterStruct {declaration : Declaration}
    {state : LayoutState} (before : AllInRange state.problems) :
    AllInRange (state.enterStruct declaration).problems := by
  unfold LayoutState.enterStruct
  split
  · exact inRange_enter (inside_readStruct declaration) before
  · exact before
  · exact before

theorem LayoutState.inRange_enterTagged {declaration : Declaration}
    {state : LayoutState} (before : AllInRange state.problems) :
    AllInRange (state.enterTagged declaration).problems := by
  unfold LayoutState.enterTagged
  split
  · exact before
  · exact inRange_enter (inside_readSum declaration) before
  · exact inRange_enter (inside_readUnion declaration) before

theorem LayoutState.inRange_foldl {enter : LayoutState → Declaration →
      LayoutState}
    (each : ∀ declaration state, AllInRange state.problems →
      AllInRange (enter state declaration).problems)
    (declarations : List Declaration) {state : LayoutState}
    (before : AllInRange state.problems) :
    AllInRange (declarations.foldl enter state).problems := by
  induction declarations generalizing state with
  | nil => exact before
  | cons declaration declarations ih =>
      exact ih (each declaration state before)

/-- A declaration without a name is a problem of its own. -/
theorem Declaration.inRange_of_ofForm? {form : Form} {problem : Problem}
    (failed : ofForm? form = some (.error problem)) :
    problem.cause.InRange := by
  obtain ⟨kind, -, same⟩ := Option.map_eq_some_iff.mp failed
  dsimp only at same
  split at same <;> cases same
  show IsShape "(.. :name N ..)"
  exact isShape_ofList (by decide)

theorem inRange_layOut (forms : List Form) (table : TypeTable) :
    AllInRange (layOut forms table).problems := by
  unfold layOut
  refine LayoutState.inRange_foldl
    (fun _ _ before => LayoutState.inRange_enterTagged before) _ ?_
  refine LayoutState.inRange_foldl
    (fun _ _ before => LayoutState.inRange_enterStruct before) _ ?_
  intro problem member
  obtain ⟨entry, found, same⟩ := List.mem_filterMap.mp member
  obtain ⟨form, -, read⟩ := List.mem_filterMap.mp found
  cases entry with
  | ok declaration => cases same
  | error other =>
      cases same
      exact Declaration.inRange_of_ofForm? read

/-! ## Modules -/

/-- No problem of a module so far is a position beyond the end of a form. -/
def tidy : Assertion (.arg ModuleState .pure) :=
  fun state => ⌜AllInRange state.problems⌝

@[local spec high]
theorem tidy_onModule (operation : StateM Module Result) :
    ⦃tidy⦄ onModule operation ⦃⇓ _ => tidy⦄ :=
  fun _ tidy => tidy

theorem tidy_addProblem (operation : String) (span : Option Span)
    {cause : ProblemCause} (inRange : cause.InRange) :
    ⦃tidy⦄ (modify (·.addProblem operation span cause) : ModuleEmission Unit)
      ⦃⇓ _ => tidy⦄ :=
  fun _ tidy => AllInRange.concat tidy inRange

@[local spec high]
theorem tidy_reading (operation : String) (span : Option Span)
    {reader : TypeReader Result}
    (inside : ⦃⌜True⌝⦄ reader ⦃readsInside⦄) :
    ⦃tidy⦄ reading operation span reader ⦃⇓ _ => tidy⦄ := by
  intro state before
  have reads := staysInside_run inside state.module.types
  have run : (onModule (Module.withTypes reader.run) state).1 =
      (reader.run state.module.types).1 := rfl
  show (tidy (reading operation span reader state).2).down
  unfold reading
  rw [stateM_bind_apply, run]
  cases outcome : (reader.run state.module.types).1 with
  | ok result => exact before
  | error cause => exact AllInRange.concat before (reads cause outcome)

@[local spec high]
theorem tidy_declareGlobal (form : Form) :
    ⦃tidy⦄ declareGlobal form ⦃⇓ _ => tidy⦄ := by
  have isShape : IsShape "(global :name G :type T :const b :init lit)" :=
    isShape_ofList (by decide)
  unfold declareGlobal
  mvcgen
  rename_i before later
  exact AllInRange.concat before isShape

@[local spec high]
theorem tidy_declareHeader (form : Form) :
    ⦃tidy⦄ declareHeader form ⦃⇓ _ => tidy⦄ := by
  unfold declareHeader
  mvcgen
  exact fun table => inside_readHeader form table trivial

@[local spec high]
theorem tidy_declare (form : Form) :
    ⦃tidy⦄ declare form ⦃⇓ _ => tidy⦄ := by
  unfold declare
  mvcgen
  rename_i before later
  exact @AllInRange.concat _ (moduleProblem _ _ .unrecognized) before trivial

@[local spec high]
theorem tidy_layOutModule (declarations : List Form) :
    ⦃tidy⦄ layOutModule declarations ⦃⇓ _ => tidy⦄ :=
  fun state tidy =>
    AllInRange.append tidy (inRange_layOut declarations state.module.types)

/-- The same holds where the emission of a module gives up. -/
abbrev tidyOrFailed :
    PostCond Result (.except EmitError (.arg ModuleState .pure)) :=
  post⟨fun _ => tidy, fun _ => tidy⟩

@[local spec high]
theorem tidy_forM {Item : Type} {visit : Item → ModuleHandler PUnit}
    (items : List Item)
    (each : ∀ item, ⦃tidy⦄ visit item ⦃tidyOrFailed⦄) :
    ⦃tidy⦄ items.forM visit ⦃tidyOrFailed⦄ := by
  induction items with
  | nil => exact fun _ tidy => tidy
  | cons item items ih =>
      rw [List.forM]
      mvcgen [each, ih]

theorem problems_emitBody {function : FunctionId} {header : FunctionHeader}
    {body : List Form} {environment : Environment} {state final : EmitState}
    {result : Except EmitError Unit}
    (ran : (emitBody function header body).run environment state =
      (result, final))
    (before : AllInRange state.problems) :
    AllInRange final.problems := by
  have after := clean_emitBody function header body environment state before
  simp [wp, ExceptT.run, StateT.run, ReaderT.run] at after ran
  rw [ran] at after
  cases result <;> exact after

@[local spec high]
theorem tidy_emitFunction (configuration : Configuration)
    (header : FunctionHeader) (body : List Form) :
    ⦃tidy⦄ emitFunction configuration header body ⦃tidyOrFailed⦄ := by
  unfold emitFunction
  mvcgen
  rename_i before function _ result final ran
  have after : AllInRange final.problems :=
    problems_emitBody ran before
  cases result <;> exact after

@[local spec high]
theorem tidy_emitFunctions (configuration : Configuration)
    (headers : List FunctionHeader) :
    ⦃tidy⦄ emitFunctions configuration headers ⦃tidyOrFailed⦄ := by
  induction headers with
  | nil =>
      unfold emitFunctions
      mvcgen
  | cons header headers ih =>
      unfold emitFunctions
      mvcgen [ih]

theorem tidy_emitModule (configuration : Configuration) (form : Form) :
    ⦃tidy⦄ emitModule configuration form ⦃tidyOrFailed⦄ := by
  unfold emitModule
  mvcgen

/-! ## All readings -/

/-- Only the empty list cannot be checked. -/
theorem checkMatches_breaksOff (form : Form) :
    match form.list? with
    | some [] => Coverage.checkMatches form = .error .emptyModule
    | _ => ∃ checked, Coverage.checkMatches form = .ok checked := by
  unfold Coverage.checkMatches Coverage.declarations
  split
  · next empty =>
      rw [empty]
      rfl
  · next other =>
      split
      · exact ⟨_, rfl⟩
      · next empty => exact absurd empty other
      · exact ⟨_, rfl⟩

theorem allInRange_emitted (configuration : Configuration) (form : Form) :
    AllInRange (emitted configuration form).state.problems := by
  have none : AllInRange
      (ModuleState.ofConfiguration configuration).problems := nofun
  have after := tidy_emitModule configuration form _ none
  unfold emitted
  rcases ran : (emitModule configuration form).run
    (ModuleState.ofConfiguration configuration) with ⟨result, final⟩
  simp [wp, ExceptT.run, StateT.run] at after ran
  rw [ran] at after
  cases result <;> exact after

end FormCompiler
