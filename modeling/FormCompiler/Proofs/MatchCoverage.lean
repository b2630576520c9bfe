import FormCompiler.Coverage
import FormCompiler.Emit.ModuleForm
import FormCompiler.Ir.Printer
import FormCompiler.Proofs.Effects

/-!
# Coverage and the tests of a match

The check for exhaustive matches and the emission of matches read the same
declarations and the same forms, each in its own way.  They agree on keyword
arguments as long as a keyword stands in every keyword's place: emission stops
reading at the first item that is none, and the check goes on behind it.

Where they agree, a match is found exhaustive exactly when its tests leave no
tag of the sum out or it has a default.
-/

namespace FormCompiler

open Ir

/-! ## Keyword arguments -/

/-- Whether keywords and values alternate. -/
def isKeyed : List Form → Bool
  | key :: _ :: rest => key.keyword?.isSome && isKeyed rest
  | _ => true

theorem keywordValue?_eq_get? (key : String) : ∀ {items : List Form},
    isKeyed items = true →
      Coverage.keywordValue? key items =
        (KeywordArguments.ofItems items).get? key
  | [], _ | [_], _ => rfl
  | keyword :: value :: rest, keyed => by
      simp only [isKeyed, Bool.and_eq_true] at keyed
      obtain ⟨name, named⟩ := Option.isSome_iff_exists.mp keyed.1
      have ih := keywordValue?_eq_get? key keyed.2
      unfold KeywordArguments.ofItems KeywordArguments.get? at ih ⊢
      simp only [Coverage.keywordValue?, KeywordArguments.readPairs, named,
        Option.some.injEq, List.lookup_cons]
      by_cases same : name = key
      · simp [same]
      · have apart : (key == name) = false := by
          simpa using fun equal : key = name => same equal.symm
        simp only [same, apart, if_false]
        exact ih

/-! ## Results of readers -/

/-- Whenever a reader gives a result, the result is good. -/
def ReadsGood {Result : Type} (reader : TypeReader Result)
    (good : Result → Prop) : Prop :=
  ∀ table result, (reader.run table).1 = .ok result → good result

namespace ReadsGood

variable {Result Part : Type} {good : Result → Prop}

theorem pure {result : Result} (holds : good result) :
    ReadsGood (Pure.pure result) good := by
  rintro _ _ ⟨⟩
  exact holds

theorem bind {reader : TypeReader Part} {found : Part → Prop}
    {next : Part → TypeReader Result} (first : ReadsGood reader found)
    (rest : ∀ part, found part → ReadsGood (next part) good) :
    ReadsGood (reader >>= next) good := by
  intro table result given
  have run : (reader >>= next).run table =
      (ExceptT.bindCont next (reader.run table).1 :
        StateM TypeTable _) (reader.run table).2 := rfl
  rw [run] at given
  cases outcome : (reader.run table).1 with
  | error cause =>
      rw [outcome] at given
      cases given
  | ok part =>
      rw [outcome] at given
      exact rest part (first table part outcome) _ result given

theorem skip {reader : TypeReader Part} {next : Part → TypeReader Result}
    (rest : ∀ part, ReadsGood (next part) good) :
    ReadsGood (reader >>= next) good :=
  bind (fun _ _ _ => trivial) fun part (_ : True) => rest part

theorem shaped {shape : String} {part : Option Part}
    {next : Part → TypeReader Result}
    (rest : ∀ found, part = some found → ReadsGood (next found) good) :
    ReadsGood (FormCompiler.shaped shape part >>= next) good := by
  cases part with
  | some part => exact rest part rfl
  | none =>
      rintro _ _ ⟨⟩

end ReadsGood

/-! ## Declared sums -/

/-- The name that a variant is declared under, as emission reads it. -/
def variantName? (form : Form) : Option String :=
  (argumentsUnder? "variant" form).bind fun arguments =>
    arguments.symbol? "name"

theorem finds_variant (tag : Nat) (form : Form) :
    ReadsGood (readVariant tag form) fun variant =>
      variant.tag = tag ∧ variantName? form = some variant.name := by
  refine .shaped fun arguments under => .shaped fun name named => ?_
  refine .skip fun fields => ?_
  split
  · refine .pure ⟨rfl, ?_⟩
    unfold variantName?
    rw [under]
    exact named
  · rintro _ _ ⟨⟩

theorem finds_variants (tag : Nat) (forms : List Form) :
    ReadsGood (readVariants tag forms) fun variants =>
      variants.map Variant.tag = List.range' tag variants.length ∧
        forms.filterMap variantName? = variants.map Variant.name := by
  induction forms generalizing tag with
  | nil => exact .pure ⟨rfl, rfl⟩
  | cons form forms ih =>
      refine .bind (finds_variant tag form) fun variant known => ?_
      refine .bind (ih (tag + 1)) fun variants others => .pure ?_
      simp [known.1, known.2, others.1, others.2, List.range'_succ]

/-- The variant forms of a declaration. -/
def variantForms (arguments : KeywordArguments) : List Form :=
  (arguments.vector? "variants").getD []

/-- The tags of a sum count its variants. -/
def SumLayout.IsNumbered (layout : SumLayout) : Prop :=
  layout.variants.map Variant.tag = List.range layout.variants.length

theorem finds_sum (declaration : Declaration) :
    ReadsGood (readSum declaration) fun layout => layout.IsNumbered ∧
      (variantForms declaration.arguments).filterMap variantName? =
        layout.variantNames := by
  refine .bind (finds_variants 0 _) fun variants known => ?_
  refine .skip fun table => .skip fun tag => .skip fun byte => ?_
  refine .skip fun payload => .skip fun type => .pure ?_
  exact ⟨known.1.trans (List.range_eq_range').symm, known.2⟩

/-- The items after the head of a list. -/
def argumentItems (form : Form) : List Form := (form.list?.getD []).tail

theorem list?_of_head? {form : Form} {head : String}
    (headed : form.head? = some head) :
    form.list? = some (form.list?.getD []) := by
  unfold Tree.head? at headed
  cases listed : form.list? with
  | none => rw [listed] at headed; cases headed
  | some items => rfl

/-- A declaration of a sum that is read the same way wherever it is read. -/
structure IsRegularSum (form : Form) : Prop where
  keyed : isKeyed (argumentItems form) = true
  variants : ∀ variant ∈ variantForms (.ofForm form),
    isKeyed (argumentItems variant) = true
  distinct : ((variantForms (.ofForm form)).filterMap variantName?).Nodup

theorem declaredName_eq {form : Form}
    (keyed : isKeyed (argumentItems form) = true) :
    (Coverage.keywordValue? "name" (argumentItems form)).bind Tree.name? =
      (KeywordArguments.ofForm form).symbol? "name" := by
  rw [keywordValue?_eq_get? "name" keyed]
  rfl

theorem declaredVariants_eq {form : Form} (regular : IsRegularSum form) :
    Coverage.declaredVariants (argumentItems form) =
      (variantForms (.ofForm form)).filterMap variantName? := by
  unfold Coverage.declaredVariants
  rw [keywordValue?_eq_get? "variants" regular.keyed]
  refine List.filterMap_congr fun variant member => ?_
  unfold variantName? argumentsUnder?
  split
  · next headed =>
      rw [list?_of_head? headed]
      exact declaredName_eq (regular.variants variant member)
  · rfl

theorem declaredSum?_eq {form : Form} (regular : IsRegularSum form)
    (headed : form.head? = some "sum") :
    Coverage.declaredSum? form =
      ((KeywordArguments.ofForm form).symbol? "name").map fun name =>
        (name, (variantForms (.ofForm form)).filterMap variantName?) := by
  unfold Coverage.declaredSum?
  rw [if_pos headed, list?_of_head? headed, ← declaredName_eq regular.keyed,
    ← declaredVariants_eq regular]
  rfl

theorem declaredSum?_eq_none {form : Form}
    (other : form.head? ≠ some "sum") : Coverage.declaredSum? form = none :=
  if_neg other

/-! ## Laid out sums -/

namespace LayoutState

/-- The names of the variants of a sum, if it is laid out. -/
def names? (state : LayoutState) (sum : String) : Option (List String) :=
  (state.layouts.sums.find? sum).map SumLayout.variantNames

/-- The tags of every sum count its variants. -/
def AllNumbered (state : LayoutState) : Prop :=
  ∀ sum layout, state.layouts.sums.find? sum = some layout →
    layout.IsNumbered

variable {state : LayoutState} {declaration : Declaration}

theorem problems_enter {Layout : Type} (reader : TypeReader Layout)
    (add : Layouts → Layout → Layouts)
    (none : (state.enter declaration reader add).problems = []) :
    state.problems = [] ∧ ∃ layout, (reader.run state.table).1 = .ok layout ∧
      (state.enter declaration reader add).layouts =
        add state.layouts layout := by
  unfold enter at none ⊢
  generalize reader.run state.table = outcome at none ⊢
  obtain ⟨result, table⟩ := outcome
  cases result with
  | ok layout => exact ⟨none, layout, rfl, rfl⟩
  | error cause => simp at none

/-- What a declaration that is accepted changes. -/
theorem enterTagged_accepted
    (none : (state.enterTagged declaration).problems = []) :
    state.problems = [] ∧
      ((declaration.kind ≠ .sum ∧
        (state.enterTagged declaration).layouts.sums = state.layouts.sums) ∨
      (declaration.kind = .sum ∧ ∃ layout, layout.IsNumbered ∧
        (variantForms declaration.arguments).filterMap variantName? =
          layout.variantNames ∧
        (state.enterTagged declaration).layouts.sums =
          state.layouts.sums.insert declaration.name layout)) := by
  unfold enterTagged at none ⊢
  cases kind : declaration.kind with
  | struct => simp_all
  | union =>
      simp only [kind] at none ⊢
      obtain ⟨empty, layout, -, layouts⟩ := problems_enter _ _ none
      exact ⟨empty, .inl ⟨nofun, by rw [layouts]⟩⟩
  | sum =>
      simp only [kind] at none ⊢
      obtain ⟨empty, layout, read, layouts⟩ := problems_enter _ _ none
      obtain ⟨numbered, names⟩ := finds_sum declaration _ layout read
      exact ⟨empty, .inr ⟨trivial, layout, numbered, names, by rw [layouts]⟩⟩

theorem problems_enterStruct
    (none : (state.enterStruct declaration).problems = []) :
    state.problems = [] ∧
      (state.enterStruct declaration).layouts.sums = state.layouts.sums := by
  unfold enterStruct at none ⊢
  cases kind : declaration.kind with
  | struct =>
      simp only [kind] at none ⊢
      obtain ⟨empty, layout, -, layouts⟩ := problems_enter _ _ none
      exact ⟨empty, by rw [layouts]⟩
  | sum | union =>
      simp only [kind] at none ⊢
      exact ⟨none, trivial⟩

theorem problems_foldl {enter : LayoutState → Declaration → LayoutState}
    (step : ∀ {state declaration}, (enter state declaration).problems = [] →
      state.problems = []) {declarations : List Declaration}
    (none : (declarations.foldl enter state).problems = []) :
    state.problems = [] := by
  induction declarations generalizing state with
  | nil => exact none
  | cons declaration declarations ih => exact step (ih none)

theorem sums_enterStructs {declarations : List Declaration}
    (none : (declarations.foldl enterStruct state).problems = []) :
    (declarations.foldl enterStruct state).layouts.sums =
      state.layouts.sums := by
  induction declarations generalizing state with
  | nil => rfl
  | cons declaration declarations ih =>
      have accepted : (state.enterStruct declaration).problems = [] :=
        problems_foldl (fun none => (problems_enterStruct none).1) none
      exact (ih none).trans (problems_enterStruct accepted).2

end LayoutState

/-- The declaration that a form makes, unless there is a problem with it. -/
def declaration? (form : Form) : Option Declaration :=
  (Declaration.ofForm? form).bind Except.toOption

theorem declaration?_spec {form : Form} {declaration : Declaration}
    (declares : declaration? form = some declaration) :
    (declaration.kind = .sum ↔ form.head? = some "sum") ∧
      declaration.arguments = .ofForm form ∧
      (KeywordArguments.ofForm form).symbol? "name" =
        some declaration.name := by
  unfold declaration? Declaration.ofForm? at declares
  obtain ⟨outcome, found, accepted⟩ := Option.bind_eq_some_iff.mp declares
  obtain ⟨kind, named, rfl⟩ := Option.map_eq_some_iff.mp found
  obtain ⟨head, headed, known⟩ := Option.bind_eq_some_iff.mp named
  have same : kind.head = head := by
    simpa using List.find?_some known
  cases name : (KeywordArguments.ofForm form).symbol? "name" with
  | none =>
      dsimp only at accepted
      rw [name] at accepted
      cases accepted
  | some name =>
      simp only [name, Except.toOption, Option.some.injEq] at accepted
      subst accepted
      refine ⟨?_, rfl, rfl⟩
      rw [headed, ← same]
      cases kind <;> simp [AggregateKind.head]

/-- A sum whose declaration gives no declaration has a problem. -/
theorem exists_problem_of_sum {form : Form}
    (headed : form.head? = some "sum") (missing : declaration? form = none) :
    ∃ problem, Declaration.ofForm? form = some (.error problem) := by
  have kind : AggregateKind.ofHead? "sum" = some .sum := rfl
  unfold declaration? at missing
  unfold Declaration.ofForm? at missing ⊢
  rw [headed, Option.bind_some, kind, Option.map_some] at missing ⊢
  dsimp only at missing ⊢
  split
  · next named =>
      rw [named] at missing
      cases missing
  · exact ⟨_, rfl⟩

open LayoutState in
/-- Sums are laid out as the check collects them: the last declaration of a
name counts. -/
theorem names?_enterTagged {forms : List Form}
    (accepted : ∀ form ∈ forms, ∀ problem,
      Declaration.ofForm? form ≠ some (.error problem))
    (regular : ∀ form ∈ forms, form.head? = some "sum" → IsRegularSum form)
    {state : LayoutState} (numbered : state.AllNumbered)
    (none : ((forms.filterMap declaration?).foldl enterTagged
      state).problems = []) :
    ((forms.filterMap declaration?).foldl enterTagged state).AllNumbered ∧
      ∀ sum, ((forms.filterMap declaration?).foldl enterTagged
          state).names? sum =
        ((forms.filterMap Coverage.declaredSum?).reverse.lookup sum).or
          (state.names? sum) := by
  induction forms generalizing state with
  | nil => exact ⟨numbered, fun _ => rfl⟩
  | cons form forms ih =>
      rw [List.forall_mem_cons] at accepted regular
      cases declares : declaration? form with
      | none =>
          have other : form.head? ≠ some "sum" := fun headed =>
            (exists_problem_of_sum headed declares).elim accepted.1
          rw [List.filterMap_cons_none declares] at none ⊢
          rw [List.filterMap_cons_none (declaredSum?_eq_none other)]
          exact ih accepted.2 regular.2 numbered none
      | some declaration =>
          rw [List.filterMap_cons_some declares, List.foldl_cons] at none ⊢
          obtain ⟨kind, arguments, named⟩ := declaration?_spec declares
          have here : (state.enterTagged declaration).problems = [] :=
            problems_foldl (fun none => (enterTagged_accepted none).1) none
          obtain ⟨-, ⟨other, sums⟩ | ⟨isSum, layout, counted, names, sums⟩⟩ :=
            enterTagged_accepted here
          · have others : (state.enterTagged declaration).AllNumbered := by
              unfold AllNumbered
              rwa [sums]
            have later := ih accepted.2 regular.2 others none
            rw [List.filterMap_cons_none
              (declaredSum?_eq_none fun headed => other (kind.mpr headed))]
            refine ⟨later.1, fun sum => (later.2 sum).trans ?_⟩
            unfold names?
            rw [sums]
          · have headed := kind.mp isSum
            have declared := declaredSum?_eq (regular.1 headed) headed
            rw [named, Option.map_some, ← arguments, names] at declared
            have others : (state.enterTagged declaration).AllNumbered := by
              intro sum found
              rw [sums, NameMap.find?_insert]
              split
              · rintro ⟨⟩
                exact counted
              · exact numbered sum found
            have later := ih accepted.2 regular.2 others none
            refine ⟨later.1, fun sum => (later.2 sum).trans ?_⟩
            rw [List.filterMap_cons_some declared, List.reverse_cons,
              List.lookup_append, Option.or_assoc]
            congr 1
            unfold names?
            rw [sums, NameMap.find?_insert, List.lookup_cons]
            by_cases same : sum = declaration.name
            · simp [same]
            · have apart : (sum == declaration.name) = false := by
                simpa using same
              simp [same, apart]

theorem layOut_eq (forms : List Form) (table : TypeTable) :
    ∃ problems named, layOut forms table =
      (forms.filterMap declaration?).foldl LayoutState.enterTagged
        ((forms.filterMap declaration?).foldl LayoutState.enterStruct
          { table := named, problems }) ∧
      (problems = [] → ∀ form ∈ forms, ∀ problem,
        Declaration.ofForm? form ≠ some (.error problem)) := by
  have picked (pick : Except Problem Declaration → Option Declaration)
      (same : ∀ outcome, pick outcome = outcome.toOption) :
      (forms.filterMap Declaration.ofForm?).filterMap pick =
        forms.filterMap declaration? := by
    rw [List.filterMap_filterMap, funext same]
    rfl
  unfold layOut
  dsimp only
  rw [picked _ (by rintro ⟨⟩ <;> rfl)]
  refine ⟨_, _, rfl, fun none form member problem found => ?_⟩
  have unreported := List.filterMap_eq_nil_iff.mp none (.error problem)
    (List.mem_filterMap.mpr ⟨form, member, found⟩)
  cases unreported

open LayoutState in
/-- Where no declaration has a problem, the check knows the sums that
emission knows, with the same variants. -/
theorem sums_layOut {forms : List Form} {table : TypeTable}
    (accepted : (layOut forms table).problems = [])
    (regular : ∀ form ∈ forms, form.head? = some "sum" → IsRegularSum form) :
    (layOut forms table).AllNumbered ∧ ∀ sum,
      (layOut forms table).names? sum =
        (Coverage.SumVariants.collect forms).variants? sum := by
  obtain ⟨problems, named, laidOut, declared⟩ := layOut_eq forms table
  rw [laidOut] at accepted ⊢
  have structs := problems_foldl (fun none => (enterTagged_accepted none).1)
    accepted
  have none : problems = [] :=
    problems_foldl (fun none => (problems_enterStruct none).1) structs
  have sums := sums_enterStructs structs
  have numbered : ((forms.filterMap declaration?).foldl enterStruct
      { table := named, problems }).AllNumbered := by
    unfold AllNumbered
    rw [sums]
    rintro _ _ ⟨⟩
  obtain ⟨counted, names⟩ :=
    names?_enterTagged (declared none) regular numbered accepted
  refine ⟨counted, fun sum => (names sum).trans ?_⟩
  unfold names?
  rw [sums]
  exact Option.or_none

theorem head?_of_keyword? {form : Form} {key : String}
    (keyed : form.keyword? = some key) : form.head? = none := by
  cases form with
  | atom => rfl
  | group | tagged => cases keyed

/-- Unless the value of a setting is one, the check collects the sums that
are declared. -/
theorem collect_splitModule {items : List Form}
    (plain : ∀ setting ∈ (splitModule items).1.settings,
      setting.2.head? ≠ some "sum") :
    Coverage.SumVariants.collect items =
      .collect (splitModule items).1.declarations := by
  have same : items.filterMap Coverage.declaredSum? =
      (splitModule items).1.declarations.filterMap Coverage.declaredSum? := by
    have skipped {form : Form} {key : String}
        (keyed : form.keyword? = some key) :
        Coverage.declaredSum? form = none :=
      declaredSum?_eq_none (by rw [head?_of_keyword? keyed]; nofun)
    fun_induction splitModule items with
    | case1 => rfl
    | case2 item rest missing parts error found ih =>
        rw [found] at ih
        simp only [List.filterMap_cons, ih plain]
    | case3 item key found => simp [skipped found]
    | case4 item key found value rest parts error split ih =>
        rw [split] at ih
        rw [List.forall_mem_cons] at plain
        rw [List.filterMap_cons_none (skipped found),
          List.filterMap_cons_none (declaredSum?_eq_none plain.1)]
        exact ih plain.2
  unfold Coverage.SumVariants.collect
  rw [same]

/-! ## Cases -/

/-- The variant that a case names. -/
def caseName? (form : Form) : Option String :=
  if form.head? = some "case" then
    form.list?.bind fun items => items[1]?.bind Tree.name?
  else none

theorem gives_caseTag (layout : SumLayout) (sum : String) (form : Form) :
    Gives (readCase layout sum form) fun arm => ∃ name,
      caseName? form = some name ∧
        arm.map TaggedArm.tag = (layout.variant? name).map Variant.tag := by
  unfold readCase
  refine .ite (fun _ => .bind (.throw _) fun _ => False.elim) fun headed => ?_
  refine .orFail_step _ fun items listed => .parse fun name found => ?_
  have named : caseName? form = some name := by
    unfold caseName?
    rw [if_pos (not_not.mp headed), listed, Option.bind_some]
    unfold symbolAt at found
    split at found
    · next same => cases found; exact same
    · cases found
  split
  · next missing =>
      refine .skip fun _ => .pure ⟨name, named, ?_⟩
      rw [missing]
      rfl
  · next variant known =>
      refine .parse fun rest _ => ?_
      refine .orFail_step _ fun (bindForms, body, value) _ => ?_
      refine .skip fun bindings => .pure ⟨name, named, ?_⟩
      rw [known]
      rfl

theorem gives_caseTags (layout : SumLayout) (sum : String)
    (forms : List Form) :
    Gives (readCases layout sum forms) fun arms =>
      arms.map TaggedArm.tag =
        (forms.filterMap caseName?).filterMap fun name =>
          (layout.variant? name).map Variant.tag := by
  induction forms with
  | nil => exact .pure rfl
  | cons form forms ih =>
      refine .bind (gives_caseTag layout sum form)
        fun arm ⟨name, named, tagged⟩ => ?_
      refine .bind ih fun arms others => .pure ?_
      rw [List.map_append, others, List.filterMap_cons_some named,
        List.filterMap_cons, ← tagged]
      cases arm <;> rfl

theorem gives_default (found : Option Form) :
    Gives (found.mapM readDefault) fun default =>
      default.isSome = found.isSome := by
  cases found with
  | none => exact .pure rfl
  | some form => exact .skip fun _ => .pure rfl

theorem matchParts?_eq {form : Form} {items : List Form}
    (listed : form.list? = some items) :
    Coverage.matchParts? form = items[1]?.bind fun first =>
      let base := if isLocalReference first then 3 else 1
      items[base]?.bind fun sum =>
        sum.name?.map fun name => (name, items.drop (base + 2)) := by
  unfold Coverage.matchParts?
  rw [listed, Option.bind_some]
  congr 1
  funext first
  unfold isLocalReference
  generalize first.symbol?.map String.toList = characters
  split
  · rfl
  · split <;> simp_all

theorem gives_matchParts {form : Form} {items : List Form}
    (listed : form.list? = some items) :
    Gives (readResult items) fun found => ∀ sum,
      found.2[0]?.bind Tree.name? = some sum →
        Coverage.matchParts? form = some (sum, found.2.drop 2) := by
  rw [matchParts?_eq listed]
  match items with
  | [] | [_] => exact .pure (by simp)
  | head :: first :: rest =>
      refine .ite (fun isLocal => ?_) fun notLocal => ?_
      · refine .orFail_step _ fun name _ => ?_
        cases rest with
        | nil => exact .throw _
        | cons typeForm rest =>
            refine .skip fun type => .pure fun sum named => ?_
            simp only [List.getElem?_cons_succ, List.getElem?_cons_zero,
              Option.bind_some, if_pos isLocal]
            obtain ⟨sumForm, found, named⟩ := Option.bind_eq_some_iff.mp named
            rw [found, Option.bind_some, named]
            rfl
      · refine .pure fun sum named => ?_
        simp only [List.getElem?_cons_succ, List.getElem?_cons_zero,
          Option.bind_some, if_neg notLocal] at named ⊢
        rw [named]
        rfl

/-! ## Tests -/

theorem variant?_name {layout : SumLayout}
    (distinct : layout.variantNames.Nodup) {variant : Variant}
    (member : variant ∈ layout.variants) :
    layout.variant? variant.name = some variant := by
  have found : (layout.variant? variant.name).isSome :=
    List.find?_isSome.mpr ⟨variant, member, by simp⟩
  obtain ⟨other, found⟩ := Option.isSome_iff_exists.mp found
  have named : other.name = variant.name := by
    simpa using List.find?_some found
  have same := List.inj_on_of_nodup_map distinct
    (List.mem_of_find?_eq_some found) member named
  rw [found, same]

/-- A tag is tested when a case names its variant. -/
theorem tested_iff {layout : SumLayout} (numbered : layout.IsNumbered)
    (distinct : layout.variantNames.Nodup) {names : List String}
    {arms : List TaggedArm}
    (tags : arms.map TaggedArm.tag =
      names.filterMap fun name => (layout.variant? name).map Variant.tag)
    {variant : Variant} (member : variant ∈ layout.variants) :
    (∃ arm ∈ arms, arm.tag = variant.tag) ↔ variant.name ∈ names := by
  have tested : (∃ arm ∈ arms, arm.tag = variant.tag) ↔
      ∃ name ∈ names, (layout.variant? name).map Variant.tag =
        some variant.tag := by
    rw [← List.mem_map, tags, List.mem_filterMap]
  have counts : (layout.variants.map Variant.tag).Nodup :=
    numbered ▸ List.nodup_range
  rw [tested]
  constructor
  · rintro ⟨name, listed, found⟩
    obtain ⟨other, found, tag⟩ := Option.map_eq_some_iff.mp found
    have same := List.inj_on_of_nodup_map counts
      (List.mem_of_find?_eq_some found) member tag
    have named : other.name = name := by
      simpa using List.find?_some found
    rw [← same, named]
    exact listed
  · intro listed
    exact ⟨variant.name, listed, by rw [variant?_name distinct member]; rfl⟩

theorem missingVariants_isEmpty_iff (variants : List String)
    (arguments : List Form) :
    (Coverage.missingVariants variants arguments).isEmpty = true ↔
      Coverage.hasDefault arguments = true ∨
        ∀ variant ∈ variants,
          variant ∈ Coverage.coveredVariants arguments := by
  unfold Coverage.missingVariants
  split
  · next default => simp [default]
  · next none => simp [none]

/-- What is left to do once the blocks of a match are there. -/
def concludeMatch (result : Option MatchResult)
    (ended : BlockId × List (EdgeSource × String)) : Handler Unit :=
  match result with
  | some result => do
      let phi ← placePhi ended.1 result.destination result.type ended.2
      modify fun state =>
        { state with
          matchEnds := state.matchEnds ++ [(ended.1, result.type)] }
      define result.destination phi result.type
  | none => pure ()

section Runs

variable {Result Part : Type} {environment : Environment} {state : EmitState}
  {outcome : Result}

/-- A handler that succeeds goes on after its first step. -/
theorem run_of_ok {handler : Handler Part} {next : Part → Handler Result}
    (ok : ((handler >>= next).run environment state).1 = .ok outcome) :
    ∃ part later, (handler.run environment state).1 = .ok part ∧
      (handler >>= next).run environment state =
        (next part).run environment later := by
  cases first : (handler.run environment state).1 with
  | error cause =>
      rw [run_bind_of_error first] at ok
      cases ok
  | ok part => exact ⟨part, _, rfl, run_bind_of_ok first⟩

theorem parse_of_ok {part : Except ProblemCause Part}
    {next : Part → Handler Result}
    (ok : (((liftM part : Handler Part) >>= next).run environment state).1 =
      .ok outcome) :
    ∃ item, part = .ok item ∧
      ((liftM part : Handler Part) >>= next).run environment state =
        (next item).run environment state := by
  cases part with
  | error cause => cases ok
  | ok item => exact ⟨item, rfl, rfl⟩

theorem found_of_ok {cause : ProblemCause} {found : Option Part}
    {next : Part → Handler Result}
    (ok : ((orFail cause found >>= next).run environment state).1 =
      .ok outcome) :
    ∃ part, found = some part ∧
      (orFail cause found >>= next).run environment state =
        (next part).run environment state := by
  cases found with
  | none => cases ok
  | some part => exact ⟨part, rfl, rfl⟩

end Runs

theorem emitMatch_of_ok {emit : FormEmitter} {form : Form}
    {items : List Form} (listed : form.list? = some items)
    {environment : Environment} {state : EmitState}
    (ok : ((emitMatch emit items).run environment state).1 = .ok ()) :
    ∃ sum arguments layout arms default result scrutinee tag later,
      Coverage.matchParts? form = some (sum, arguments) ∧
      environment.layouts.sums.find? sum = some layout ∧
      arms.map TaggedArm.tag =
        ((((KeywordArguments.ofItems arguments).vector? "cases").getD
          []).filterMap caseName?).filterMap (fun name =>
            (layout.variant? name).map Variant.tag) ∧
      default.isSome =
        ((KeywordArguments.ofItems arguments).get? "default").isSome ∧
      (emitMatch emit items).run environment state = (do
        let ended ← emitMatchBlocks emit result scrutinee tag arms default
        concludeMatch result ended : Handler Unit).run environment later := by
  unfold emitMatch at ok ⊢
  obtain ⟨⟨result, rest⟩, later, read, run⟩ := run_of_ok ok
  rw [run] at ok ⊢
  obtain ⟨sum, named, run⟩ := parse_of_ok ok
  rw [run] at ok ⊢
  obtain ⟨scrutineeForm, -, run⟩ := found_of_ok ok
  rw [run] at ok ⊢
  obtain ⟨_, later, ⟨⟩, run⟩ := run_of_ok ok
  rw [run] at ok ⊢
  obtain ⟨layout, known, run⟩ := found_of_ok ok
  rw [run] at ok ⊢
  obtain ⟨arms, later, cases, run⟩ := run_of_ok ok
  rw [run] at ok ⊢
  obtain ⟨default, later, defaults, run⟩ := run_of_ok ok
  rw [run] at ok ⊢
  obtain ⟨scrutinee, later, -, run⟩ := run_of_ok ok
  rw [run] at ok ⊢
  obtain ⟨_, later, -, run⟩ := run_of_ok ok
  rw [run] at ok ⊢
  obtain ⟨tagAddress, -, run⟩ := found_of_ok ok
  rw [run] at ok ⊢
  obtain ⟨_, later, -, run⟩ := run_of_ok ok
  rw [run] at ok ⊢
  obtain ⟨tag, -, run⟩ := found_of_ok ok
  rw [run]
  have first : rest[0]?.bind Tree.name? = some sum := by
    unfold symbolAt at named
    split at named
    · next same => cases named; exact same
    · cases named
  refine ⟨sum, rest.drop 2, layout, arms, default, result, scrutinee, tag,
    later, gives_matchParts listed _ _ _ read sum first, known,
    gives_caseTags layout sum _ _ _ _ cases,
    gives_default _ _ _ _ defaults, ?_⟩
  cases result <;> rfl


theorem nodup_of_variants? {forms : List Form}
    (regular : ∀ form ∈ forms, form.head? = some "sum" → IsRegularSum form)
    {sum : String} {variants : List String}
    (known : (Coverage.SumVariants.collect forms).variants? sum =
      some variants) : variants.Nodup := by
  obtain ⟨before, after, listed, -⟩ := List.lookup_eq_some_iff.mp known
  have member : (sum, variants) ∈
      (forms.filterMap Coverage.declaredSum?).reverse := by
    rw [show (forms.filterMap Coverage.declaredSum?).reverse = _ from listed]
    simp
  obtain ⟨form, declared, found⟩ :=
    List.mem_filterMap.mp (List.mem_reverse.mp member)
  have headed : form.head? = some "sum" := by
    by_contra other
    rw [declaredSum?_eq_none other] at found
    cases found
  rw [declaredSum?_eq (regular form declared headed) headed] at found
  obtain ⟨name, -, same⟩ := Option.map_eq_some_iff.mp found
  cases same
  exact (regular form declared headed).distinct

/-- Where no declaration has a problem, keywords stand in all their places and
no sum names a variant twice, the check agrees with emission on every match
that is emitted: it has nothing to report exactly when the match has a default
or a test for the tag of every variant. -/
theorem checkMatch_eq_none_iff_tested {items : List Form} {table : TypeTable}
    (accepted :
      (layOut (splitModule items).1.declarations table).problems = [])
    (regular : ∀ form ∈ (splitModule items).1.declarations,
      form.head? = some "sum" → IsRegularSum form)
    (plain : ∀ setting ∈ (splitModule items).1.settings,
      setting.2.head? ≠ some "sum")
    {environment : Environment}
    (layouts : environment.layouts =
      (layOut (splitModule items).1.declarations table).layouts)
    {form : Form} {parts : List Form} (listed : form.list? = some parts)
    (keyed : ∀ sum arguments,
      Coverage.matchParts? form = some (sum, arguments) →
        isKeyed arguments = true)
    {emit : FormEmitter} {state : EmitState}
    (emitted : ((emitMatch emit parts).run environment state).1 = .ok ()) :
    ∃ sum layout arms default result scrutinee tag later,
      (Coverage.matchParts? form).map Prod.fst = some sum ∧
      environment.layouts.sums.find? sum = some layout ∧
      (emitMatch emit parts).run environment state = (do
        let ended ← emitMatchBlocks emit result scrutinee tag arms default
        concludeMatch result ended : Handler Unit).run environment later ∧
      ((Coverage.checkMatch (.collect items) form).2 = none ↔
        default.isSome = true ∨ ∀ variant ∈ layout.variants,
          ∃ arm ∈ arms, arm.tag = variant.tag) := by
  obtain ⟨sum, arguments, layout, arms, default, result, scrutinee, tag, later,
    split, known, tags, defaults, run⟩ := emitMatch_of_ok listed emitted
  refine ⟨sum, layout, arms, default, result, scrutinee, tag, later, ?_, known,
    run, ?_⟩
  · rw [split]
    rfl
  rw [collect_splitModule plain]
  generalize (splitModule items).1.declarations = declarations at *
  obtain ⟨numbered, names⟩ := sums_layOut accepted regular
  rw [layouts] at known
  have variants : (Coverage.SumVariants.collect declarations).variants? sum =
      some layout.variantNames := by
    rw [← names sum]
    unfold LayoutState.names?
    rw [known]
    rfl
  have distinct := nodup_of_variants? regular variants
  have isKeyed := keyed sum arguments split
  have covered : Coverage.coveredVariants arguments =
      (((KeywordArguments.ofItems arguments).vector? "cases").getD
        []).filterMap caseName? := by
    unfold Coverage.coveredVariants
    rw [keywordValue?_eq_get? "cases" isKeyed]
    rfl
  have hasDefault : Coverage.hasDefault arguments = default.isSome := by
    unfold Coverage.hasDefault
    rw [keywordValue?_eq_get? "default" isKeyed, defaults]
  have verdict : (Coverage.checkMatch (.collect declarations) form).2 = none ↔
      (Coverage.missingVariants layout.variantNames arguments).isEmpty =
        true := by
    unfold Coverage.checkMatch
    rw [split]
    simp only [variants]
    split <;> simp_all
  rw [verdict, missingVariants_isEmpty_iff, hasDefault, covered]
  refine or_congr Iff.rfl ?_
  unfold SumLayout.variantNames
  rw [List.forall_mem_map]
  refine forall₂_congr fun variant member => ?_
  exact (tested_iff (numbered sum layout known) distinct tags member).symm

/-- A sum of two variants without fields. -/
def pairOfVariants : Form :=
  Form.keywordCall "sum" [("name", Form.symbol "S"),
    ("variants", Form.vector
      [Form.keywordCall "variant" [("name", Form.symbol "A")],
        Form.keywordCall "variant" [("name", Form.symbol "B")]])]

/-- A match on a pointer to the sum, with one of its two cases. -/
def matchOfOneCase : List Form :=
  [Form.symbol "match", Form.symbol "S", Form.symbol "%s",
    Form.keyword "cases", Form.vector [Form.list
      [Form.symbol "case", Form.symbol "B", Form.vector []]]]

/-- A match that the check finds to miss a variant, and no test is for the
tag of that variant. -/
theorem checkMatch_eq_none_iff_tested_matchOfOneCase :
    let laidOut := layOut [pairOfVariants] {}
    let environment : Environment := ⟨{}, laidOut.layouts, "f"⟩
    ∃ layout arms default,
      environment.layouts.sums.find? "S" = some layout ∧
      (Coverage.checkMatch (.collect [pairOfVariants])
        (Form.list matchOfOneCase)).2.isSome = true ∧
      ((Coverage.checkMatch (.collect [pairOfVariants])
          (Form.list matchOfOneCase)).2 = none ↔
        (default : Option Arm).isSome = true ∨ ∀ variant ∈ layout.variants,
          ∃ arm ∈ (arms : List TaggedArm), arm.tag = variant.tag) := by
  intro laidOut environment
  let pointer := TypeTable.pointer ⟨0⟩ laidOut.table
  let state : EmitState :=
    { builder :=
        { module := { name := "edn", types := pointer.2 }, function := 0 }
      context := { values := ⟨[("s", ⟨0, pointer.1, .firstClass
        (.undef .pointer)⟩)]⟩ } }
  have accepted : (layOut (splitModule [pairOfVariants]).1.declarations
      {}).problems = [] := by
    decide +kernel
  have regular : ∀ form ∈ (splitModule [pairOfVariants]).1.declarations,
      form.head? = some "sum" → IsRegularSum form := by
    intro form member _
    cases List.mem_singleton.mp member
    exact ⟨by decide +kernel, by decide +kernel, by decide +kernel⟩
  have keyed : ∀ sum arguments,
      Coverage.matchParts? (Form.list matchOfOneCase) =
        some (sum, arguments) → isKeyed arguments = true := by
    rintro _ _ ⟨⟩
    decide +kernel
  have ok : ((emitMatch (fun _ => pure ()) matchOfOneCase).run environment
      state).1 = .ok () := by
    decide +kernel
  obtain ⟨sum, layout, arms, default, -, -, -, -, named, known, -, agrees⟩ :=
    checkMatch_eq_none_iff_tested accepted regular (by decide +kernel)
      rfl rfl keyed ok
  cases named
  exact ⟨layout, arms, default, known, by decide +kernel, agrees⟩

/-- A module with a match whose `:default` stands behind an item in the place
of a keyword. -/
def maskedDefault : Form :=
  Form.list [Form.symbol "module", pairOfVariants,
    Form.keywordCall "fn" [("name", Form.symbol "f"),
      ("ret", Form.symbol "i32"),
      ("params", Form.vector [Form.list [Form.symbol "param",
        Form.list [Form.symbol "ptr", Form.symbol "S"],
        Form.symbol "%s"]]),
      ("body", Form.vector [
        Form.list [Form.symbol "match", Form.symbol "S", Form.symbol "%s",
          Form.symbol "extra", Form.symbol "x",
          Form.keyword "default", Form.vector []],
        Form.list [Form.symbol "ret", Form.symbol "i32",
          .atom .empty (.int 0)]])]]

/-- The check has nothing to report on the match, and what is emitted for it
has neither a default nor a test. -/
theorem maskedDefault_is_untested :
    let emitted := emitted {} maskedDefault
    (Coverage.checkMatches maskedDefault).toOption.map Prod.snd = some [] ∧
      emitted.error = none ∧ emitted.state.problems.isEmpty = true ∧
      emitted.state.module.lines =
        ["; ModuleID = 'edn'",
          "%struct.S = type \x7b i32, [1 x i8] \x7d", "",
          "define i32 @f(ptr %s) \x7b", "entry:",
          "  %match.tag.addr = getelementptr %struct.S, ptr %s, " ++
            "i32 0, i32 0",
          "  %match.tag = load i32, ptr %match.tag.addr",
          "  br label %match.end.0", "",
          "match.end.0:", "  ret i32 0", "\x7d"] := by
  intro emitted
  refine ⟨?_, ?_, ?_, ?_⟩ <;> decide +kernel

end FormCompiler
