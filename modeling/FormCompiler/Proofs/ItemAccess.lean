import FormCompiler.Proofs.BodyFrames

/-!
# Items within their forms

Handlers take the items of a form by position, and check before that the form
is as long as they need.  A position beyond the end would be a cause of its
own, which no problem ever has.

The length that a handler checks is at hand for everything that follows the
check, and then each position is a comparison of two numbers.
-/

open Std.Do

set_option mvcgen.warning false

namespace FormCompiler

open Ir

variable {Result : Type}

/-! ## Causes -/

/-- A text that names the shape of a form. -/
def IsShape (shape : String) : Prop := shape.toList.head? ≠ some 'i'

/-- A literal text begins with its first character. -/
theorem isShape_ofList {first : Char} {rest : List Char}
    (other : first ≠ 'i') : IsShape (String.ofList (first :: rest)) := by
  simp [IsShape, other]

/-- A cause that is no position beyond the end of a form. -/
def ProblemCause.InRange : ProblemCause → Prop
  | .malformed shape => IsShape shape
  | _ => True

theorem ProblemCause.InRange.ne_outOfRange {cause : ProblemCause}
    (inRange : cause.InRange) (shape : String) :
    cause ≠ .outOfRange shape := by
  rintro rfl
  apply inRange
  simp [String.toList_append, toString]

-- Nothing below looks into a text again, which would decode it.
attribute [irreducible] IsShape

/-- A reading of a form that stays within it. -/
def StaysInside (reading : Except ProblemCause Result) : Prop :=
  ∀ cause, reading = .error cause → cause.InRange

theorem staysInside_expectLength {shape : String} (isShape : IsShape shape)
    (items : List Form) (length : Nat) :
    StaysInside (expectLength items length shape) := by
  intro cause failed
  unfold expectLength at failed
  split at failed <;> cases failed
  exact isShape

theorem length_of_expectLength {items : List Form} {length : Nat}
    {shape : String} (checked : expectLength items length shape = .ok ()) :
    items.length = length := by
  unfold expectLength at checked
  split at checked
  · assumption
  · cases checked

theorem staysInside_itemAt {items : List Form} {index : Nat}
    (inside : index < items.length) (shape : String) :
    StaysInside (itemAt items index shape) := by
  intro cause failed
  rw [itemAt, List.getElem?_eq_getElem inside] at failed
  cases failed

theorem staysInside_itemSymbolAt {items : List Form} {index : Nat}
    {shape : String} (isShape : IsShape shape)
    (inside : index < items.length) :
    StaysInside (itemSymbolAt items index shape) := by
  intro cause failed
  rw [itemSymbolAt, List.getElem?_eq_getElem inside] at failed
  simp only at failed
  split at failed <;> cases failed
  exact isShape

theorem staysInside_itemsFrom {Item : Type} {items : List Item} {start : Nat}
    (inside : start ≤ items.length) (shape : String) :
    StaysInside (itemsFrom items start shape) := by
  intro cause failed
  rw [itemsFrom, if_pos inside] at failed
  cases failed

theorem staysInside_follow {items : List Form} {start : Nat}
    (inside : start ≤ items.length) (shape : String) :
    StaysInside (KeywordArguments.follow items start shape) := by
  intro cause failed
  rw [KeywordArguments.follow, itemsFrom, if_pos inside] at failed
  cases failed

/-- What may be absent is only ever malformed. -/
theorem staysInside_nameAt {shape : String} (isShape : IsShape shape)
    (items : List Form) (index : Nat) :
    StaysInside (nameAt items index shape) := by
  intro cause failed
  unfold nameAt at failed
  split at failed <;> cases failed
  exact isShape

theorem staysInside_symbolAt {shape : String} (isShape : IsShape shape)
    (items : List Form) (index : Nat) :
    StaysInside (symbolAt items index shape) := by
  intro cause failed
  unfold symbolAt at failed
  split at failed <;> cases failed
  exact isShape

theorem staysInside_vectorAt {shape : String} (isShape : IsShape shape)
    (items : List Form) (index : Nat) :
    StaysInside (vectorAt items index shape) := by
  intro cause failed
  unfold vectorAt at failed
  split at failed <;> cases failed
  exact isShape

/-! ## Emissions -/

/-- No problem so far is a position beyond the end of a form. -/
def clean : Assertion (.arg Environment (.arg EmitState .pure)) :=
  fun _ state => ⌜∀ problem ∈ state.problems, problem.cause.InRange⌝

/-- The same holds where an emission gives up, and of the cause it gives up
with. -/
abbrev cleanAnyhow :
    PostCond Result
      (.except ProblemCause (.arg Environment (.arg EmitState .pure))) :=
  post⟨fun _ => clean, fun cause environment state =>
    ⌜cause.InRange ∧ (clean environment state).down⌝⟩

theorem clean_onBuilder {operation : Build Result} :
    ⦃clean⦄ onBuilder operation ⦃⇓ _ => clean⦄ :=
  fun _ _ clean => clean

@[local spec high]
theorem clean_lift {operation : Build Result} :
    ⦃clean⦄ (MonadLift.monadLift operation : Emission Result)
      ⦃⇓ _ => clean⦄ :=
  clean_onBuilder

@[local spec high]
theorem clean_modifyContext {change : FunctionContext → FunctionContext} :
    ⦃clean⦄ modifyContext change ⦃⇓ _ => clean⦄ :=
  fun _ _ clean => clean

@[local spec high]
theorem clean_freshId : ⦃clean⦄ freshId ⦃⇓ _ => clean⦄ :=
  fun _ _ clean => clean

@[local spec high]
theorem clean_report (operation : String) {cause : ProblemCause}
    (inRange : cause.InRange) :
    ⦃clean⦄ report operation cause ⦃⇓ _ => clean⦄ := by
  intro environment state clean problem member
  rcases List.mem_append.mp member with old | new
  · exact clean problem old
  · rw [List.mem_singleton.mp new]
    exact inRange

@[local spec high]
theorem clean_declareFunction (name : String) (result : TypeId)
    (parameters : List TypeId) (variadic : Bool) :
    ⦃clean⦄ declareFunction name result parameters variadic
      ⦃⇓ _ => clean⦄ := by
  unfold declareFunction
  mvcgen

/-- Nothing follows where a handler gives up. -/
@[local spec high]
theorem clean_throw {cause : ProblemCause} (inRange : cause.InRange)
    {next : Result → Assertion (.arg Environment (.arg EmitState .pure))} :
    ⦃clean⦄ (throw cause : Handler Result)
      ⦃post⟨next, fun cause environment state =>
        ⌜cause.InRange ∧ (clean environment state).down⌝⟩⦄ :=
  fun _ _ clean => ⟨inRange, clean⟩

@[local spec high]
theorem clean_orFail {cause : ProblemCause} (inRange : cause.InRange)
    (part : Option Result) :
    ⦃clean⦄ orFail cause part ⦃cleanAnyhow⦄ := by
  cases part with
  | none => exact fun _ _ clean => ⟨inRange, clean⟩
  | some part => exact fun _ _ clean => clean

theorem clean_parse {reading : Except ProblemCause Result}
    (inside : StaysInside reading) :
    ⦃clean⦄ (MonadLift.monadLift reading : Handler Result)
      ⦃cleanAnyhow⦄ := by
  cases reading with
  | error cause => exact fun _ _ clean => ⟨inside cause rfl, clean⟩
  | ok result => exact fun _ _ clean => clean

@[local spec high]
theorem clean_itemAt {items : List Form} {index : Nat}
    (inside : index < items.length) (shape : String) :
    ⦃clean⦄ (MonadLift.monadLift (itemAt items index shape) : Handler Form)
      ⦃cleanAnyhow⦄ :=
  clean_parse (staysInside_itemAt inside shape)

@[local spec high]
theorem clean_itemSymbolAt {items : List Form} {index : Nat}
    {shape : String} (isShape : IsShape shape)
    (inside : index < items.length) :
    ⦃clean⦄ (MonadLift.monadLift (itemSymbolAt items index shape) :
      Handler String) ⦃cleanAnyhow⦄ :=
  clean_parse (staysInside_itemSymbolAt isShape inside)

@[local spec high]
theorem clean_itemsFrom {Item : Type} {items : List Item} {start : Nat}
    (inside : start ≤ items.length) (shape : String) :
    ⦃clean⦄ (MonadLift.monadLift (itemsFrom items start shape) :
      Handler (List Item)) ⦃cleanAnyhow⦄ :=
  clean_parse (staysInside_itemsFrom inside shape)

@[local spec high]
theorem clean_follow {items : List Form} {start : Nat}
    (inside : start ≤ items.length) (shape : String) :
    ⦃clean⦄ (MonadLift.monadLift (KeywordArguments.follow items start shape) :
      Handler KeywordArguments) ⦃cleanAnyhow⦄ :=
  clean_parse (staysInside_follow inside shape)

@[local spec high]
theorem clean_nameAt {shape : String} (isShape : IsShape shape)
    (items : List Form) (index : Nat) :
    ⦃clean⦄ (MonadLift.monadLift (nameAt items index shape) : Handler String)
      ⦃cleanAnyhow⦄ :=
  clean_parse (staysInside_nameAt isShape items index)

@[local spec high]
theorem clean_symbolAt {shape : String} (isShape : IsShape shape)
    (items : List Form) (index : Nat) :
    ⦃clean⦄ (MonadLift.monadLift (symbolAt items index shape) :
      Handler String) ⦃cleanAnyhow⦄ :=
  clean_parse (staysInside_symbolAt isShape items index)

/-- Where there is a symbol, the form reaches as far. -/
theorem clean_symbolAt_within {shape : String} (isShape : IsShape shape)
    (items : List Form) (index : Nat) :
    ⦃clean⦄ (MonadLift.monadLift (symbolAt items index shape) :
      Handler String)
      ⦃post⟨fun _ environment state =>
          ⌜index < items.length ∧ (clean environment state).down⌝,
        fun cause environment state =>
          ⌜cause.InRange ∧ (clean environment state).down⌝⟩⦄ := by
  have inside := staysInside_symbolAt isShape items index
  unfold symbolAt at inside ⊢
  cases found : items[index]? with
  | none =>
      rw [found] at inside
      exact fun _ _ clean => ⟨inside _ rfl, clean⟩
  | some item =>
      obtain ⟨reaches, -⟩ := List.getElem?_eq_some_iff.mp found
      rw [found] at inside
      cases named : item.name? with
      | none =>
          rw [Option.bind_some, named] at inside ⊢
          exact fun _ _ clean => ⟨inside _ rfl, clean⟩
      | some name =>
          rw [Option.bind_some, named]
          exact fun _ _ clean => ⟨reaches, clean⟩

@[local spec high]
theorem clean_vectorAt {shape : String} (isShape : IsShape shape)
    (items : List Form) (index : Nat) :
    ⦃clean⦄ (MonadLift.monadLift (vectorAt items index shape) :
      Handler (List Form)) ⦃cleanAnyhow⦄ :=
  clean_parse (staysInside_vectorAt isShape items index)

/-- What follows a reading may rely on it. -/
theorem clean_of_reading {Part : Type} {reading : Except ProblemCause Part}
    {next : Part → Handler Result} (inside : StaysInside reading)
    (rest : ∀ part, reading = .ok part →
      ⦃clean⦄ next part ⦃cleanAnyhow⦄) :
    ⦃clean⦄ ((do
      let part ← reading
      next part) : Handler Result)
      ⦃cleanAnyhow⦄ := by
  cases reading with
  | error cause => exact fun _ _ clean => ⟨inside cause rfl, clean⟩
  | ok part => exact rest part rfl

theorem clean_of_length {items : List Form} {length : Nat} {shape : String}
    {next : Handler Result} (isShape : IsShape shape)
    (rest : IsShape shape → items.length = length →
      ⦃clean⦄ next ⦃cleanAnyhow⦄) :
    ⦃clean⦄ ((do
      expectLength items length shape
      next) : Handler Result)
      ⦃cleanAnyhow⦄ :=
  clean_of_reading (staysInside_expectLength isShape items length)
    fun _ checked => rest isShape (length_of_expectLength checked)

/-! ## Types -/

/-- A reading of types that fails only within the form. -/
abbrev readsInside :
    PostCond Result (.except ProblemCause (.arg TypeTable .pure)) :=
  post⟨fun _ _ => ⌜True⌝, fun cause _ => ⌜cause.InRange⌝⟩

@[local spec high]
theorem inside_intern (operation : StateM TypeTable Result) :
    ⦃⌜True⌝⦄ (MonadLift.monadLift operation : TypeReader Result)
      ⦃readsInside⦄ :=
  fun _ _ => trivial

@[local spec high]
theorem inside_typePart (form : Form) (part : Option Result) :
    ⦃⌜True⌝⦄ typePart form part ⦃readsInside⦄ := by
  cases part <;> exact fun _ _ => trivial

theorem inside_mapM {Item : Type} {read : Item → TypeReader Result}
    (items : List Item) (each : ∀ item, ⦃⌜True⌝⦄ read item ⦃readsInside⦄) :
    ⦃⌜True⌝⦄ items.mapM read ⦃readsInside⦄ := by
  induction items with
  | nil =>
      rw [List.mapM_nil]
      mvcgen
  | cons item items ih =>
      rw [List.mapM_cons]
      mvcgen [each, ih]

theorem inside_readTypeWithin (depth : Nat) (form : Form) :
    ⦃⌜True⌝⦄ readTypeWithin depth form ⦃readsInside⦄ := by
  induction depth generalizing form with
  | zero => exact fun _ _ => trivial
  | succ depth ih =>
      unfold readTypeWithin
      mvcgen [ih, inside_mapM]

theorem staysInside_run {reader : TypeReader Result}
    (inside : ⦃⌜True⌝⦄ reader ⦃readsInside⦄) (table : TypeTable) :
    StaysInside (reader.run table).1 := by
  have reads := inside table trivial
  intro cause failed
  rcases outcome : reader.run table with ⟨result, later⟩
  rw [outcome] at failed
  cases failed
  simp [wp, ExceptT.run, StateT.run] at reads outcome
  rw [outcome] at reads
  exact reads

theorem inside_readType (form : Form) :
    ⦃⌜True⌝⦄ readType form ⦃readsInside⦄ :=
  inside_readTypeWithin form.height form

theorem clean_mk {emission : Emission (Except ProblemCause Result)}
    (kept : ∀ environment state,
      (emission environment state).2.problems = state.problems ∧
        StaysInside (emission environment state).1) :
    ⦃clean⦄ (ExceptT.mk emission : Handler Result) ⦃cleanAnyhow⦄ := by
  intro environment state before
  obtain ⟨same, inside⟩ := kept environment state
  have after : (clean environment (emission environment state).2).down := by
    intro problem member
    rw [same] at member
    exact before problem member
  rcases outcome : emission environment state with ⟨result, later⟩
  rw [outcome] at after inside
  cases result with
  | ok _ =>
    simp [wp, ExceptT.run, ExceptT.mk, StateT.run, ReaderT.run, outcome]
    exact after
  | error cause =>
    simp [wp, ExceptT.run, ExceptT.mk, StateT.run, ReaderT.run, outcome]
    exact ⟨inside cause rfl, after⟩

@[local spec high]
theorem clean_typeOf (form : Form) :
    ⦃clean⦄ typeOf form ⦃cleanAnyhow⦄ :=
  clean_mk fun _ state =>
    ⟨rfl, staysInside_run (inside_readType form) state.builder.module.types⟩

attribute [local irreducible] onBuilder

@[local spec high]
theorem clean_mismatch (what : String) (expected found : TypeId) :
    ⦃clean⦄ (mismatch what expected found : Handler Result)
      ⦃cleanAnyhow⦄ := by
  unfold mismatch
  mvcgen

@[local spec high]
theorem clean_expectType (what : String) (expected found : TypeId) :
    ⦃clean⦄ expectType what expected found ⦃cleanAnyhow⦄ := by
  unfold expectType
  mvcgen

/-! ## Sequences and lists -/

theorem clean_then {Other : Type} {first : Emission Result}
    {next : Result → Emission Other}
    (one : ⦃clean⦄ first ⦃⇓ _ => clean⦄)
    (rest : ∀ result, ⦃clean⦄ next result ⦃⇓ _ => clean⦄) :
    ⦃clean⦄ (first >>= next) ⦃⇓ _ => clean⦄ := by
  mvcgen [one, rest]

variable {Item : Type}

@[local spec high]
theorem clean_mapM {read : Item → Handler Result} (items : List Item)
    (each : ∀ item, ⦃clean⦄ read item ⦃cleanAnyhow⦄) :
    ⦃clean⦄ items.mapM read ⦃cleanAnyhow⦄ := by
  induction items with
  | nil =>
      rw [List.mapM_nil]
      mvcgen
  | cons item items ih =>
      rw [List.mapM_cons]
      mvcgen [each, ih, -framed_mapM]

@[local spec high]
theorem clean_option_mapM {read : Item → Handler Result}
    (item : Option Item)
    (each : ∀ item, ⦃clean⦄ read item ⦃cleanAnyhow⦄) :
    ⦃clean⦄ item.mapM read ⦃cleanAnyhow⦄ := by
  cases item with
  | none =>
      rw [Option.mapM_none]
      mvcgen
  | some item =>
      rw [Option.mapM_some]
      mvcgen [each]

@[local spec high]
theorem clean_emission_mapM {read : Item → Emission Result}
    (items : List Item)
    (each : ∀ item, ⦃clean⦄ read item ⦃⇓ _ => clean⦄) :
    ⦃clean⦄ items.mapM read ⦃⇓ _ => clean⦄ := by
  induction items with
  | nil =>
      rw [List.mapM_nil]
      mvcgen
  | cons item items ih =>
      rw [List.mapM_cons]
      mvcgen [each, ih, -framed_emission_mapM]

@[local spec high]
theorem clean_forM {visit : Item → Handler PUnit} (items : List Item)
    (each : ∀ item, ⦃clean⦄ visit item ⦃cleanAnyhow⦄) :
    ⦃clean⦄ items.forM visit ⦃cleanAnyhow⦄ := by
  induction items with
  | nil => exact fun _ _ clean => clean
  | cons item items ih =>
      rw [List.forM]
      mvcgen [each, ih, -framed_forM]

@[local spec high]
theorem clean_emission_forM {visit : Item → Emission PUnit}
    (items : List Item)
    (each : ∀ item, ⦃clean⦄ visit item ⦃⇓ _ => clean⦄) :
    ⦃clean⦄ items.forM visit ⦃⇓ _ => clean⦄ := by
  induction items with
  | nil => exact fun _ _ clean => clean
  | cons item items ih =>
      rw [List.forM]
      mvcgen [each, ih, -framed_emission_forM]

/-! ## Names and operands -/

@[local spec high]
theorem clean_orElseFind {first second : Emission (Option Result)}
    (one : ⦃clean⦄ first ⦃⇓ _ => clean⦄)
    (other : ⦃clean⦄ second ⦃⇓ _ => clean⦄) :
    ⦃clean⦄ orElseFind first second ⦃⇓ _ => clean⦄ := by
  unfold orElseFind
  mvcgen [one, other]

@[local spec high]
theorem clean_loadSlot (name : String) :
    ⦃clean⦄ loadSlot name ⦃⇓ _ => clean⦄ := by
  unfold loadSlot
  mvcgen

@[local spec high]
theorem clean_readAliased (initial : String) :
    ⦃clean⦄ readAliased initial ⦃⇓ _ => clean⦄ := by
  unfold readAliased boundValue
  mvcgen

@[local spec high]
theorem clean_getValue (name : String) :
    ⦃clean⦄ getValue name ⦃⇓ _ => clean⦄ := by
  unfold getValue boundValue
  mvcgen

@[local spec high]
theorem clean_valueOf (form : Form) :
    ⦃clean⦄ valueOf form ⦃cleanAnyhow⦄ := by
  have isShape : IsShape "%name" := isShape_ofList (by decide)
  unfold valueOf
  mvcgen
  exact fun _ _ _ => trivial

@[local spec high]
theorem clean_operand (form : Form) (type : TypeId) :
    ⦃clean⦄ operand form type ⦃cleanAnyhow⦄ := by
  unfold operand
  mvcgen

@[local spec high]
theorem clean_typedOperand (form : Form) (type : TypeId) (what : String) :
    ⦃clean⦄ typedOperand form type what ⦃cleanAnyhow⦄ := by
  unfold typedOperand
  mvcgen

@[local spec high]
theorem clean_ensureSlot (name : String) (type : TypeId) (seeded : Bool) :
    ⦃clean⦄ ensureSlot name type seeded ⦃⇓ _ => clean⦄ := by
  unfold ensureSlot
  mvcgen

@[local spec high]
theorem clean_declareSlot (name : String) (type : TypeId) :
    ⦃clean⦄ declareSlot name type ⦃⇓ _ => clean⦄ := by
  unfold declareSlot
  mvcgen

@[local spec high]
theorem clean_define (name : String) (value : Value) (type : TypeId) :
    ⦃clean⦄ define name value type ⦃cleanAnyhow⦄ := by
  unfold define
  mvcgen

theorem length_of_predicateParts {items : List Form} {shape : String}
    {parts : String × String}
    (checked : predicateParts items shape = .ok parts) :
    items.length = 7 := by
  unfold predicateParts at checked
  cases counted : expectLength items 7 shape with
  | error cause =>
      rw [counted] at checked
      cases checked
  | ok _ => exact length_of_expectLength counted

theorem StaysInside.bind {Part : Type} {reading : Except ProblemCause Part}
    {next : Part → Except ProblemCause Result} (inside : StaysInside reading)
    (rest : ∀ part, reading = .ok part → StaysInside (next part)) :
    StaysInside (reading >>= next) := by
  cases reading with
  | error cause =>
      rintro _ ⟨⟩
      exact inside cause rfl
  | ok part => exact rest part rfl

theorem staysInside_predicateParts {shape : String}
    (isShape : IsShape shape) (items : List Form) :
    StaysInside (predicateParts items shape) := by
  refine (staysInside_expectLength isShape items 7).bind fun _ checked => ?_
  have length := length_of_expectLength checked
  refine (staysInside_itemAt (by omega) shape).bind fun marker _ => ?_
  dsimp only
  split
  · rintro _ ⟨⟩
    exact isShape
  · refine (staysInside_nameAt isShape items 1).bind fun destination _ => ?_
    refine (staysInside_itemSymbolAt isShape (by omega)).bind
      fun predicate _ => ?_
    rintro _ ⟨⟩

@[local spec high]
theorem clean_emitConstant (items : List Form) :
    ⦃clean⦄ emitConstant items ⦃cleanAnyhow⦄ := by
  refine clean_of_length (isShape_ofList (by decide)) fun isShape length => ?_
  mvcgen
  all_goals omega

@[local spec high]
theorem clean_emitBinary (operator : BinaryOperator) (items : List Form) :
    ⦃clean⦄ emitBinary operator items ⦃cleanAnyhow⦄ := by
  refine clean_of_length (isShape_ofList (by decide)) fun isShape length => ?_
  mvcgen
  all_goals omega

@[local spec high]
theorem clean_comparedOperands (leftForm rightForm : Form) (type : TypeId) :
    ⦃clean⦄ comparedOperands leftForm rightForm type
      ⦃cleanAnyhow⦄ := by
  unfold comparedOperands
  mvcgen

@[local spec high]
theorem clean_buildComparison (comparison : Comparison) (typeForm : Form)
    (left right : Value) (name : String) :
    ⦃clean⦄ buildComparison comparison typeForm left right name
      ⦃⇓ _ => clean⦄ := by
  unfold buildComparison
  mvcgen

attribute [spec] defineTruth

@[local spec high]
theorem clean_emitComparison (comparison : Comparison) (items : List Form) :
    ⦃clean⦄ emitComparison comparison items ⦃cleanAnyhow⦄ := by
  refine clean_of_length (isShape_ofList (by decide)) fun isShape length => ?_
  mvcgen
  all_goals omega

@[local spec high]
theorem clean_emitCompareInt (items : List Form) :
    ⦃clean⦄ emitCompareInt items ⦃cleanAnyhow⦄ := by
  have isShape : IsShape "(icmp %d T :pred p a b)" := isShape_ofList (by decide)
  refine clean_of_reading (staysInside_predicateParts isShape items)
    fun parts checked => ?_
  have length := length_of_predicateParts checked
  mvcgen
  all_goals omega

@[local spec high]
theorem clean_emitCompareFloat (items : List Form) :
    ⦃clean⦄ emitCompareFloat items ⦃cleanAnyhow⦄ := by
  have isShape : IsShape "(fcmp %d T :pred p a b)" := isShape_ofList (by decide)
  refine clean_of_reading (staysInside_predicateParts isShape items)
    fun parts checked => ?_
  have length := length_of_predicateParts checked
  mvcgen
  all_goals omega

@[local spec high]
theorem clean_throughSlot (name : String) (value : Value) :
    ⦃clean⦄ throughSlot name value ⦃cleanAnyhow⦄ := by
  unfold throughSlot
  mvcgen
  exact fun _ _ _ => trivial

@[local spec high]
theorem clean_emitCast (operator : CastOperator) (items : List Form) :
    ⦃clean⦄ emitCast operator items ⦃cleanAnyhow⦄ := by
  refine clean_of_length (isShape_ofList (by decide)) fun isShape length => ?_
  mvcgen
  all_goals omega

/-! ## Storage -/

@[local spec high]
theorem clean_rejectType (use : String) (type : TypeId) :
    ⦃clean⦄ (rejectType use type : Handler Result)
      ⦃cleanAnyhow⦄ := by
  unfold rejectType
  mvcgen

@[local spec high]
theorem clean_initialValue (form : Form) (type : TypeId) :
    ⦃clean⦄ initialValue form type ⦃cleanAnyhow⦄ := by
  unfold initialValue
  mvcgen

@[local spec high]
theorem clean_emitVariable (items : List Form) :
    ⦃clean⦄ emitVariable items ⦃cleanAnyhow⦄ := by
  refine clean_of_length (isShape_ofList (by decide)) fun isShape length => ?_
  mvcgen
  all_goals omega

@[local spec high]
theorem clean_emitAssign (items : List Form) :
    ⦃clean⦄ emitAssign items ⦃cleanAnyhow⦄ := by
  refine clean_of_length (isShape_ofList (by decide)) fun isShape length => ?_
  mvcgen
  all_goals omega

@[local spec high]
theorem clean_emitAlloca (items : List Form) :
    ⦃clean⦄ emitAlloca items ⦃cleanAnyhow⦄ := by
  refine clean_of_length (isShape_ofList (by decide)) fun isShape length => ?_
  mvcgen
  all_goals omega

@[local spec high]
theorem clean_loadThrough (destination : String) (type : TypeId)
    (form : Form) :
    ⦃clean⦄ loadThrough destination type form ⦃cleanAnyhow⦄ := by
  unfold loadThrough
  mvcgen

@[local spec high]
theorem clean_emitLoad (items : List Form) :
    ⦃clean⦄ emitLoad items ⦃cleanAnyhow⦄ := by
  refine clean_of_length (isShape_ofList (by decide)) fun isShape length => ?_
  mvcgen
  all_goals omega

@[local spec high]
theorem clean_emitDereference (items : List Form) :
    ⦃clean⦄ emitDereference items ⦃cleanAnyhow⦄ := by
  refine clean_of_length (isShape_ofList (by decide)) fun isShape length => ?_
  mvcgen
  all_goals omega

@[local spec high]
theorem clean_storeThrough (declared : Option TypeId)
    (pointerForm valueForm : Form) :
    ⦃clean⦄ storeThrough declared pointerForm valueForm
      ⦃cleanAnyhow⦄ := by
  unfold storeThrough
  mvcgen

@[local spec high]
theorem clean_emitStore (items : List Form) :
    ⦃clean⦄ emitStore items ⦃cleanAnyhow⦄ := by
  have isShape : IsShape "(store T %p %v)" := isShape_ofList (by decide)
  unfold emitStore
  mvcgen
  exact fun _ _ _ => isShape

@[local spec high]
theorem clean_globalOf (form : Form) (type : TypeId) (shape : String)
    (isShape : IsShape shape) :
    ⦃clean⦄ globalOf form type shape ⦃cleanAnyhow⦄ := by
  unfold globalOf
  mvcgen

@[local spec high]
theorem clean_emitLoadGlobal (items : List Form) :
    ⦃clean⦄ emitLoadGlobal items ⦃cleanAnyhow⦄ := by
  refine clean_of_length (isShape_ofList (by decide)) fun isShape length => ?_
  mvcgen
  all_goals omega

@[local spec high]
theorem clean_emitStoreGlobal (items : List Form) :
    ⦃clean⦄ emitStoreGlobal items ⦃cleanAnyhow⦄ := by
  refine clean_of_length (isShape_ofList (by decide)) fun isShape length => ?_
  mvcgen
  all_goals omega

@[local spec high]
theorem clean_emitAddress (items : List Form) :
    ⦃clean⦄ emitAddress items ⦃cleanAnyhow⦄ := by
  refine clean_of_length (isShape_ofList (by decide)) fun isShape length => ?_
  mvcgen
  all_goals omega

@[local spec high]
theorem clean_emitPointerOffset (negated : Bool) (items : List Form) :
    ⦃clean⦄ emitPointerOffset negated items ⦃cleanAnyhow⦄ := by
  refine clean_of_length (isShape_ofList (by decide)) fun isShape length => ?_
  mvcgen
  all_goals omega

@[local spec high]
theorem clean_buildDistance (left right : Value) (leftName rightName : String)
    (elementSize : Nat) (type : TypeId) (bits : Nat) (name : String) :
    ⦃clean⦄
      buildDistance left right leftName rightName elementSize type bits name
      ⦃⇓ _ => clean⦄ := by
  unfold buildDistance
  mvcgen

@[local spec high]
theorem clean_emitPointerDiff (items : List Form) :
    ⦃clean⦄ emitPointerDiff items ⦃cleanAnyhow⦄ := by
  refine clean_of_length (isShape_ofList (by decide)) fun isShape length => ?_
  mvcgen
  all_goals omega

/-! ## Aggregates -/

@[local spec high]
theorem clean_emitIndex (items : List Form) :
    ⦃clean⦄ emitIndex items ⦃cleanAnyhow⦄ := by
  refine clean_of_length (isShape_ofList (by decide)) fun isShape length => ?_
  mvcgen
  all_goals omega

@[local spec high]
theorem clean_storeElements (array zero : Value) (name : String)
    (index : Nat) (values : List Value) :
    ⦃clean⦄ storeElements array zero name index values
      ⦃⇓ _ => clean⦄ := by
  induction values generalizing index with
  | nil =>
      unfold storeElements
      mvcgen
  | cons value values ih =>
      unfold storeElements
      mvcgen [ih, -framed_storeElements]

@[local spec high]
theorem clean_emitArrayLiteral (items : List Form) :
    ⦃clean⦄ emitArrayLiteral items ⦃cleanAnyhow⦄ := by
  refine clean_of_length (isShape_ofList (by decide)) fun isShape length => ?_
  mvcgen
  all_goals omega

@[local spec high]
theorem clean_aggregateBase (form : Form) (aggregate : TypeId) :
    ⦃clean⦄ aggregateBase form aggregate ⦃cleanAnyhow⦄ := by
  unfold aggregateBase
  mvcgen

@[local spec high]
theorem clean_structLayout (name : String) :
    ⦃clean⦄ structLayout name ⦃cleanAnyhow⦄ := by
  unfold structLayout
  mvcgen

@[local spec high]
theorem clean_structField (layout : StructLayout) (name field : String) :
    ⦃clean⦄ structField layout name field ⦃cleanAnyhow⦄ := by
  unfold structField
  mvcgen
  exact fun _ _ _ => trivial

@[local spec high]
theorem clean_literalFields (layout : StructLayout) (name shape : String)
    (forms : List Form)
    (isShape : IsShape shape) :
    ⦃clean⦄ literalFields layout name shape forms
      ⦃cleanAnyhow⦄ := by
  fun_induction literalFields layout name shape forms with
  | case1 fieldForm valueForm rest ih =>
      mvcgen [ih, -framed_literalFields]
  | case2 => mvcgen

@[local spec high]
theorem clean_storeFields (struct : Value) (name : String)
    (fields : List (String × Nat × Value)) :
    ⦃clean⦄ storeFields struct name fields ⦃⇓ _ => clean⦄ := by
  induction fields with
  | nil =>
      unfold storeFields
      mvcgen
  | cons field fields ih =>
      unfold storeFields
      mvcgen [ih, -framed_storeFields]

@[local spec high]
theorem clean_emitStructLiteral (items : List Form) :
    ⦃clean⦄ emitStructLiteral items ⦃cleanAnyhow⦄ := by
  refine clean_of_length (isShape_ofList (by decide)) fun isShape length => ?_
  mvcgen
  all_goals omega

@[local spec high]
theorem clean_memberAddress {items : List Form} {shape : String}
    (isShape : IsShape shape) (length : items.length = 5)
    (addressName : String) :
    ⦃clean⦄ memberAddress items shape addressName ⦃cleanAnyhow⦄ := by
  unfold memberAddress
  mvcgen
  all_goals omega

@[local spec high]
theorem clean_emitMember (items : List Form) :
    ⦃clean⦄ emitMember items ⦃cleanAnyhow⦄ := by
  refine clean_of_length (isShape_ofList (by decide)) fun isShape length => ?_
  mvcgen

@[local spec high]
theorem clean_emitMemberAddress (items : List Form) :
    ⦃clean⦄ emitMemberAddress items ⦃cleanAnyhow⦄ := by
  refine clean_of_length (isShape_ofList (by decide)) fun isShape length => ?_
  mvcgen

@[local spec high]
theorem clean_emitUnionMember (items : List Form) :
    ⦃clean⦄ emitUnionMember items ⦃cleanAnyhow⦄ := by
  refine clean_of_length (isShape_ofList (by decide)) fun isShape length => ?_
  mvcgen
  all_goals omega

@[local spec high]
theorem clean_sumVariant (items : List Form) (sumAt variantAt : Nat)
    (shape : String)
    (isShape : IsShape shape) :
    ⦃clean⦄ sumVariant items sumAt variantAt shape
      ⦃cleanAnyhow⦄ := by
  unfold sumVariant
  mvcgen

@[local spec high]
theorem clean_payloadField (variant : Variant) (index : Nat) :
    ⦃clean⦄ payloadField variant index ⦃cleanAnyhow⦄ := by
  unfold payloadField
  mvcgen

@[local spec high]
theorem clean_payloadPointer (payload : Value) (offset : Nat)
    (type : TypeId) (name : String) :
    ⦃clean⦄ payloadPointer payload offset type name
      ⦃⇓ _ => clean⦄ := by
  unfold payloadPointer
  mvcgen

@[local spec high]
theorem clean_sumOperand (form : Form) (layout : SumLayout)
    (what : String) :
    ⦃clean⦄ sumOperand form layout what ⦃cleanAnyhow⦄ := by
  unfold sumOperand
  mvcgen

@[local spec high]
theorem clean_storePayload (payload : Value) (variant : Variant)
    (name : String) (index : Nat) (forms : List Form) :
    ⦃clean⦄ storePayload payload variant name index forms
      ⦃cleanAnyhow⦄ := by
  have isShape : IsShape "payload offset" := isShape_ofList (by decide)
  induction forms generalizing index with
  | nil =>
      unfold storePayload
      mvcgen
  | cons form forms ih =>
      unfold storePayload
      mvcgen [ih, -framed_storePayload]

@[local spec high]
theorem clean_emitSumNew (items : List Form) :
    ⦃clean⦄ emitSumNew items ⦃cleanAnyhow⦄ := by
  refine clean_of_length (isShape_ofList (by decide)) fun isShape length => ?_
  mvcgen

@[local spec high]
theorem clean_emitSumIs (items : List Form) :
    ⦃clean⦄ emitSumIs items ⦃cleanAnyhow⦄ := by
  refine clean_of_length (isShape_ofList (by decide)) fun isShape length => ?_
  mvcgen
  all_goals omega

@[local spec high]
theorem clean_emitSumGet (items : List Form) :
    ⦃clean⦄ emitSumGet items ⦃cleanAnyhow⦄ := by
  have offset : IsShape "payload offset" := isShape_ofList (by decide)
  refine clean_of_length (isShape_ofList (by decide)) fun isShape length => ?_
  mvcgen
  all_goals omega

@[local spec high]
theorem clean_defineLiteral (destination : String) (literal : Literal) :
    ⦃clean⦄ defineLiteral destination literal ⦃cleanAnyhow⦄ := by
  unfold defineLiteral
  mvcgen

@[local spec high]
theorem clean_emitTextLiteral (items : List Form) :
    ⦃clean⦄ emitTextLiteral items ⦃cleanAnyhow⦄ := by
  refine clean_of_length (isShape_ofList (by decide)) fun isShape length => ?_
  mvcgen
  all_goals omega

@[local spec high]
theorem clean_emitBytesLiteral (items : List Form) :
    ⦃clean⦄ emitBytesLiteral items ⦃cleanAnyhow⦄ := by
  refine clean_of_length (isShape_ofList (by decide)) fun isShape length => ?_
  mvcgen

/-! ## Calls -/

@[local spec high]
theorem clean_looseOperand (form : Form) :
    ⦃clean⦄ looseOperand form ⦃cleanAnyhow⦄ := by
  unfold looseOperand
  mvcgen

@[local spec high]
theorem clean_argumentValues (types : List TypeId) (forms : List Form) :
    ⦃clean⦄ argumentValues types forms ⦃cleanAnyhow⦄ := by
  fun_induction argumentValues types forms with
  | case1 => mvcgen
  | case2 form forms ih =>
      mvcgen [ih, -framed_argumentValues]
  | case3 type types form forms ih =>
      mvcgen [ih, -framed_argumentValues]

@[local spec high]
theorem clean_callArguments (callee : String) (type : TypeId)
    (forms : List Form) :
    ⦃clean⦄ callArguments callee type forms ⦃cleanAnyhow⦄ := by
  unfold callArguments
  mvcgen

@[local spec high]
theorem clean_defineResult (destination : String) (value : Value)
    (type : TypeId) :
    ⦃clean⦄ defineResult destination value type
      ⦃cleanAnyhow⦄ := by
  unfold defineResult
  mvcgen

@[local spec high]
theorem clean_calledFunction (name : String) (result : TypeId)
    (forms : List Form) :
    ⦃clean⦄ calledFunction name result forms ⦃cleanAnyhow⦄ := by
  unfold calledFunction
  mvcgen

@[local spec high]
theorem clean_emitCallIndirect (items : List Form) :
    ⦃clean⦄ emitCallIndirect items ⦃cleanAnyhow⦄ := by
  have isShape : IsShape "(call-indirect %d RetT %fptr args..)" :=
    isShape_ofList (by decide)
  unfold emitCallIndirect
  mvcgen
  all_goals omega

@[local spec high]
theorem clean_pointedFunction (name : String) (type : TypeId) :
    ⦃clean⦄ pointedFunction name type ⦃cleanAnyhow⦄ := by
  unfold pointedFunction
  mvcgen

@[local spec high]
theorem clean_emitFunctionPointer (items : List Form) :
    ⦃clean⦄ emitFunctionPointer items ⦃cleanAnyhow⦄ := by
  refine clean_of_length (isShape_ofList (by decide)) fun isShape length => ?_
  mvcgen
  all_goals omega

@[local spec high]
theorem clean_buildDefaultReturn (type : TypeId) :
    ⦃clean⦄ buildDefaultReturn type ⦃⇓ _ => clean⦄ := by
  unfold buildDefaultReturn
  mvcgen

@[local spec high]
theorem clean_emitReturn (items : List Form) :
    ⦃clean⦄ emitReturn items ⦃cleanAnyhow⦄ := by
  have isShape : IsShape "(ret T %v)" := isShape_ofList (by decide)
  unfold emitReturn
  mvcgen

@[local spec high]
theorem clean_callOnList (routine name : String) (list : Value) :
    ⦃clean⦄ callOnList routine name list ⦃⇓ _ => clean⦄ := by
  unfold callOnList
  mvcgen

@[local spec high]
theorem clean_argumentList (form : Form) (shape : String)
    (isShape : IsShape shape) :
    ⦃clean⦄ argumentList form shape ⦃cleanAnyhow⦄ := by
  unfold argumentList
  mvcgen

@[local spec high]
theorem clean_emitVaStart (items : List Form) :
    ⦃clean⦄ emitVaStart items ⦃cleanAnyhow⦄ := by
  refine clean_of_length (isShape_ofList (by decide)) fun isShape length => ?_
  mvcgen

@[local spec high]
theorem clean_emitVaArg (items : List Form) :
    ⦃clean⦄ emitVaArg items ⦃cleanAnyhow⦄ := by
  refine clean_of_length (isShape_ofList (by decide)) fun isShape length => ?_
  mvcgen
  all_goals omega

@[local spec high]
theorem clean_emitVaEnd (items : List Form) :
    ⦃clean⦄ emitVaEnd items ⦃cleanAnyhow⦄ := by
  refine clean_of_length (isShape_ofList (by decide)) fun isShape length => ?_
  mvcgen
  all_goals omega

/-! ## Coroutines -/

@[local spec high]
theorem clean_coroutineOperand (form : Form) (type : TypeId) :
    ⦃clean⦄ coroutineOperand form type ⦃cleanAnyhow⦄ := by
  unfold coroutineOperand
  mvcgen

@[local spec high]
theorem clean_callRoutine (name : String) (result : TypeId)
    (arguments : List Value) (resultName : String) :
    ⦃clean⦄ callRoutine name result arguments resultName
      ⦃cleanAnyhow⦄ := by
  unfold callRoutine
  mvcgen
  exact fun _ _ _ => trivial

@[local spec high]
theorem clean_beginCoroutine (handle : String) :
    ⦃clean⦄ beginCoroutine handle ⦃cleanAnyhow⦄ := by
  unfold beginCoroutine
  mvcgen

@[local spec high]
theorem clean_suspensionToken (form : Form) :
    ⦃clean⦄ suspensionToken form ⦃cleanAnyhow⦄ := by
  unfold suspensionToken
  mvcgen

theorem isShape_step (step : CoroutineStep) : IsShape step.shape := by
  cases step <;> exact isShape_ofList (by decide)

@[local spec high]
theorem clean_buildStep {step : CoroutineStep} {items : List Form}
    (length : items.length = step.length) (destination : String)
    (result : TypeId) :
    ⦃clean⦄ buildStep step items destination result ⦃cleanAnyhow⦄ := by
  cases step
  all_goals
    unfold buildStep
    mvcgen
  all_goals
    rw [length]
    decide

@[local spec high]
theorem clean_emitCoroutineStep (step : CoroutineStep) (items : List Form) :
    ⦃clean⦄ emitCoroutineStep step items ⦃cleanAnyhow⦄ := by
  refine clean_of_length (isShape_step step) fun isShape length => ?_
  mvcgen

/-! ## Phis -/

@[local spec high]
theorem clean_placePhi (block : BlockId) (destination : String)
    (type : TypeId) (incoming : List (EdgeSource × String)) :
    ⦃clean⦄ placePhi block destination type incoming
      ⦃⇓ _ => clean⦄ := by
  unfold placePhi
  mvcgen

@[local spec high]
theorem clean_readEdge (type : TypeId) (shape : String) (form : Form)
    (isShape : IsShape shape) :
    ⦃clean⦄ readEdge type shape form ⦃cleanAnyhow⦄ := by
  unfold readEdge
  mvcgen
  exact fun _ _ _ => isShape

@[local spec high]
theorem clean_emitPhi (items : List Form) :
    ⦃clean⦄ emitPhi items ⦃cleanAnyhow⦄ := by
  refine clean_of_length (isShape_ofList (by decide)) fun isShape length => ?_
  mvcgen
  · omega
  · exact fun _ _ _ => isShape_ofList (by decide)

@[local spec high]
theorem clean_addEnvironment (number : Nat) (type : TypeId) :
    ⦃clean⦄ addEnvironment number type ⦃⇓ _ => clean⦄ := by
  unfold addEnvironment
  mvcgen

@[local spec high]
theorem clean_nameParameters (function : FunctionId) (count : Nat) :
    ⦃clean⦄ nameParameters function count ⦃⇓ _ => clean⦄ := by
  unfold nameParameters
  mvcgen

@[local spec high]
theorem clean_callTarget (thunk : FunctionId) (environment : GlobalId)
    (target : FunctionId) (signature : TypeTable.Signature) :
    ⦃clean⦄ callTarget thunk environment target signature
      ⦃⇓ _ => clean⦄ := by
  unfold callTarget
  mvcgen

@[local spec high]
theorem clean_returnResult (type : TypeId) (result : Option Value) :
    ⦃clean⦄ returnResult type result ⦃⇓ _ => clean⦄ := by
  unfold returnResult
  mvcgen

@[local spec high]
theorem clean_emitThunk (thunk : FunctionId) (environment : GlobalId)
    (target : FunctionId) (signature : TypeTable.Signature) :
    ⦃clean⦄ emitThunk thunk environment target signature
      ⦃⇓ _ => clean⦄ := by
  unfold emitThunk
  mvcgen

@[local spec high]
theorem clean_elsewhere {emission : Emission Result}
    (kept : ⦃clean⦄ emission ⦃⇓ _ => clean⦄) :
    ⦃clean⦄ elsewhere emission ⦃⇓ _ => clean⦄ := by
  unfold elsewhere
  mvcgen [kept]

@[local spec high]
theorem clean_addThunk (name : String) (type : TypeId)
    (environment : GlobalId) (target : FunctionId)
    (signature : TypeTable.Signature) :
    ⦃clean⦄ addThunk name type environment target signature
      ⦃⇓ _ => clean⦄ := by
  unfold addThunk
  mvcgen

/-! ## Closures -/

@[local spec high]
theorem clean_capturedValue (items : List Form) (index : Nat)
    (shape : String)
    (isShape : IsShape shape) :
    ⦃clean⦄ capturedValue items index shape ⦃cleanAnyhow⦄ := by
  unfold capturedValue
  mvcgen
  exact fun _ _ _ => isShape

/-- The parameters behind the first are looked at only where there is a
first one. -/
theorem staysInside_canBack (closure : TypeTable.Signature)
    (target : Option TypeTable.Signature) (captured : TypeId)
    (shape : String) :
    StaysInside (canBack closure target captured shape) := by
  unfold canBack
  split
  · next target =>
      split
      · next agrees =>
          obtain ⟨parameters, found⟩ := List.head?_eq_some_iff.mp agrees.2
          have some : 1 ≤ target.parameters.length := by
            rw [found]
            exact Nat.succ_pos _
          refine (staysInside_itemsFrom some shape).bind fun rest _ => ?_
          rintro _ ⟨⟩
      · rintro _ ⟨⟩
  · rintro _ ⟨⟩

@[local spec high]
theorem clean_canBack (closure : TypeTable.Signature)
    (target : Option TypeTable.Signature) (captured : TypeId)
    (shape : String) :
    ⦃clean⦄ (MonadLift.monadLift (canBack closure target captured shape) :
      Handler Bool) ⦃cleanAnyhow⦄ :=
  clean_parse (staysInside_canBack closure target captured shape)

@[local spec high]
theorem clean_closureTarget (name : String) :
    ⦃clean⦄ closureTarget name ⦃cleanAnyhow⦄ := by
  unfold closureTarget
  mvcgen

@[local spec high]
theorem clean_emitClosure (items : List Form) :
    ⦃clean⦄ emitClosure items ⦃cleanAnyhow⦄ := by
  refine clean_of_length (isShape_ofList (by decide)) fun isShape length => ?_
  mvcgen
  all_goals omega

@[local spec high]
theorem clean_closureRecord (name : String) (captured : TypeId) :
    ⦃clean⦄ closureRecord name captured ⦃cleanAnyhow⦄ := by
  unfold closureRecord
  mvcgen

@[local spec high]
theorem clean_storeField (record : Value) (index : Nat) (name : String)
    (value : Value) :
    ⦃clean⦄ storeField record index name value
      ⦃⇓ _ => clean⦄ := by
  unfold storeField
  mvcgen

@[local spec high]
theorem clean_emitMakeClosure (items : List Form) :
    ⦃clean⦄ emitMakeClosure items ⦃cleanAnyhow⦄ := by
  refine clean_of_length (isShape_ofList (by decide)) fun isShape length => ?_
  mvcgen
  all_goals omega

@[local spec high]
theorem clean_loadField (record : Value) (index : Nat) (name : String) :
    ⦃clean⦄ loadField record index name ⦃⇓ _ => clean⦄ := by
  unfold loadField
  mvcgen

@[local spec high]
theorem clean_emitCallClosure (items : List Form) :
    ⦃clean⦄ emitCallClosure items ⦃cleanAnyhow⦄ := by
  have isShape : IsShape "(call-closure %d RetT %clos args..)" :=
    isShape_ofList (by decide)
  unfold emitCallClosure
  mvcgen
  all_goals omega

/-! ## Exceptions -/

@[local spec high]
theorem clean_resumingPad :
    ⦃clean⦄ resumingPad ⦃⇓ _ => clean⦄ := by
  unfold resumingPad
  mvcgen

@[local spec high]
theorem clean_returningPad :
    ⦃clean⦄ returningPad ⦃⇓ _ => clean⦄ := by
  unfold returningPad
  mvcgen

@[local spec high]
theorem clean_cleanupFunclet :
    ⦃clean⦄ cleanupFunclet ⦃⇓ _ => clean⦄ := by
  unfold cleanupFunclet
  mvcgen

@[local spec high]
theorem clean_unwindTarget (personality : Personality) :
    ⦃clean⦄ unwindTarget personality ⦃⇓ _ => clean⦄ := by
  unfold unwindTarget
  mvcgen

/-! ## Bodies -/

/-- What surrounds a body is no problem. -/
theorem clean_bracket {body : Emission Unit}
    (enter : EmitState → EmitState) (leave : EmitState → EmitState → EmitState)
    (enters : ∀ state, (enter state).problems = state.problems)
    (leaves : ∀ state later, (leave state later).problems = later.problems)
    (kept : ⦃clean⦄ body ⦃⇓ _ => clean⦄) :
    ⦃clean⦄ (do
      let state ← get
      set (enter state)
      body
      modify (leave state))
      ⦃⇓ _ => clean⦄ := by
  intro environment state before
  have inside : (clean environment (enter state)).down := by
    intro problem member
    rw [enters] at member
    exact before problem member
  have done := kept environment (enter state) inside
  intro problem member
  refine done problem ?_
  rw [← leaves state]
  exact member

@[local spec high]
theorem clean_protectedBy (personality : Personality) (handler : BlockId)
    {body : Emission Unit} (kept : ⦃clean⦄ body ⦃⇓ _ => clean⦄) :
    ⦃clean⦄ protectedBy personality handler body ⦃⇓ _ => clean⦄ := by
  cases personality with
  | itanium =>
      exact clean_bracket _ (fun _ later =>
        { later with
          unwindTargets :=
            { later.unwindTargets with
              landingPads := later.unwindTargets.landingPads.tail } })
        (fun _ => rfl) (fun _ _ => rfl) kept
  | seh =>
      exact clean_bracket _ (fun _ later =>
        { later with
          unwindTargets :=
            { later.unwindTargets with
              dispatches := later.unwindTargets.dispatches.tail } })
        (fun _ => rfl) (fun _ _ => rfl) kept

/-! ## Conditions -/

@[local spec high]
theorem clean_recompute (name : String) (form : Form) :
    ⦃clean⦄ recompute name form ⦃cleanAnyhow⦄ := by
  unfold recompute
  mvcgen

@[local spec high]
theorem clean_attempt {handler : Handler Result}
    (kept : ⦃clean⦄ handler ⦃cleanAnyhow⦄) :
    ⦃clean⦄ attempt handler ⦃⇓ _ => clean⦄ := by
  unfold attempt
  mvcgen [kept]
  rename_i inside
  exact inside.2

@[local spec high]
theorem clean_recomputed (name : String) :
    ⦃clean⦄ recomputed name ⦃⇓ _ => clean⦄ := by
  unfold recomputed
  mvcgen

@[local spec high]
theorem clean_conditionValue (name : String) :
    ⦃clean⦄ conditionValue name ⦃⇓ _ => clean⦄ := by
  unfold conditionValue
  mvcgen

@[local spec high]
theorem clean_condition (form : Form) :
    ⦃clean⦄ condition form ⦃cleanAnyhow⦄ := by
  have isShape : IsShape "%condition" := isShape_ofList (by decide)
  unfold condition
  mvcgen

@[local spec high]
theorem clean_branchOn (form : Form) (thenBlock elseBlock : BlockId) :
    ⦃clean⦄ branchOn form thenBlock elseBlock ⦃⇓ _ => clean⦄ := by
  unfold branchOn
  mvcgen
  all_goals rename_i inside
  · exact inside.1
  · exact inside.2

@[local spec high]
theorem clean_fallThrough (next : BlockId) :
    ⦃clean⦄ fallThrough next ⦃⇓ _ => clean⦄ := by
  unfold fallThrough
  mvcgen

/-! ## Parts of constructs -/

theorem staysInside_readElse {shape : String} (isShape : IsShape shape)
    (items : List Form) : StaysInside (readElse items shape) := by
  unfold readElse
  split
  · refine (staysInside_vectorAt isShape items 3).bind fun elements _ => ?_
    rintro _ ⟨⟩
  · rintro _ ⟨⟩

@[local spec high]
theorem clean_readElse {shape : String} (isShape : IsShape shape)
    (items : List Form) :
    ⦃clean⦄ (MonadLift.monadLift (readElse items shape) :
      Handler (Option (List Form))) ⦃cleanAnyhow⦄ :=
  clean_parse (staysInside_readElse isShape items)

/-- A block has its body in second place or under a keyword; the keywords
follow the head. -/
theorem staysInside_blockParts {items : List Form} {shape : String}
    (isShape : IsShape shape) (some : 0 < items.length) :
    StaysInside (blockParts items shape) := by
  have keyed : StaysInside (keyedBlockParts items shape) := by
    refine (staysInside_follow some shape).bind fun arguments _ => ?_
    split <;> rintro _ ⟨⟩
    exact isShape
  unfold blockParts
  split
  · split
    · rintro _ ⟨⟩
    · exact keyed
  · exact keyed

@[local spec high]
theorem clean_readLocal (shape : String) (form : Form)
    (isShape : IsShape shape) :
    ⦃clean⦄ readLocal shape form ⦃cleanAnyhow⦄ := by
  unfold readLocal
  mvcgen
  exact fun _ _ _ => isShape

@[local spec high]
theorem clean_readBinding (sum : String) (variant : Variant)
    (form : Form) :
    ⦃clean⦄ readBinding sum variant form ⦃cleanAnyhow⦄ := by
  have isShape : IsShape "(bind %n idx)" := isShape_ofList (by decide)
  unfold readBinding
  mvcgen

@[local spec high]
theorem clean_readCase (layout : SumLayout) (sum : String) (form : Form) :
    ⦃clean⦄ readCase layout sum form ⦃cleanAnyhow⦄ := by
  have isShape : IsShape matchShape := isShape_ofList (by decide)
  unfold readCase
  mvcgen [clean_symbolAt_within, -clean_symbolAt, -framed_parse]
  all_goals rename_i within
  · exact within.2
  · exact within.1
  · exact within.2

@[local spec high]
theorem clean_readCases (layout : SumLayout) (sum : String)
    (forms : List Form) :
    ⦃clean⦄ readCases layout sum forms ⦃cleanAnyhow⦄ := by
  induction forms with
  | nil =>
      unfold readCases
      mvcgen
  | cons form forms ih =>
      unfold readCases
      mvcgen [ih, -framed_readCases]

@[local spec high]
theorem clean_readDefault (form : Form) :
    ⦃clean⦄ readDefault form ⦃cleanAnyhow⦄ := by
  have isShape : IsShape matchShape := isShape_ofList (by decide)
  unfold readDefault
  mvcgen

@[local spec high]
theorem clean_readResult (items : List Form) :
    ⦃clean⦄ readResult items ⦃cleanAnyhow⦄ := by
  have isShape : IsShape matchShape := isShape_ofList (by decide)
  unfold readResult
  mvcgen
  exact fun _ _ _ => isShape

@[local spec high]
theorem clean_bindPayload (scrutinee : Value)
    (bindings : List PayloadBinding) :
    ⦃clean⦄ bindPayload scrutinee bindings ⦃cleanAnyhow⦄ := by
  have isShape : IsShape matchShape := isShape_ofList (by decide)
  unfold bindPayload
  mvcgen

@[local spec high]
theorem clean_armValue (type : TypeId) (name : Option String) :
    ⦃clean⦄ armValue type name ⦃⇓ _ => clean⦄ := by
  unfold armValue
  mvcgen

@[local spec high]
theorem clean_placeArms (arms : List TaggedArm) (id : Nat) :
    ⦃clean⦄ placeArms arms id ⦃⇓ _ => clean⦄ := by
  unfold placeArms appendNumbered
  mvcgen

/-! ## Leaving -/

@[local spec high]
theorem clean_emitBreak (items : List Form) :
    ⦃clean⦄ emitBreak items ⦃cleanAnyhow⦄ := by
  refine clean_of_length (isShape_ofList (by decide)) fun isShape length => ?_
  mvcgen

@[local spec high]
theorem clean_emitContinue (items : List Form) :
    ⦃clean⦄ emitContinue items ⦃cleanAnyhow⦄ := by
  refine clean_of_length (isShape_ofList (by decide)) fun isShape length => ?_
  mvcgen

@[local spec high]
theorem clean_declareNoReturn (name : String) (parameters : List TypeId) :
    ⦃clean⦄ declareNoReturn name parameters ⦃⇓ _ => clean⦄ := by
  unfold declareNoReturn
  mvcgen

@[local spec high]
theorem clean_throwingCall (personality : Personality) :
    ⦃clean⦄ throwingCall personality ⦃⇓ _ => clean⦄ := by
  unfold throwingCall
  mvcgen

@[local spec high]
theorem clean_emitTrap :
    ⦃clean⦄ emitTrap ⦃⇓ _ => clean⦄ := by
  unfold emitTrap
  mvcgen

@[local spec high]
theorem clean_emitThrow (personality : Personality) :
    ⦃clean⦄ emitThrow personality ⦃⇓ _ => clean⦄ := by
  unfold emitThrow
  mvcgen

@[local spec high]
theorem clean_emitPanic :
    ⦃clean⦄ emitPanic ⦃cleanAnyhow⦄ := by
  unfold emitPanic
  mvcgen

@[local spec high]
theorem clean_buildInvocation (callee : Value) (arguments : List Value)
    (name : String) :
    ⦃clean⦄ buildInvocation callee arguments name
      ⦃⇓ _ => clean⦄ := by
  unfold buildInvocation
  mvcgen

@[local spec high]
theorem clean_emitCall (items : List Form) :
    ⦃clean⦄ emitCall items ⦃cleanAnyhow⦄ := by
  have isShape : IsShape "(call %d RetT callee args..)" :=
    isShape_ofList (by decide)
  unfold emitCall
  mvcgen
  all_goals omega

/-! ## Constructs -/

/-- No form is read beyond its end. -/
def FormEmitter.Clean (emit : FormEmitter) : Prop :=
  ∀ form, ⦃clean⦄ emit form ⦃⇓ _ => clean⦄

theorem clean_inLoop (targets : LoopTargets) {body : Emission Unit}
    (kept : ⦃clean⦄ body ⦃⇓ _ => clean⦄) :
    ⦃clean⦄ (do
      modifyContext (·.pushLoop targets)
      body
      modifyContext (·.popLoop))
      ⦃⇓ _ => clean⦄ :=
  clean_bracket
    (fun state => { state with context := state.context.pushLoop targets })
    (fun _ later => { later with context := later.context.popLoop })
    (fun _ => rfl) (fun _ _ => rfl) kept

@[local spec high]
theorem clean_inScope {body : Emission Unit}
    (kept : ⦃clean⦄ body ⦃⇓ _ => clean⦄) :
    ⦃clean⦄ inScope body ⦃⇓ _ => clean⦄ :=
  clean_bracket
    (fun state => { state with context := state.context.enterScope })
    (fun state later =>
      { later with context := later.context.unwindTo state.context.depth })
    (fun _ => rfl) (fun _ _ => rfl) kept

@[local spec high]
theorem clean_emitSequence {emit : FormEmitter} (kept : emit.Clean)
    (forms : List Form) :
    ⦃clean⦄ emitSequence emit forms ⦃⇓ _ => clean⦄ := by
  induction forms with
  | nil =>
      unfold emitSequence
      mvcgen
  | cons form forms ih =>
      have first := kept form
      unfold emitSequence
      mvcgen [first, ih, -framed_emitSequence]

@[local spec high]
theorem clean_emitArm {emit : FormEmitter} (kept : emit.Clean)
    (block : BlockId) (body : List Form) (next : BlockId) :
    ⦃clean⦄ emitArm emit block body next ⦃⇓ _ => clean⦄ := by
  unfold emitArm
  mvcgen

@[local spec high]
theorem clean_emitBranches {emit : FormEmitter} (kept : emit.Clean)
    (test : Value) (thenBody : List Form)
    (elseBody : Option (List Form)) :
    ⦃clean⦄ emitBranches emit test thenBody elseBody
      ⦃⇓ _ => clean⦄ := by
  cases elseBody
  all_goals
    unfold emitBranches
    mvcgen

@[local spec high]
theorem clean_emitConditional {emit : FormEmitter} (kept : emit.Clean)
    (items : List Form) :
    ⦃clean⦄ emitConditional emit items ⦃cleanAnyhow⦄ := by
  have isShape : IsShape "(if %c [then] [else]?)" := isShape_ofList (by decide)
  unfold emitConditional
  mvcgen
  omega

@[local spec high]
theorem clean_emitLoopBody {emit : FormEmitter} (kept : emit.Clean)
    (targets : LoopTargets) (block : BlockId)
    (body : List Form) (next : BlockId) :
    ⦃clean⦄ emitLoopBody emit targets block body next
      ⦃⇓ _ => clean⦄ := by
  exact clean_inLoop targets (clean_emitArm kept block body next)

@[local spec high]
theorem clean_emitWhile {emit : FormEmitter} (kept : emit.Clean)
    (items : List Form) :
    ⦃clean⦄ emitWhile emit items ⦃cleanAnyhow⦄ := by
  refine clean_of_length (isShape_ofList (by decide)) fun isShape length => ?_
  mvcgen
  all_goals omega

@[local spec high]
theorem clean_emitForBlocks {emit : FormEmitter} (kept : emit.Clean)
    (id : Nat) (test : Option Form)
    (step body : List Form) :
    ⦃clean⦄ emitForBlocks emit id test step body
      ⦃⇓ _ => clean⦄ := by
  cases test
  all_goals
    unfold emitForBlocks
    mvcgen

@[local spec high]
theorem clean_emitFor {emit : FormEmitter} (kept : emit.Clean)
    {items : List Form} (some : 0 < items.length) :
    ⦃clean⦄ emitFor emit items ⦃cleanAnyhow⦄ := by
  have isShape : IsShape "(for :init [..] :cond %c :step [..] :body [..])" :=
    isShape_ofList (by decide)
  unfold emitFor
  mvcgen

@[local spec high]
theorem clean_emitCases {emit : FormEmitter} (kept : emit.Clean)
    (scrutinee : Value) (noMatch endBlock : BlockId)
    (cases : List PlacedCase) :
    ⦃clean⦄ emitCases emit scrutinee noMatch endBlock cases
      ⦃⇓ _ => clean⦄ := by
  induction cases with
  | nil =>
      unfold emitCases
      mvcgen
  | cons entry rest ih =>
      unfold emitCases
      mvcgen [ih, -framed_emitCases]

@[local spec high]
theorem clean_emitSwitchBlocks {emit : FormEmitter} (kept : emit.Clean)
    (scrutinee : Value)
    (cases : List (Int64 × List Form)) (default : Option (List Form)) :
    ⦃clean⦄ emitSwitchBlocks emit scrutinee cases default
      ⦃⇓ _ => clean⦄ := by
  cases default
  all_goals
    unfold emitSwitchBlocks placeCase
    mvcgen

@[local spec high]
theorem clean_emitSwitch {emit : FormEmitter} (kept : emit.Clean)
    (items : List Form) :
    ⦃clean⦄ emitSwitch emit items ⦃cleanAnyhow⦄ := by
  have isShape :
      IsShape "(switch %x :cases [(case <int> [..])..] :default [..]?)" :=
    isShape_ofList (by decide)
  unfold emitSwitch
  mvcgen
  all_goals omega

@[local spec high]
theorem clean_emitBlock {emit : FormEmitter} (kept : emit.Clean)
    {items : List Form} (some : 0 < items.length) :
    ⦃clean⦄ emitBlock emit items ⦃cleanAnyhow⦄ := by
  have isShape :
      IsShape "(block :locals [(local T %n)..] :body [..])" :=
    isShape_ofList (by decide)
  refine clean_of_reading (staysInside_blockParts isShape some)
    fun parts _ => ?_
  mvcgen
  · exact fun _ _ _ => isShape
  · exact fun _ _ _ => kept

@[local spec high]
theorem clean_emitMatchArm {emit : FormEmitter} (kept : emit.Clean)
    (result : Option MatchResult)
    (endBlock : BlockId) (arm : Arm) :
    ⦃clean⦄ emitMatchArm emit result endBlock arm
      ⦃⇓ _ => clean⦄ := by
  unfold emitMatchArm
  mvcgen

@[local spec high]
theorem clean_emitMatchCases {emit : FormEmitter} (kept : emit.Clean)
    (result : Option MatchResult)
    (scrutinee tag : Value) (noMatch endBlock : BlockId)
    (arms : List PlacedArm) :
    ⦃clean⦄ emitMatchCases emit result scrutinee tag noMatch endBlock
      arms ⦃⇓ _ => clean⦄ := by
  induction arms with
  | nil =>
      unfold emitMatchCases
      mvcgen
  | cons placed rest ih =>
      unfold emitMatchCases
      mvcgen [ih, -framed_emitMatchCases]
      all_goals rename_i inside
      · exact inside.1
      · exact inside.2

@[local spec high]
theorem clean_emitMatchBlocks {emit : FormEmitter} (kept : emit.Clean)
    (result : Option MatchResult)
    (scrutinee tag : Value) (arms : List TaggedArm) (default : Option Arm) :
    ⦃clean⦄ emitMatchBlocks emit result scrutinee tag arms default
      ⦃⇓ _ => clean⦄ := by
  cases default with
  | some arm =>
      unfold emitMatchBlocks
      mvcgen
  | none =>
      unfold emitMatchBlocks
      refine clean_then clean_freshId fun id => ?_
      refine clean_then (clean_placeArms arms id) fun placed => ?_
      refine clean_then (by mvcgen) fun start => ?_
      refine clean_then (by mvcgen) fun endBlock => ?_
      refine clean_then (by mvcgen) fun _ => ?_
      refine clean_then (clean_emitMatchCases kept _ _ _ _ _ _)
        fun edges => ?_
      refine clean_then (by mvcgen) fun _ => ?_
      dsimp only
      split <;> mvcgen

@[local spec high]
theorem clean_emitMatch {emit : FormEmitter} (kept : emit.Clean)
    (items : List Form) :
    ⦃clean⦄ emitMatch emit items ⦃cleanAnyhow⦄ := by
  have isShape : IsShape matchShape := isShape_ofList (by decide)
  unfold emitMatch
  mvcgen

@[local spec high]
theorem clean_emitUnprotected {emit : FormEmitter} (kept : emit.Clean)
    (id : Nat) (bodyBlock : BlockId)
    (body handler : List Form) :
    ⦃clean⦄ emitUnprotected emit id bodyBlock body handler
      ⦃⇓ _ => clean⦄ := by
  unfold emitUnprotected
  mvcgen

@[local spec high]
theorem clean_emitWithLandingPad {emit : FormEmitter} (kept : emit.Clean)
    (id : Nat) (bodyBlock : BlockId)
    (body handler : List Form) :
    ⦃clean⦄ emitWithLandingPad emit id bodyBlock body handler
      ⦃⇓ _ => clean⦄ := by
  unfold emitWithLandingPad
  mvcgen
  exact fun _ _ _ => kept

@[local spec high]
theorem clean_emitWithFunclet {emit : FormEmitter} (kept : emit.Clean)
    (id : Nat) (bodyBlock : BlockId)
    (body handler : List Form) :
    ⦃clean⦄ emitWithFunclet emit id bodyBlock body handler
      ⦃⇓ _ => clean⦄ := by
  unfold emitWithFunclet
  mvcgen
  exact fun _ _ _ => kept

@[local spec high]
theorem clean_emitTry {emit : FormEmitter} (kept : emit.Clean)
    {items : List Form} (some : 0 < items.length) :
    ⦃clean⦄ emitTry emit items ⦃cleanAnyhow⦄ := by
  have isShape : IsShape "(try :body [..] :catch [..])" :=
    isShape_ofList (by decide)
  unfold emitTry
  mvcgen

/-! ## Forms -/

theorem clean_dispatch {emit : FormEmitter} (kept : emit.Clean)
    (opcode : Opcode) {items : List Form} (some : 0 < items.length) :
    ⦃clean⦄ dispatch emit opcode items ⦃cleanAnyhow⦄ := by
  cases opcode
  all_goals
    unfold dispatch
    mvcgen
  all_goals first
    | exact fun _ _ _ => kept
    | exact fun _ _ _ => some

@[local spec high]
theorem clean_atPlaceOf (form : Form) {body : Emission Unit}
    (kept : ⦃clean⦄ body ⦃⇓ _ => clean⦄) :
    ⦃clean⦄ atPlaceOf form body ⦃⇓ _ => clean⦄ :=
  clean_bracket
    (fun state => { state with span := form.span?.or state.span })
    (fun state later => { later with span := state.span })
    (fun _ => rfl) (fun _ _ => rfl) kept

/-- A handler that gives up is reported. -/
theorem clean_handled {handler : Handler Unit} (head : String)
    (kept : ⦃clean⦄ handler ⦃cleanAnyhow⦄) :
    ⦃clean⦄ (do
      match ← handler.run with
      | .ok _ => pure ()
      | .error cause => report head cause : Emission Unit)
      ⦃⇓ _ => clean⦄ := by
  mvcgen [kept]
  all_goals rename_i inside
  · exact inside.2
  · exact fun _ _ inRange _ => inRange

theorem clean_emitList {emit : FormEmitter} (kept : emit.Clean)
    {form : Form} {items : List Form} (listed : form.list? = some items) :
    ⦃clean⦄ emitList emit form items ⦃⇓ _ => clean⦄ := by
  apply clean_atPlaceOf
  apply clean_handled
  cases found : form.head?.bind Opcode.ofHead? with
  | some opcode =>
      have some : 0 < items.length := by
        cases items with
        | nil => simp [Tree.head?, listed] at found
        | cons => exact Nat.succ_pos _
      exact clean_dispatch kept opcode some
  | none => exact @clean_throw _ .unrecognized trivial _

theorem clean_emitWithin (depth : Nat) : (emitWithin depth).Clean := by
  have isShape : IsShape "(op ..)" := isShape_ofList (by decide)
  induction depth with
  | zero => exact fun form => clean_report form.kindName isShape
  | succ depth ih =>
      intro form
      unfold emitWithin
      split
      · next items listed => exact clean_emitList ih listed
      · exact clean_report _ isShape

theorem clean_emitForm : emitForm.Clean :=
  fun form => clean_emitWithin form.height form

/-! ## Functions -/

/-- The same holds where the emission of a function gives up. -/
abbrev cleanOrFailed :
    PostCond Result
      (.except EmitError (.arg Environment (.arg EmitState .pure))) :=
  post⟨fun _ => clean, fun _ => clean⟩

@[local spec high]
theorem clean_edgeValue (pending : PendingPhi) (source : EdgeSource)
    (block : BlockId) :
    ⦃clean⦄ edgeValue pending source block ⦃cleanAnyhow⦄ := by
  cases source
  all_goals
    unfold edgeValue
    mvcgen

@[local spec high]
theorem clean_addEdge (pending : PendingPhi) (edge : EdgeSource × String) :
    ⦃clean⦄ addEdge pending edge ⦃⇓ _ => clean⦄ := by
  unfold addEdge
  mvcgen
  all_goals rename_i inside
  · exact inside.1
  · exact inside.2

@[local spec high]
theorem clean_completePhis :
    ⦃clean⦄ completePhis ⦃⇓ _ => clean⦄ := by
  unfold completePhis
  mvcgen

@[local spec high]
theorem clean_markPersonality (function : FunctionId) :
    ⦃clean⦄ markPersonality function ⦃⇓ _ => clean⦄ := by
  unfold markPersonality
  mvcgen

@[local spec high]
theorem clean_bindParameters (function : FunctionId) (name : String)
    (index : Nat) (parameters : List (String × TypeId)) :
    ⦃clean⦄ bindParameters function name index parameters
      ⦃cleanOrFailed⦄ := by
  induction parameters generalizing index with
  | nil =>
      unfold bindParameters
      mvcgen
  | cons parameter parameters ih =>
      unfold bindParameters
      mvcgen [ih]

/-- No instruction of a function is read beyond its end. -/
theorem clean_emitBody (function : FunctionId) (header : FunctionHeader)
    (body : List Form) :
    ⦃clean⦄ emitBody function header body ⦃cleanOrFailed⦄ := by
  unfold emitBody
  mvcgen
  exact clean_emitForm

end FormCompiler
