import FormCompiler.Proofs.Emitting

/-!
# Names and operands are well typed

Whatever a name is resolved to is well typed, and so is every operand.
-/

namespace FormCompiler

open Ir

variable {scene : Scene} {known : TypeTable → Prop} {Result : Type}
  {gives : TypeTable → Result → Prop}

/-! ## Reading names -/

/-- A search for a value, which is well typed if there is one. -/
abbrev Searches (scene : Scene) (known : TypeTable → Prop)
    (search : Emission (Option Value)) : Prop :=
  Emits scene known search fun table found =>
    ∀ value ∈ found, value.Typed table

theorem searches_none :
    Searches scene known (pure none) :=
  .pure fun _ _ => by simp

theorem searches_orElseFind [Stable known]
    {first second : Emission (Option Value)}
    (firstSearches : Searches scene known first)
    (secondSearches : Searches scene known second) :
    Searches scene known (orElseFind first second) := by
  refine .step firstSearches (fun _ holds => holds) fun found => ?_
  cases found with
  | none => exact secondSearches.given fun _ both => both.1
  | some value => exact .pure fun _ both => both.2

theorem searches_loadSlot (name : String) :
    Searches scene known (loadSlot name) := by
  refine .look (fun _ => rfl) fun state _ _ => ?_
  split
  · next slot found => exact emits_load slot name
  · exact searches_none

theorem searches_boundValue (name : String) :
    Searches scene known (boundValue name) := by
  refine .look (fun _ => rfl) fun state ready _ => ?_
  refine .pure fun table both value found => ?_
  exact (ready.context.values name value found).mono
    ready.builder.sound.types both.2

theorem searches_readAliased (initial : String) :
    Searches scene known (readAliased initial) := by
  refine .look (fun _ => rfl) fun state _ _ => ?_
  split
  · next target found =>
      refine Emits.given ?_ fun _ _ => trivial
      exact searches_orElseFind (searches_loadSlot target)
        (searches_boundValue target)
  · exact searches_none

theorem searches_getValue (name : String) :
    Searches scene known (getValue name) := by
  unfold getValue
  refine Emits.given ?_ fun _ _ => trivial
  apply searches_orElseFind (searches_loadSlot name)
  apply searches_orElseFind (searches_readAliased name)
  apply searches_orElseFind ?_ (searches_boundValue name)
  split
  · exact searches_readAliased _
  · exact searches_none

/-- A handler that gives a well-typed value. -/
abbrev HandlesValue (scene : Scene) (known : TypeTable → Prop)
    (handler : Handler Value) : Prop :=
  Handles scene known handler fun table value => value.Typed table

/-- A value that was searched for and must be there. -/
theorem handles_found (cause : ProblemCause)
    {search : Emission (Option Value)} {next : Value → Handler Result}
    {enough : TypeTable → Prop} [Stable known]
    (searches : Searches scene enough search)
    (implies : ∀ table, known table → enough table)
    (rest : ∀ value, Handles scene
      (fun table => known table ∧ value.Typed table) (next value) gives) :
    Handles scene known
      ((liftM search : Handler (Option Value)) >>= fun found =>
        orFail cause found >>= next) gives := by
  refine .step (.lift searches) implies fun found => ?_
  refine .orFail_step cause fun value same => ?_
  exact (rest value).given fun _ both => ⟨both.1, both.2 value same⟩

theorem handles_valueOf (form : Form) :
    HandlesValue scene known (valueOf form) := by
  unfold valueOf
  refine Handles.given ?_ fun _ _ => trivial
  refine .orFail_step _ fun name _ => ?_
  refine .step (.lift (searches_getValue name)) (fun _ holds => holds)
    fun found => ?_
  cases found with
  | none => exact .throw _
  | some value => exact .pure fun _ both => both.2 value rfl

theorem handles_operand (form : Form) (type : TypeId) :
    HandlesValue scene (fun table => table.Has type) (operand form type) := by
  refine .look (fun _ => rfl) fun state _ _ => ?_
  have constant {operation : Build Value}
      (emits : Emits scene (fun table => table.Has type)
        (liftM operation : Emission Value)
        fun table value => value.Typed table ∧ value.type = type) :
      HandlesValue scene
        (fun table => table.Has type ∧ state.table.Grows table)
        (liftM operation) :=
    ((Handles.lift emits).weaken fun _ _ both => both.1).given
      fun _ both => both.1
  split
  · split
    · exact constant (emits_constantFloat type _)
    · exact constant (emits_constantInt type _)
  · exact constant (emits_constantFloat type _)
  · exact constant (emits_constantInt type _)
  · split
    · exact constant (emits_constantZero type)
    · exact handles_valueOf _
  · exact handles_valueOf _

theorem handles_operandOf (form : Form) (type : TypeId) (what : String) :
    Handles scene (fun table => table.Has type) (typedOperand form type what)
      fun table value => value.Typed table ∧ value.type = type := by
  unfold typedOperand
  refine .step (handles_operand form type) (fun _ holds => holds)
    fun value => ?_
  refine .step (handles_expectType _ type value.type) (fun _ holds => holds)
    fun _ => ?_
  exact .pure fun _ known => ⟨known.1.2, known.2⟩

theorem handles_typedOperand (form : Form) (type : TypeId) (what : String) :
    HandlesValue scene (fun table => table.Has type)
      (typedOperand form type what) :=
  (handles_operandOf form type what).weaken fun _ _ both => both.1

/-! ## Slots -/

theorem emits_pushSlot (name : String) (slot : Value) (type : TypeId) :
    Emits scene (fun table => slot.Typed table ∧ table.Has type)
      (modifyContext (·.pushSlot name slot type)) fun _ _ => True :=
  emits_modifyContext (fun _ _ both context =>
    context.pushSlot name both.1 both.2) fun _ => rfl

theorem emits_ensureSlot (name : String) (type : TypeId) (seeded : Bool) :
    Emits scene (fun table => table.Has type) (ensureSlot name type seeded)
      fun table slot => slot.Typed table := by
  refine .look (fun _ => rfl) fun state ready _ => ?_
  split
  · next slot found =>
      exact .pure fun table both => (ready.context.slot found).mono
        ready.builder.sound.types both.2
  · refine .step (emits_entryAlloca type _) (fun _ both => both.1)
      fun slot => ?_
    have push : Emits scene
        (fun table => (table.Has type ∧ state.table.Grows table) ∧
          slot.Typed table)
        (do
          modifyContext (·.pushSlot name slot type)
          pure slot) fun table slot => slot.Typed table := by
      refine .step (emits_pushSlot name slot type) (by tauto) fun _ => ?_
      exact .pure (by tauto)
    refine .look (fun _ => rfl) fun later _ _ => ?_
    split
    · split
      · refine .step (emits_store _ slot) (by tauto) fun _ => ?_
        exact push.given (by tauto)
      · exact push.given (by tauto)
    · exact push.given (by tauto)

theorem emits_declareSlot (name : String) (type : TypeId) :
    Emits scene (fun table => table.Has type) (declareSlot name type)
      fun table slot => slot.Typed table := by
  refine .look (fun _ => rfl) fun _ _ _ => ?_
  refine .look (fun _ => rfl) fun state ready _ => ?_
  dsimp only
  split
  · next slot found =>
      refine .pure fun table both => ?_
      exact (ready.context.ownSlot (Option.filter_eq_some_iff.mp found).1).mono
        ready.builder.sound.types both.2
  · refine .step (emits_entryAlloca type _) (by tauto) fun slot => ?_
    refine .step (emits_pushSlot name slot type) (by tauto) fun _ => ?_
    exact .pure (by tauto)

theorem handles_define (name : String) (value : Value) (type : TypeId) :
    Handles scene (fun table => value.Typed table ∧ table.Has type)
      (define name value type) fun _ _ => True := by
  unfold define
  have publishes : Emits scene
      (fun table => value.Typed table ∧ table.Has type)
      (modifyContext (·.publish name value type)) fun _ _ => True :=
    emits_modifyContext (fun _ _ both context =>
      context.publish name both.1 both.2) fun _ => rfl
  refine .step (.lift publishes) (by tauto) fun _ => ?_
  refine .look (fun _ => rfl) fun _ _ _ => ?_
  split
  · refine .step (.lift (emits_ensureSlot name type false)) (by tauto)
      fun slot => ?_
    refine .look (fun _ => rfl) fun _ _ _ => ?_
    split
    · refine .step (handles_expectType _ _ value.type) (by tauto)
        fun _ => ?_
      exact .lift ((emits_store value slot).given (by tauto))
    · exact .throw _
  · exact .pure (by tauto)

/-! ## Conditions -/

theorem emits_buildComparison (comparison : Comparison) (typeForm : Form)
    (left right : Value) (name : String) :
    Emits scene known
      (buildComparison comparison typeForm left right name)
      fun table value => value.Typed table := by
  refine .look (fun _ => rfl) fun _ _ _ => ?_
  split
  · exact (emits_compareFloat _ left right name).weaken fun _ _ both => both.1
  · exact (emits_compareInt _ left right name).weaken fun _ _ both => both.1

/-- A value of an integer type is an integer.  This is all that is known of a
bitwise operation on operands that have changed their types. -/
structure IntegerIfTyped (table : TypeTable) (value : Value) : Prop where
  has : table.Has value.type
  operand : ∀ bits, table.intWidth? value.type = some bits →
    value.operand.type = .int bits

theorem IntegerIfTyped.of_typed {table : TypeTable} {value : Value}
    (typed : value.Typed table) : IntegerIfTyped table value :=
  ⟨typed.has, fun _ width => (typed.operand_int width).2⟩

theorem IntegerIfTyped.of_resembles {table : TypeTable} {left value : Value}
    (typed : left.Typed table) (resembles : Builder.Resembles left value) :
    IntegerIfTyped table value := by
  refine ⟨resembles.type ▸ typed.has, ?_⟩
  intro bits width
  rw [resembles.type] at width
  rw [resembles.operand]
  exact (typed.operand_int width).2

instance (value : Value) : Stable fun table => IntegerIfTyped table value := by
  refine ⟨fun closed grows integer => ⟨integer.has.mono grows, ?_⟩⟩
  rw [TypeTable.intWidth?, integer.has.kind_eq grows]
  exact integer.operand

theorem handles_recompute (name : String) (form : Form) :
    Handles scene known (recompute name form) fun table found =>
      ∀ value ∈ found, IntegerIfTyped table value := by
  unfold recompute
  refine Handles.given ?_ fun _ _ => trivial
  split
  · refine .step (handles_typeOf _) (fun _ holds => holds) fun type => ?_
    refine .step (handles_operand _ type) (by tauto) fun left => ?_
    refine .step (handles_operand _ type) (by tauto) fun right => ?_
    dsimp only
    split
    · refine .map (.lift (emits_buildComparison _ _ left right _)) ?_
      rintro table value known typed _ ⟨⟩
      exact .of_typed typed
    · split
      · refine .map (.lift (emits_binary _ left right _)) ?_
        rintro table value known resembles _ ⟨⟩
        exact .of_resembles known.1.2 resembles
      · exact .pure fun _ _ => by simp
    · exact .pure fun _ _ => by simp
  · exact .pure fun _ _ => by simp

theorem emits_recomputed (name : String) :
    Emits scene known (recomputed name) fun table found =>
      ∀ value ∈ found, IntegerIfTyped table value := by
  unfold recomputed
  refine Emits.given ?_ fun _ _ => trivial
  refine .look (fun _ => rfl) fun _ _ _ => ?_
  split
  · next form _ =>
      refine .step (emits_attempt (handles_recompute name form))
        (fun _ holds => holds) fun found => ?_
      refine .pure fun table both value member => ?_
      obtain ⟨inner, found, same⟩ := Option.bind_eq_some_iff.mp member
      exact both.2 inner found value same
  · exact .pure fun _ _ => by simp

end FormCompiler
