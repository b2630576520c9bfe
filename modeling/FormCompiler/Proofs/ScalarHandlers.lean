import FormCompiler.Emit.Scalar
import FormCompiler.Emit.Storage
import FormCompiler.Proofs.Resolving

/-!
# Plain instructions are quiet: scalars and memory

Instructions that compute, convert, load and store build inside the current
block only.
-/

namespace FormCompiler

open Ir

variable {scene : Scene} {known : TypeTable → Prop} {Result : Type}
  {gives : TypeTable → Result → Prop}

/-- A handler of a plain instruction. -/
abbrev IsQuiet (handler : Handler Unit) : Prop :=
  ∀ scene, Handles scene (fun _ => True) handler fun _ _ => True

/-! ## Scalars -/

theorem emits_buildConstant (table : TypeTable) (type : TypeId)
    (literal : Form) :
    Emits scene (fun table => table.Has type)
      (liftM (buildConstant table type literal) : Emission Value)
      fun table value => value.Typed table := by
  suffices builds : Emits scene (fun table => table.Has type)
      (liftM (buildConstant table type literal) : Emission Value)
      fun table value => value.Typed table ∧ value.type = type from
    builds.weaken fun _ _ both => both.1
  have int (number : Int) := @emits_constantInt scene type number
  have float (number : Double) := @emits_constantFloat scene type number
  have zero := @emits_constantZero scene type
  have undef := @emits_constantUndef scene type
  unfold buildConstant
  dsimp only
  split
  · split
    · exact int _
    · split
      · exact float _
      · split
        · exact zero
        · exact undef
  · split
    · exact int _
    · exact undef
  · split
    · exact float _
    · exact undef
  · split
    · exact zero
    · exact undef
  · split
    · exact zero
    · exact undef
  · split
    · exact zero
    · exact undef
  · exact undef

theorem isQuiet_emitConstant (items : List Form) :
    IsQuiet (emitConstant items) := by
  intro scene
  unfold emitConstant
  refine .parse fun _ _ => ?_
  refine .parse fun destination _ => ?_
  refine .parse fun typeForm _ => ?_
  refine .step (handles_typeOf typeForm) (by tauto) fun type => ?_
  refine .parse fun literal _ => ?_
  refine .look (fun _ => rfl) fun state _ _ => ?_
  refine .step (.lift (emits_buildConstant _ type literal)) (by tauto)
    fun value => ?_
  exact (handles_define destination value type).given (by tauto)

/-- Numbers are first-class. -/
theorem isFirstClass_of_number {table later : TypeTable} {value : Value}
    (has : table.Has value.type) (grows : table.Grows later)
    (typed : value.Typed later)
    (number : table.isInt value.type = true ∨
      table.isFloat value.type = true) : value.isFirstClass = true := by
  have kind := has.kind_eq grows
  rcases number with int | float
  · obtain ⟨bits, width⟩ := Option.isSome_iff_exists.mp int
    rw [TypeTable.intWidth?, ← kind] at width
    exact (typed.operand_int width).1
  · rw [TypeTable.isFloat, ← kind] at float
    exact typed.operand_float float

/-- An operation on numbers, which may be kept for conditions. -/
theorem handles_defineBinary (operator : BinaryOperator) (left right : Value)
    (destination : String) (type : TypeId) :
    Handles scene
      (fun table => left.Typed table ∧ left.isFirstClass = true ∧
        table.Has type)
      (do
        let value ← Builder.binary operator left right destination
        define destination value type) fun _ _ => True := by
  refine .step (.lift (emits_typedBinary operator left right destination))
    (by tauto) fun value => ?_
  exact (handles_define destination value type).given (by tauto)

theorem emits_recordDefinition (name : String) (form : Form) :
    Emits scene known (modifyContext (·.recordDefinition name form))
      fun _ _ => True :=
  emits_modifyContext (fun _ _ _ context => context.recordDefinition name form)
    fun _ => rfl

theorem isQuiet_emitBinary (operator : BinaryOperator) (items : List Form) :
    IsQuiet (emitBinary operator items) := by
  intro scene
  unfold emitBinary
  refine .parse fun _ _ => ?_
  refine .parse fun destination _ => ?_
  refine .parse fun typeForm _ => ?_
  refine .step (handles_typeOf typeForm) (by tauto) fun type => ?_
  refine .look (fun _ => rfl) fun state _ seen => ?_
  refine .ite (fun _ => ?_) fun fits => ?_
  · refine .look (fun _ => rfl) fun _ _ _ => ?_
    exact .throw_bind _
  · refine .parse fun leftForm _ => ?_
    refine .step (handles_operand leftForm type) (by tauto) fun left => ?_
    refine .parse fun rightForm _ => ?_
    refine .step (handles_operand rightForm type) (by tauto) fun right => ?_
    refine .step (handles_expectType _ type left.type) (by tauto)
      fun _ => ?_
    refine .step (handles_expectType _ type right.type) (by tauto)
      fun _ => ?_
    suffices rest : Handles scene
        (fun table => left.Typed table ∧ left.isFirstClass = true ∧
          table.Has type) _ _ by
      refine rest.given ?_
      rintro table ⟨⟨⟨⟨⟨⟨-, has⟩, grows⟩, typed⟩, -⟩, rfl⟩, -⟩
      refine ⟨typed, isFirstClass_of_number seen.2 grows typed ?_, has⟩
      rw [Bool.not_eq_true, Bool.not_eq_false'] at fits
      split at fits
      · exact .inr fits
      · exact .inl fits
    refine .ite (fun _ => ?_) fun _ => ?_
    · refine .step (.lift (emits_recordDefinition destination _))
        (fun _ holds => holds) fun _ => ?_
      exact (handles_defineBinary operator left right destination type).given
        (by tauto)
    · exact handles_defineBinary operator left right destination type

theorem handles_comparedOperands (leftForm rightForm : Form)
    (type : TypeId) :
    Handles scene (fun table => table.Has type)
      (comparedOperands leftForm rightForm type) fun table both =>
        both.1.Typed table ∧ both.2.Typed table := by
  unfold comparedOperands
  refine .step (handles_operand leftForm type) (by tauto) fun left => ?_
  refine .step (handles_operand rightForm type) (by tauto) fun right => ?_
  refine .step (handles_expectType _ type left.type) (by tauto) fun _ => ?_
  refine .step (handles_expectType _ type right.type) (by tauto) fun _ => ?_
  exact .pure (by tauto)

theorem handles_defineTruth (destination : String) (value : Value) :
    Handles scene (fun table => value.Typed table)
      (defineTruth destination value) fun _ _ => True := by
  refine .step (.lift (emits_atomic rfl)) (fun _ holds => holds)
    fun type => ?_
  exact (handles_define destination value type).given (by tauto)

theorem isQuiet_emitComparison (comparison : Comparison)
    (items : List Form) : IsQuiet (emitComparison comparison items) := by
  intro scene
  unfold emitComparison
  refine .parse fun _ _ => ?_
  refine .parse fun destination _ => ?_
  refine .parse fun typeForm _ => ?_
  refine .step (handles_typeOf typeForm) (by tauto) fun type => ?_
  refine .parse fun leftForm _ => ?_
  refine .parse fun rightForm _ => ?_
  refine .step (handles_comparedOperands leftForm rightForm type) (by tauto)
    fun both => ?_
  refine .step (.lift (emits_recordDefinition destination _)) (by tauto)
    fun _ => ?_
  refine .step (.lift (emits_buildComparison comparison typeForm both.1 both.2
    destination)) (by tauto) fun value => ?_
  exact (handles_defineTruth destination value).given (by tauto)

theorem isQuiet_emitCompareInt (items : List Form) :
    IsQuiet (emitCompareInt items) := by
  intro scene
  unfold emitCompareInt
  refine .parse fun parts _ => ?_
  refine .orFail_step _ fun predicate _ => ?_
  refine .parse fun typeForm _ => ?_
  refine .step (handles_typeOf typeForm) (by tauto) fun type => ?_
  refine .look (fun _ => rfl) fun _ _ _ => ?_
  refine .ite (fun _ => ?_) fun _ => ?_
  · refine .look (fun _ => rfl) fun _ _ _ => ?_
    exact .throw_bind _
  · refine .parse fun leftForm _ => ?_
    refine .parse fun rightForm _ => ?_
    refine .step (handles_comparedOperands leftForm rightForm type)
      (by tauto) fun both => ?_
    refine .step (.lift (emits_compareInt predicate both.1 both.2 parts.1))
      (by tauto) fun value => ?_
    exact (handles_defineTruth parts.1 value).given (by tauto)

theorem isQuiet_emitCompareFloat (items : List Form) :
    IsQuiet (emitCompareFloat items) := by
  intro scene
  unfold emitCompareFloat
  refine .parse fun parts _ => ?_
  refine .orFail_step _ fun predicate _ => ?_
  refine .parse fun typeForm _ => ?_
  refine .step (handles_typeOf typeForm) (by tauto) fun type => ?_
  refine .look (fun _ => rfl) fun _ _ _ => ?_
  refine .ite (fun _ => ?_) fun _ => ?_
  · refine .look (fun _ => rfl) fun _ _ _ => ?_
    exact .throw_bind _
  · refine .parse fun leftForm _ => ?_
    refine .parse fun rightForm _ => ?_
    refine .step (handles_comparedOperands leftForm rightForm type)
      (by tauto) fun both => ?_
    refine .step (.lift (emits_compareFloat predicate both.1 both.2 parts.1))
      (by tauto) fun value => ?_
    exact (handles_defineTruth parts.1 value).given (by tauto)

theorem handles_throughSlot (name : String) (value : Value) :
    HandlesValue scene (fun table => value.Typed table)
      (throughSlot name value) := by
  refine .ite (fun _ => ?_) fun _ => ?_
  · refine .step (.lift (emits_alloca value.type _))
      (fun _ typed => typed.has) fun slot => ?_
    refine .step (.lift (emits_store value slot)) (by tauto) fun _ => ?_
    refine .step (.lift (emits_load slot _)) (by tauto) fun found => ?_
    exact .orFail _ fun value same _ holds => holds.2 value same
  · exact .pure fun _ typed => typed

theorem isQuiet_emitCast (operator : CastOperator) (items : List Form) :
    IsQuiet (emitCast operator items) := by
  intro scene
  unfold emitCast
  refine .parse fun _ _ => ?_
  refine .parse fun destination _ => ?_
  refine .parse fun typeForm _ => ?_
  refine .step (handles_typeOf typeForm) (by tauto) fun target => ?_
  refine .parse fun sourceName _ => ?_
  refine .parse fun valueForm _ => ?_
  refine .step (handles_valueOf valueForm) (by tauto) fun value => ?_
  refine .look (fun _ => rfl) fun _ _ _ => ?_
  refine .ite (fun _ => ?_) fun _ => ?_
  · refine .look (fun _ => rfl) fun _ _ _ => ?_
    refine .look (fun _ => rfl) fun _ _ _ => ?_
    exact .throw_bind _
  · refine .step (handles_throughSlot sourceName value) (by tauto)
      fun moved => ?_
    refine .step (.lift (emits_cast operator moved target destination))
      (by tauto) fun result => ?_
    exact (handles_define destination result target).given (by tauto)

/-! ## Variables -/

theorem handles_rejectType (use : String) (type : TypeId) :
    Handles scene known (rejectType use type : Handler Result) gives := by
  refine .look (fun _ => rfl) fun _ _ _ => ?_
  exact .throw _

theorem handles_initialValue (form : Form) (type : TypeId) :
    Handles scene (fun table => table.Has type) (initialValue form type)
      fun table initial => initial.1.Typed table := by
  have literal (form : Form) : Handles scene (fun table => table.Has type)
      (do pure (← operand form type, none))
      fun table (initial : Value × Option String) =>
        initial.1.Typed table := by
    refine .step (handles_operand form type) (by tauto) fun value => ?_
    exact .pure (by tauto)
  unfold initialValue
  split
  · exact literal _
  · exact literal _
  · exact literal _
  · split
    · refine .step (handles_valueOf form) (by tauto) fun value => ?_
      exact .pure (by tauto)
    · refine .step (.lift (emits_constantUndef type)) (by tauto)
        fun value => ?_
      exact .pure (by tauto)

theorem emits_bind (name : String) (value : Value) (type : TypeId) :
    Emits scene (fun table => value.Typed table ∧ table.Has type)
      (modifyContext (·.bind name value type)) fun _ _ => True :=
  emits_modifyContext (fun _ _ both context =>
    context.bind name both.1 both.2) fun _ => rfl

theorem isQuiet_emitVariable (items : List Form) :
    IsQuiet (emitVariable items) := by
  intro scene
  unfold emitVariable
  refine .parse fun _ _ => ?_
  refine .parse fun destination _ => ?_
  refine .parse fun typeForm _ => ?_
  refine .step (handles_typeOf typeForm) (by tauto) fun type => ?_
  refine .parse fun initialForm _ => ?_
  refine .step (handles_initialValue initialForm type) (by tauto)
    fun ⟨initial, source⟩ => ?_
  refine .step (handles_expectType _ type initial.type) (by tauto)
    fun _ => ?_
  refine .step (.lift (emits_declareSlot destination type)) (by tauto)
    fun slot => ?_
  refine .step (.lift (emits_store initial slot)) (by tauto) fun _ => ?_
  refine handles_found _ (emits_load slot destination) (by tauto)
    fun value => ?_
  refine .step (.lift (emits_bind destination value type)) (by tauto)
    fun _ => ?_
  cases source with
  | none => exact .pure (by tauto)
  | some name =>
      refine .ite (fun _ => ?_) fun _ => ?_
      · have aliases : Emits scene
            (fun table => value.Typed table ∧ table.Has type)
            (modifyContext fun context =>
              (context.setAlias name destination).bind name value type)
            fun _ _ => True :=
          emits_modifyContext (fun _ _ both context =>
            (context.setAlias name destination).bind name both.1 both.2)
            fun _ => rfl
        exact (Handles.lift aliases).given (by tauto)
      · exact .pure (by tauto)

theorem isQuiet_emitAssign (items : List Form) :
    IsQuiet (emitAssign items) := by
  intro scene
  unfold emitAssign
  refine .parse fun _ _ => ?_
  refine .parse fun destination _ => ?_
  refine .parse fun valueForm _ => ?_
  refine .step (handles_valueOf valueForm) (by tauto) fun value => ?_
  refine .step (.lift (emits_ensureSlot destination value.type false))
    (fun _ holds => holds.2.has) fun slot => ?_
  refine .look (fun _ => rfl) fun _ _ _ => ?_
  refine .step (handles_expectType _ _ value.type) (by tauto) fun _ => ?_
  refine .step (.lift (emits_store value slot)) (by tauto) fun _ => ?_
  refine handles_found _ (emits_load slot destination) (by tauto)
    fun current => ?_
  refine (Handles.lift (emits_bind destination current value.type)).given ?_
  exact fun _ holds => ⟨holds.2, holds.1.1.1.1.1.2.has⟩

/-! ## Memory -/

theorem isQuiet_emitAlloca (items : List Form) :
    IsQuiet (emitAlloca items) := by
  intro scene
  unfold emitAlloca
  refine .parse fun _ _ => ?_
  refine .parse fun destination _ => ?_
  refine .parse fun typeForm _ => ?_
  refine .step (handles_typeOf typeForm) (by tauto) fun type => ?_
  refine .step (.lift (emits_alloca type destination)) (by tauto)
    fun pointer => ?_
  exact (handles_define destination pointer pointer.type).given
    fun _ holds => ⟨holds.2, holds.2.has⟩

theorem handles_loadThrough (destination : String) (type : TypeId)
    (form : Form) :
    Handles scene (fun table => table.Has type)
      (loadThrough destination type form) fun _ _ => True := by
  unfold loadThrough
  refine .step (handles_valueOf form) (by tauto) fun pointer => ?_
  refine .look (fun _ => rfl) fun _ _ _ => ?_
  have rest : Handles scene (fun table => table.Has type) (do
      let value ← orFail (.unresolved destination)
        (← Builder.load pointer destination)
      define destination value type) fun _ _ => True := by
    refine handles_found _ (emits_load pointer destination)
      (fun _ holds => holds) fun value => ?_
    exact (handles_define destination value type).given (by tauto)
  refine .ite (fun _ => ?_) fun _ => ?_
  · refine .step (.lift (emits_pointer type)) (by tauto) fun expected => ?_
    exact .fail_bind (handles_mismatch _ _ _)
  · exact rest.given (by tauto)

theorem isQuiet_emitLoad (items : List Form) : IsQuiet (emitLoad items) := by
  intro scene
  unfold emitLoad
  refine .parse fun _ _ => ?_
  refine .parse fun destination _ => ?_
  refine .parse fun typeForm _ => ?_
  refine .step (handles_typeOf typeForm) (by tauto) fun type => ?_
  refine .parse fun pointerForm _ => ?_
  exact (handles_loadThrough destination type pointerForm).given (by tauto)

theorem isQuiet_emitDereference (items : List Form) :
    IsQuiet (emitDereference items) := by
  intro scene
  unfold emitDereference
  refine .parse fun _ _ => ?_
  refine .parse fun destination _ => ?_
  refine .parse fun typeForm _ => ?_
  refine .step (handles_typeOf typeForm) (by tauto) fun type => ?_
  refine .parse fun pointerForm _ => ?_
  exact (handles_loadThrough destination type pointerForm).given (by tauto)

theorem handles_storeThrough (declared : Option TypeId)
    (pointerForm valueForm : Form) :
    Handles scene known (storeThrough declared pointerForm valueForm)
      fun _ _ => True := by
  unfold storeThrough
  refine Handles.given ?_ fun _ _ => trivial
  refine .step (handles_valueOf pointerForm) (fun _ holds => holds)
    fun pointer => ?_
  refine .look (fun _ => rfl) fun state ready _ => ?_
  split
  · exact handles_rejectType _ _
  · next pointee found =>
      have has := ready.builder.sound.types.pointee found
      have rest : Handles scene (fun table => state.table.Grows table) (do
          let value ← operand valueForm pointee
          expectType "store" pointee value.type
          Builder.store value pointer) fun _ _ => True := by
        refine .step (handles_operand valueForm pointee)
          (fun _ grows => has.mono grows) fun value => ?_
        refine .step (handles_expectType _ _ value.type)
          (fun _ holds => holds) fun _ => ?_
        exact .lift (emits_store value pointer)
      split
      · refine .step (handles_expectType _ _ pointee) (fun _ holds => holds)
          fun _ => ?_
        exact rest.given (by tauto)
      · exact rest.given (by tauto)

theorem isQuiet_emitStore (items : List Form) :
    IsQuiet (emitStore items) := by
  intro scene
  unfold emitStore
  split
  · next typeForm pointer value =>
      refine .step (handles_typeOf typeForm) (by tauto) fun type => ?_
      exact handles_storeThrough _ pointer value
  · exact handles_storeThrough _ _ _
  · exact .throw _

theorem handles_globalOf (form : Form) (type : TypeId) (shape : String) :
    HandlesValue scene known (globalOf form type shape) := by
  unfold globalOf
  refine Handles.given ?_ fun _ _ => trivial
  refine .orFail_step _ fun name _ => ?_
  refine .look (fun _ => rfl) fun _ _ _ => ?_
  refine .orFail_step _ fun id _ => ?_
  refine .look (fun _ => rfl) fun _ _ _ => ?_
  refine .step (handles_expectType _ type _) (fun _ holds => holds)
    fun _ => ?_
  exact .lift (emits_globalAddress id)

theorem isQuiet_emitLoadGlobal (items : List Form) :
    IsQuiet (emitLoadGlobal items) := by
  intro scene
  unfold emitLoadGlobal
  refine .parse fun _ _ => ?_
  refine .parse fun destination _ => ?_
  refine .parse fun typeForm _ => ?_
  refine .step (handles_typeOf typeForm) (by tauto) fun type => ?_
  refine .parse fun globalForm _ => ?_
  refine .step (handles_globalOf globalForm type _) (by tauto)
    fun address => ?_
  refine handles_found _ (emits_load address destination) (by tauto)
    fun value => ?_
  exact (handles_define destination value type).given (by tauto)

theorem isQuiet_emitStoreGlobal (items : List Form) :
    IsQuiet (emitStoreGlobal items) := by
  intro scene
  unfold emitStoreGlobal
  refine .parse fun _ _ => ?_
  refine .parse fun typeForm _ => ?_
  refine .step (handles_typeOf typeForm) (by tauto) fun type => ?_
  refine .parse fun globalForm _ => ?_
  refine .step (handles_globalOf globalForm type _) (by tauto)
    fun address => ?_
  refine .parse fun valueForm _ => ?_
  refine .step (handles_operand valueForm type) (by tauto) fun value => ?_
  refine .step (handles_expectType _ type value.type) (by tauto)
    fun _ => ?_
  exact .lift (emits_store value address)

/-! ## Pointers -/

theorem isQuiet_emitAddress (items : List Form) :
    IsQuiet (emitAddress items) := by
  intro scene
  unfold emitAddress
  refine .parse fun _ _ => ?_
  refine .parse fun destination _ => ?_
  refine .parse fun typeForm _ => ?_
  refine .step (handles_typeOf typeForm) (by tauto) fun type => ?_
  refine .parse fun source _ => ?_
  refine .look (fun _ => rfl) fun state ready _ => ?_
  split
  · exact handles_rejectType _ _
  · next pointee found =>
      refine .look (fun _ => rfl) fun later laterReady holds => ?_
      have has : later.table.Has
          ((later.context.type? source).getD pointee) := by
        cases recorded : later.context.type? source with
        | none =>
            exact (ready.builder.sound.types.pointee found).mono holds.2
        | some slotType =>
            exact laterReady.context.types source slotType recorded
      refine .step (.lift (emits_ensureSlot source _ true))
        (fun _ holds => has.mono holds.2) fun slot => ?_
      refine .step (handles_expectType _ type slot.type) (by tauto)
        fun _ => ?_
      exact (handles_define destination slot type).given (by tauto)

theorem isQuiet_emitPointerOffset (negated : Bool) (items : List Form) :
    IsQuiet (emitPointerOffset negated items) := by
  intro scene
  unfold emitPointerOffset
  refine .parse fun _ _ => ?_
  refine .parse fun destination _ => ?_
  refine .parse fun typeForm _ => ?_
  refine .step (handles_typeOf typeForm) (by tauto) fun type => ?_
  refine .look (fun _ => rfl) fun _ _ _ => ?_
  refine .ite (fun _ => ?_) fun _ => ?_
  · exact .fail_bind (handles_rejectType _ _)
  · refine .parse fun baseForm _ => ?_
    refine .step (handles_valueOf baseForm) (by tauto) fun base => ?_
    refine .step (handles_expectType _ type base.type) (by tauto)
      fun _ => ?_
    refine .step (.lift (emits_atomic rfl)) (fun _ holds => holds)
      fun word => ?_
    refine .parse fun offsetForm _ => ?_
    refine .step (handles_operand offsetForm word) (by tauto)
      fun offset => ?_
    refine .look (fun _ => rfl) fun state _ seen => ?_
    refine .ite (fun _ => ?_) fun int => ?_
    · exact .fail_bind (handles_mismatch _ _ _)
    · have rest (index : Value) : Handles scene
          (fun table => table.Has type) (do
            let value ← orFail (.unresolved destination)
              (← Builder.elementPointer base [index] destination)
            define destination value type) fun _ _ => True := by
        refine handles_found _ (emits_elementPointer base [index] destination)
          (fun _ holds => holds) fun value => ?_
        exact (handles_define destination value type).given (by tauto)
      refine .ite (fun _ => ?_) fun _ => ?_
      · refine .step (.lift (emits_constantInt offset.type 0))
          (fun _ holds => holds.1.2.has) fun zero => ?_
        refine .step (.lift (emits_binary .sub zero offset _))
          (fun _ holds => holds) fun negative => ?_
        exact (rest negative).given (by tauto)
      · exact (rest offset).given (by tauto)

theorem emits_buildDistance (left right : Value)
    (leftName rightName : String) (elementSize : Nat) (type : TypeId)
    (bits : Nat) (name : String) :
    Emits scene
      (fun table => left.Typed table ∧ right.Typed table ∧ table.Has type)
      (buildDistance left right leftName rightName elementSize type bits name)
      fun table value => value.Typed table := by
  unfold buildDistance
  refine .step (emits_int 64) (fun _ holds => holds) fun word => ?_
  refine .step (emits_cast .ptrtoint left word _) (by tauto)
    fun leftWord => ?_
  refine .step (emits_cast .ptrtoint right word _) (by tauto)
    fun rightWord => ?_
  refine .step (emits_typedBinary .sub leftWord rightWord _) ?_
    fun bytes => ?_
  · rintro table ⟨⟨⟨-, -, kind⟩, typed, rfl⟩, -⟩
    exact ⟨typed, (typed.operand_int (by
      rw [TypeTable.intWidth?, kind])).1⟩
  · refine .step (emits_constantInt word _) (by tauto) fun scale => ?_
    refine .ite (fun _ => ?_) fun _ => ?_
    · exact ((emits_typedBinary .sdiv bytes scale name).given
        (by tauto)).weaken fun _ _ both => both.1
    · refine .step (emits_typedBinary .sdiv bytes scale _) (by tauto)
        fun count => ?_
      exact ((emits_cast _ count type name).given (by tauto)).weaken
        fun _ _ both => both.1

theorem isQuiet_emitPointerDiff (items : List Form) :
    IsQuiet (emitPointerDiff items) := by
  intro scene
  unfold emitPointerDiff
  refine .parse fun _ _ => ?_
  refine .parse fun destination _ => ?_
  refine .parse fun typeForm _ => ?_
  refine .step (handles_typeOf typeForm) (by tauto) fun type => ?_
  refine .parse fun leftName _ => ?_
  refine .parse fun rightName _ => ?_
  refine .parse fun leftForm _ => ?_
  refine .step (handles_valueOf leftForm) (by tauto) fun left => ?_
  refine .parse fun rightForm _ => ?_
  refine .step (handles_valueOf rightForm) (by tauto) fun right => ?_
  refine .look (fun _ => rfl) fun _ _ _ => ?_
  split
  · exact handles_rejectType _ _
  · refine .step (handles_expectType _ left.type right.type) (by tauto)
      fun _ => ?_
    refine .look (fun _ => rfl) fun _ _ _ => ?_
    split
    · exact handles_rejectType _ _
    · refine .look (fun _ => rfl) fun _ _ _ => ?_
      refine .step (.lift (emits_buildDistance left right leftName rightName
        _ type _ destination)) (by tauto) fun value => ?_
      exact (handles_define destination value type).given (by tauto)

end FormCompiler
