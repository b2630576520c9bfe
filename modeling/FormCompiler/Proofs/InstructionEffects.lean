import FormCompiler.Proofs.LiteralAddresses

/-!
# What instructions do

Every instruction without a body, other than a direct call and a branch, does
plain work: it builds plain code at the end of the current block and uses the
names that its form shows.  Most give a result to the name after the head.
-/

namespace FormCompiler

open Ir

variable {Result : Type} {uses : List NameUse} {items : List Form}

/-- The uses of the name at a position of a form, if there is one. -/
def usesAt (kind : String → List NameUse) (items : List Form) (index : Nat) :
    List NameUse :=
  (items[index]?.bind localName?).toList.flatMap kind

theorem usesAt_eq {kind : String → List NameUse} {name shape : String}
    {index : Nat} (found : nameAt items index shape = .ok name) :
    usesAt kind items index = kind name := by
  unfold nameAt at found
  unfold usesAt
  split at found
  · next same =>
      cases found
      rw [same]
      exact List.append_nil _
  · cases found

/-- Reading the name that is given a result. -/
theorem Tries.destination {shape : String} {next : String → Handler Result}
    (rest : ∀ name, Tries EmitState.Plainly (results name) (next name)) :
    Tries EmitState.Plainly (usesAt results items 1)
      ((liftM (nameAt items 1 shape) : Handler String) >>= next) := by
  refine .parse fun name found => ?_
  rw [usesAt_eq found]
  exact rest name

theorem tries_rejectType (use : String) (type : TypeId) :
    Tries EmitState.Plainly uses (rejectType use type : Handler Result) :=
  .step (.lift (does_spelling type)) fun _ => .throw _

/-! ## Scalars -/

theorem computes_buildConstant (table : TypeTable) (type : TypeId)
    (literal : Form) :
    Builder.Computes (buildConstant table type literal) := by
  have undef := Builder.computes_constantUndef type
  have zero := Builder.computes_constantZero type
  unfold buildConstant
  dsimp only
  split
  · refine .ite (Builder.computes_constantInt type _) (.ite ?_ ?_)
    · exact Builder.computes_constantFloat type _
    · exact .ite zero undef
  · exact .ite (Builder.computes_constantInt type _) undef
  · exact .ite (Builder.computes_constantFloat type _) undef
  · exact .ite zero undef
  · exact .ite zero undef
  · exact .ite zero undef
  · exact undef

theorem tries_emitConstant (items : List Form) :
    Tries EmitState.Plainly (usesAt results items 1)
      (emitConstant items) := by
  refine .parse fun _ _ => .destination fun destination => ?_
  refine .parse fun _ _ => .step (tries_typeOf _) fun type => ?_
  refine .parse fun literal _ => .step (.lift does_tables) fun table => ?_
  refine .step (.lift (does_onBuilder
    (computes_buildConstant table type literal))) fun value => ?_
  exact tries_define destination value type

theorem does_recordDefinition (name : String) (form : Form) :
    Does EmitState.Plainly [] (modifyContext (·.recordDefinition name form)) :=
  does_modifyContext (fun _ => .done ⟨rfl, rfl, rfl, rfl, rfl, rfl⟩)
    (fun _ => rfl) fun _ => rfl

theorem tries_emitBinary (operator : BinaryOperator) (items : List Form) :
    Tries EmitState.Plainly (usesAt results items 1)
      (emitBinary operator items) := by
  refine .parse fun _ _ => .destination fun destination => ?_
  refine .parse fun _ _ => .step (tries_typeOf _) fun type => ?_
  refine .step (.lift does_tables) fun table => ?_
  refine .ite ?_ ?_
  · exact .step (.lift (does_spelling type)) fun _ => .throw _
  · refine .parse fun _ _ => .step (tries_operand _ type) fun left => ?_
    refine .parse fun _ _ => .step (tries_operand _ type) fun right => ?_
    refine .step (tries_expectType _ type left.type) fun _ => ?_
    refine .step (tries_expectType _ type right.type) fun _ => ?_
    refine .when (.lift (does_recordDefinition destination _)) ?_
    exact .step (.lift (does_onBuilder
      (Builder.computes_binary operator left right destination)))
      fun value => tries_define destination value type

theorem tries_comparedOperands (leftForm rightForm : Form) (type : TypeId) :
    Tries EmitState.Plainly [] (comparedOperands leftForm rightForm type) := by
  refine .step (tries_operand leftForm type) fun left => ?_
  refine .step (tries_operand rightForm type) fun right => ?_
  refine .step (tries_expectType _ type left.type) fun _ => ?_
  exact .step (tries_expectType _ type right.type) fun _ => .pure _

theorem tries_defineTruth (destination : String) (value : Value) :
    Tries EmitState.Plainly (results destination)
      (defineTruth destination value) :=
  .step (.lift (does_types _)) fun type =>
    tries_define destination value type

theorem tries_emitComparison (comparison : Comparison) (items : List Form) :
    Tries EmitState.Plainly (usesAt results items 1)
      (emitComparison comparison items) := by
  refine .parse fun _ _ => .destination fun destination => ?_
  refine .parse fun typeForm _ => .step (tries_typeOf typeForm) fun type => ?_
  refine .parse fun _ _ => .parse fun _ _ => ?_
  refine .step (tries_comparedOperands _ _ type) fun (left, right) => ?_
  refine .step (.lift (does_recordDefinition destination _)) fun _ => ?_
  exact .step (.lift (does_buildComparison _ typeForm left right _))
    fun value => tries_defineTruth destination value

theorem nameAt_of_predicateParts {shape destination predicate : String}
    (found : predicateParts items shape = .ok (destination, predicate)) :
    nameAt items 1 shape = .ok destination := by
  unfold predicateParts at found
  cases length : expectLength items 7 shape with
  | error cause => rw [length] at found; cases found
  | ok _ =>
      cases key : itemAt items 3 shape with
      | error cause => rw [length, key] at found; cases found
      | ok form =>
          rw [length, key] at found
          cases name : nameAt items 1 shape with
          | error cause =>
              rw [name] at found
              simp only [bind, Except.bind, throw, throwThe,
                MonadExceptOf.throw] at found
              split at found <;> cases found
          | ok given =>
              rw [name] at found
              cases symbol : itemSymbolAt items 4 shape with
              | error cause =>
                  rw [symbol] at found
                  simp only [bind, Except.bind, throw, throwThe,
                    MonadExceptOf.throw] at found
                  split at found <;> cases found
              | ok given =>
                  rw [symbol] at found
                  simp only [bind, Except.bind, throw, throwThe, pure,
                    Except.pure, MonadExceptOf.throw] at found
                  split at found <;> cases found
                  rfl

theorem tries_emitCompareInt (items : List Form) :
    Tries EmitState.Plainly (usesAt results items 1)
      (emitCompareInt items) := by
  refine .parse fun (destination, mnemonic) found => ?_
  rw [usesAt_eq (nameAt_of_predicateParts found)]
  refine .orFail_step _ fun predicate _ => .parse fun _ _ => ?_
  refine .step (tries_typeOf _) fun type => ?_
  refine .step (.lift does_tables) fun table => .ite ?_ ?_
  · exact .step (.lift (does_spelling type)) fun _ => .throw _
  · refine .parse fun _ _ => .parse fun _ _ => ?_
    refine .step (tries_comparedOperands _ _ type) fun (left, right) => ?_
    exact .step (.lift (does_onBuilder
      (Builder.computes_compareInt predicate left right destination)))
      fun value => tries_defineTruth destination value

theorem tries_emitCompareFloat (items : List Form) :
    Tries EmitState.Plainly (usesAt results items 1)
      (emitCompareFloat items) := by
  refine .parse fun (destination, mnemonic) found => ?_
  rw [usesAt_eq (nameAt_of_predicateParts found)]
  refine .orFail_step _ fun predicate _ => .parse fun _ _ => ?_
  refine .step (tries_typeOf _) fun type => ?_
  refine .step (.lift does_tables) fun table => .ite ?_ ?_
  · exact .step (.lift (does_spelling type)) fun _ => .throw _
  · refine .parse fun _ _ => .parse fun _ _ => ?_
    refine .step (tries_comparedOperands _ _ type) fun (left, right) => ?_
    exact .step (.lift (does_onBuilder
      (Builder.computes_compareFloat predicate left right destination)))
      fun value => tries_defineTruth destination value

theorem tries_throughSlot (name : String) (value : Value) :
    Tries EmitState.Plainly [] (throughSlot name value) := by
  refine .ite ?_ (.pure value)
  refine .step (.lift (does_onBuilder (Builder.computes_alloca _ _)))
    fun slot => ?_
  refine .step (.lift (does_onBuilder (Builder.computes_store value slot)))
    fun _ => ?_
  exact .step (.lift (does_onBuilder (Builder.computes_load slot _)))
    fun _ => .orFail _ _

theorem tries_emitCast (operator : CastOperator) (items : List Form) :
    Tries EmitState.Plainly (usesAt results items 1)
      (emitCast operator items) := by
  refine .parse fun _ _ => .destination fun destination => ?_
  refine .parse fun _ _ => .step (tries_typeOf _) fun target => ?_
  refine .parse fun sourceName _ => .parse fun _ _ => ?_
  refine .step (tries_valueOf _) fun value => ?_
  refine .step (.lift does_tables) fun table => .ite ?_ ?_
  · refine .step (.lift (does_spelling _)) fun _ => ?_
    exact .step (.lift (does_spelling _)) fun _ => .throw _
  · refine .step (tries_throughSlot sourceName value) fun value => ?_
    exact .step (.lift (does_onBuilder
      (Builder.computes_cast operator value target destination)))
      fun result => tries_define destination result target

/-! ## Variables -/

/-- Reading the initial value of a variable.  It comes from a name only where
its form is that name. -/
theorem Tries.initialValue {form : Form} {type : TypeId}
    {next : Value × Option String → Handler Result}
    (rest : ∀ value source, (∀ name ∈ source, localName? form = some name) →
      Tries EmitState.Plainly uses (next (value, source))) :
    Tries EmitState.Plainly uses
      (FormCompiler.initialValue form type >>= next) := by
  have literal (form : Form) : Tries EmitState.Plainly uses
      ((do Pure.pure (← operand form type, none)) >>= next) := by
    rw [bind_assoc]
    refine .step (tries_operand form type) fun value => ?_
    rw [pure_bind]
    exact rest value none nofun
  unfold FormCompiler.initialValue
  split
  · exact literal _
  · exact literal _
  · exact literal _
  · split
    · next name found =>
        rw [bind_assoc]
        refine .step (tries_valueOf _) fun value => ?_
        rw [pure_bind]
        refine rest value (some name) ?_
        rintro _ ⟨⟩
        exact found
    · rw [bind_assoc]
      refine .step (.lift (does_onBuilder
        (Builder.computes_constantUndef type))) fun value => ?_
      rw [pure_bind]
      exact rest value none nofun

/-- The uses of a name that becomes a variable. -/
def variableUses (name : String) : List NameUse := [.slotted name, .bound name]

/-- The uses of a name that a variable is initialized with. -/
def initialUses (name : String) : List NameUse := [.aliased name, .bound name]

theorem tries_emitVariable (items : List Form) :
    Tries EmitState.Plainly
      (usesAt variableUses items 1 ++ usesAt initialUses items 3)
      (emitVariable items) := by
  refine .parse fun _ _ => .parse fun destination found => ?_
  rw [usesAt_eq found]
  show Tries _ ([.slotted destination] ++ ([.bound destination] ++ _)) _
  refine .parse fun _ _ => .step (tries_typeOf _) fun type => ?_
  refine .parse fun form given => .initialValue fun initial source same => ?_
  refine .step (tries_expectType _ type initial.type) fun _ => ?_
  refine .bind (.lift (does_declareSlot destination type)) fun slot => ?_
  refine .step (.lift (does_onBuilder (Builder.computes_store initial slot)))
    fun _ => ?_
  refine .step (.lift (does_onBuilder (Builder.computes_load slot _)))
    fun loaded => .orFail_step _ fun value _ => ?_
  refine .bind (.lift (does_bind destination value type)) fun _ => ?_
  split
  · next name =>
      have initial : usesAt initialUses items 3 = initialUses name := by
        unfold itemAt at given
        split at given
        · next item =>
            cases given
            rw [usesAt, item, Option.bind_some, same name rfl]
            rfl
        · cases given
      rw [initial]
      refine .ite (.lift (does_modifyContext (fun context => ?_)
        (fun _ => rfl) fun _ => rfl)) (.pure ())
      exact .trans (.rename context name destination) (.bind ..)
  · exact .pure ()

theorem tries_emitAssign (items : List Form) :
    Tries EmitState.Plainly (usesAt variableUses items 1)
      (emitAssign items) := by
  refine .parse fun _ _ => .parse fun destination found => ?_
  rw [usesAt_eq found]
  show Tries _ ([.slotted destination] ++ [.bound destination]) _
  refine .parse fun _ _ => .step (tries_valueOf _) fun value => ?_
  refine .bind (.lift (does_ensureSlot destination value.type false))
    fun slot => ?_
  refine .step (.lift (does_pointeeOf? slot)) fun pointee => ?_
  refine .step (tries_expectType _ _ value.type) fun _ => ?_
  refine .step (.lift (does_onBuilder (Builder.computes_store value slot)))
    fun _ => ?_
  refine .step (.lift (does_onBuilder (Builder.computes_load slot _)))
    fun loaded => .orFail_step _ fun current _ => ?_
  exact .lift (does_bind destination current value.type)

/-! ## Memory and pointers -/

theorem tries_emitAlloca (items : List Form) :
    Tries EmitState.Plainly (usesAt results items 1)
      (emitAlloca items) := by
  refine .parse fun _ _ => .destination fun destination => ?_
  refine .parse fun _ _ => .step (tries_typeOf _) fun type => ?_
  exact .step (.lift (does_onBuilder
    (Builder.computes_alloca type destination)))
    fun pointer => tries_define destination pointer pointer.type

/-- A value that was loaded is given to a name. -/
theorem Tries.loaded {cause : ProblemCause} {pointer : Value} {name : String}
    {next : Value → Handler Result}
    (rest : ∀ value, Tries EmitState.Plainly uses (next value)) :
    Tries EmitState.Plainly uses (do
      next (← FormCompiler.orFail cause
        (← liftM (Builder.load pointer name)))) :=
  .step (.lift (does_onBuilder (Builder.computes_load pointer name)))
    fun _ => .orFail_step cause fun value _ => rest value

theorem tries_loadThrough (destination : String) (type : TypeId)
    (form : Form) :
    Tries EmitState.Plainly (results destination)
      (loadThrough destination type form) := by
  refine .step (tries_valueOf form) fun pointer => ?_
  refine .step (.lift (does_pointeeOf? pointer)) fun pointee => .ite ?_ ?_
  · refine .step (.lift (does_types _)) fun expected => ?_
    exact .step (tries_mismatch _ _ _) fun _ =>
      .loaded fun value => tries_define destination value type
  · exact .loaded fun value => tries_define destination value type

theorem tries_emitLoad (items : List Form) :
    Tries EmitState.Plainly (usesAt results items 1)
      (emitLoad items) := by
  refine .parse fun _ _ => .destination fun destination => ?_
  refine .parse fun _ _ => .step (tries_typeOf _) fun type => ?_
  exact .parse fun form _ => tries_loadThrough destination type form

theorem tries_emitDereference (items : List Form) :
    Tries EmitState.Plainly (usesAt results items 1)
      (emitDereference items) := by
  refine .parse fun _ _ => .destination fun destination => ?_
  refine .parse fun _ _ => .step (tries_typeOf _) fun type => ?_
  exact .parse fun form _ => tries_loadThrough destination type form

theorem tries_storeThrough (declared : Option TypeId)
    (pointerForm valueForm : Form) :
    Tries EmitState.Plainly []
      (storeThrough declared pointerForm valueForm) := by
  refine .step (tries_valueOf pointerForm) fun pointer => ?_
  refine .step (.lift (does_pointeeOf? pointer)) fun pointee => ?_
  split
  · exact tries_rejectType _ _
  · next pointee =>
      have stores (_ : Unit) : Tries EmitState.Plainly [] (do
          let value ← operand valueForm pointee
          expectType "store" pointee value.type
          liftM (Builder.store value pointer)) := by
        refine .step (tries_operand valueForm pointee) fun value => ?_
        refine .step (tries_expectType _ pointee value.type) fun _ => ?_
        exact does_onBuilder (Builder.computes_store value pointer)
      split
      · exact .step (tries_expectType _ _ pointee) stores
      · exact stores ()

theorem tries_emitStore (items : List Form) :
    Tries EmitState.Plainly [] (emitStore items) := by
  unfold emitStore
  split
  · exact .step (tries_typeOf _) fun type => tries_storeThrough _ _ _
  · exact tries_storeThrough none _ _
  · exact .throw _

theorem tries_globalOf (form : Form) (type : TypeId) (shape : String) :
    Tries EmitState.Plainly [] (globalOf form type shape) := by
  refine .orFail_step _ fun name _ => ?_
  refine .step (.lift does_module) fun module => .orFail_step _ fun id _ => ?_
  refine .step (.lift does_module) fun module => ?_
  refine .step (tries_expectType _ type _) fun _ => ?_
  exact does_onBuilder (Builder.computes_globalAddress id)

theorem tries_emitLoadGlobal (items : List Form) :
    Tries EmitState.Plainly (usesAt results items 1)
      (emitLoadGlobal items) := by
  refine .parse fun _ _ => .destination fun destination => ?_
  refine .parse fun _ _ => .step (tries_typeOf _) fun type => ?_
  refine .parse fun _ _ => .step (tries_globalOf _ type _) fun address => ?_
  exact .loaded fun value => tries_define destination value type

theorem tries_emitStoreGlobal (items : List Form) :
    Tries EmitState.Plainly [] (emitStoreGlobal items) := by
  refine .parse fun _ _ => .parse fun _ _ => ?_
  refine .step (tries_typeOf _) fun type => ?_
  refine .parse fun _ _ => .step (tries_globalOf _ type _) fun address => ?_
  refine .parse fun _ _ => .step (tries_operand _ type) fun value => ?_
  refine .step (tries_expectType _ type value.type) fun _ => ?_
  exact does_onBuilder (Builder.computes_store value address)

/-- The uses of a name whose address is taken. -/
def addressUses (name : String) : List NameUse := [.slotted name]

theorem tries_emitAddress (items : List Form) :
    Tries EmitState.Plainly
      (usesAt addressUses items 3 ++ usesAt results items 1)
      (emitAddress items) := by
  refine .parse fun _ _ => .parse fun destination found => ?_
  rw [usesAt_eq found]
  refine .parse fun _ _ => .step (tries_typeOf _) fun type => ?_
  refine .parse fun source sourceFound => ?_
  rw [usesAt_eq sourceFound]
  refine .step (.lift does_tables) fun table => ?_
  split
  · exact tries_rejectType _ _
  · refine .step (.lift does_context) fun context => ?_
    refine .bind (.lift (does_ensureSlot source _ true)) fun slot => ?_
    refine .step (tries_expectType _ type slot.type) fun _ => ?_
    exact tries_define destination slot type

/-- The address of an element is given to a name. -/
theorem Tries.element {cause : ProblemCause} {base : Value}
    {indices : List Value} {name : String} {next : Value → Handler Result}
    (rest : ∀ value, Tries EmitState.Plainly uses (next value)) :
    Tries EmitState.Plainly uses (do
      next (← FormCompiler.orFail cause
        (← liftM (Builder.elementPointer base indices name)))) :=
  .step (.lift (does_onBuilder
    (Builder.computes_elementPointer base indices name)))
    fun _ => .orFail_step cause fun value _ => rest value

theorem tries_emitPointerOffset (negated : Bool) (items : List Form) :
    Tries EmitState.Plainly (usesAt results items 1)
      (emitPointerOffset negated items) := by
  refine .parse fun _ _ => .destination fun destination => ?_
  refine .parse fun _ _ => .step (tries_typeOf _) fun type => ?_
  refine .step (.lift does_tables) fun table => ?_
  refine .when (tries_rejectType _ type) ?_
  refine .parse fun _ _ => .step (tries_valueOf _) fun base => ?_
  refine .step (tries_expectType _ type base.type) fun _ => ?_
  refine .step (.lift (does_types _)) fun word => .parse fun _ _ => ?_
  refine .step (tries_operand _ word) fun offset => ?_
  refine .step (.lift does_tables) fun table => ?_
  refine .when (tries_mismatch _ word offset.type) (.ite ?_ ?_)
  · refine .step (.lift (does_onBuilder
      (Builder.computes_constantInt offset.type 0))) fun zero => ?_
    refine .step (.lift (does_onBuilder
      (Builder.computes_binary .sub zero offset _))) fun offset => ?_
    exact .element fun value => tries_define destination value type
  · exact .element fun value => tries_define destination value type

theorem does_buildDistance (left right : Value)
    (leftName rightName : String) (elementSize : Nat) (type : TypeId)
    (bits : Nat) (name : String) :
    Does EmitState.Plainly [] (buildDistance left right leftName rightName
      elementSize type bits name) := by
  refine .step (does_types _) fun word => ?_
  refine .step (does_onBuilder (Builder.computes_cast _ left word _))
    fun leftWord => ?_
  refine .step (does_onBuilder (Builder.computes_cast _ right word _))
    fun rightWord => ?_
  refine .step (does_onBuilder
    (Builder.computes_binary .sub leftWord rightWord _)) fun bytes => ?_
  refine .step (does_onBuilder (Builder.computes_constantInt word _))
    fun scale => .ite ?_ ?_
  · exact does_onBuilder (Builder.computes_binary .sdiv bytes scale name)
  · refine .step (does_onBuilder
      (Builder.computes_binary .sdiv bytes scale _)) fun count => ?_
    exact does_onBuilder (Builder.computes_cast _ count type name)

theorem tries_emitPointerDiff (items : List Form) :
    Tries EmitState.Plainly (usesAt results items 1)
      (emitPointerDiff items) := by
  refine .parse fun _ _ => .destination fun destination => ?_
  refine .parse fun _ _ => .step (tries_typeOf _) fun type => ?_
  refine .parse fun leftName _ => .parse fun rightName _ => ?_
  refine .parse fun _ _ => .step (tries_valueOf _) fun left => ?_
  refine .parse fun _ _ => .step (tries_valueOf _) fun right => ?_
  refine .step (.lift (does_pointeeOf? left)) fun pointee => ?_
  split
  · exact tries_rejectType _ _
  · refine .step (tries_expectType _ _ right.type) fun _ => ?_
    refine .step (.lift does_tables) fun table => ?_
    split
    · exact tries_rejectType _ _
    · refine .step (.lift does_tables) fun table => ?_
      exact .step (.lift (does_buildDistance left right leftName rightName _
        type _ destination)) fun value => tries_define destination value type

/-! ## Aggregates -/

theorem tries_emitIndex (items : List Form) :
    Tries EmitState.Plainly (usesAt results items 1)
      (emitIndex items) := by
  refine .parse fun _ _ => .destination fun destination => ?_
  refine .parse fun _ _ => .step (tries_typeOf _) fun element => ?_
  refine .parse fun _ _ => .step (tries_valueOf _) fun base => ?_
  refine .step (.lift does_tables) fun table => .ite ?_ ?_
  · refine .step (.lift (does_spelling _)) fun _ => ?_
    exact .step (.lift (does_spelling _)) fun _ => .throw _
  · refine .step (.lift (does_types _)) fun word => .parse fun _ _ => ?_
    refine .step (tries_operand _ word) fun index => ?_
    refine .step (.lift does_tables) fun table => .ite (.throw _) ?_
    refine .step (.lift (does_onBuilder (Builder.computes_constantI32 0)))
      fun zero => ?_
    exact .element fun address => tries_define destination address _

theorem does_storeElements (array zero : Value) (name : String)
    (index : Nat) (values : List Value) :
    Does EmitState.Plainly [] (storeElements array zero name index values) := by
  induction values generalizing index with
  | nil => exact .pure ()
  | cons value values ih =>
      refine .step (does_onBuilder (Builder.computes_constantI32 _))
        fun position => ?_
      refine .step (does_onBuilder
        (Builder.computes_elementPointer array _ _)) fun found => ?_
      split
      · exact .step (does_onBuilder (Builder.computes_store value _))
          fun _ => ih (index + 1)
      · exact ih (index + 1)

theorem tries_emitArrayLiteral (items : List Form) :
    Tries EmitState.Plainly (usesAt results items 1)
      (emitArrayLiteral items) := by
  refine .parse fun _ _ => .destination fun destination => ?_
  refine .parse fun _ _ => .step (tries_typeOf _) fun element => ?_
  refine .parse fun _ _ => .orFail_step _ fun length _ => ?_
  refine .parse fun elements _ => .ite (.throw _) ?_
  refine .step (.mapM fun form _ => tries_typedOperand form element _)
    fun values => ?_
  refine .step (.lift (does_types _)) fun array => ?_
  refine .step (.lift (does_onBuilder (Builder.computes_alloca array _)))
    fun pointer => ?_
  refine .step (.lift (does_onBuilder (Builder.computes_constantI32 0)))
    fun zero => ?_
  exact .step (.lift (does_storeElements pointer zero destination 0 values))
    fun _ => tries_define destination pointer pointer.type

theorem tries_aggregateBase (form : Form) (aggregate : TypeId) :
    Tries EmitState.Plainly [] (aggregateBase form aggregate) := by
  refine .step (tries_valueOf form) fun base => ?_
  refine .step (.lift (does_pointeeOf? base)) fun pointee => ?_
  refine .ite ?_ (.pure base)
  refine .step (.lift (does_types _)) fun pointer => ?_
  exact .step (tries_mismatch _ _ _) fun _ => .pure base

theorem tries_structLayout (name : String) :
    Tries EmitState.Plainly [] (structLayout name) :=
  .step (.lift does_read) fun _ => .orFail _ _

theorem tries_literalFields (layout : StructLayout) (name shape : String) :
    (items : List Form) →
    Tries EmitState.Plainly [] (literalFields layout name shape items)
  | fieldForm :: valueForm :: rest => by
      refine .orFail_step _ fun field _ => ?_
      refine .step (.orFail _ _) fun (index, type) => ?_
      refine .step (tries_typedOperand valueForm type _) fun value => ?_
      exact .step (tries_literalFields layout name shape rest)
        fun _ => .pure _
  | [] => .pure []
  | [_] => .pure []

theorem does_storeFields (struct : Value) (name : String)
    (fields : List (String × Nat × Value)) :
    Does EmitState.Plainly [] (storeFields struct name fields) := by
  induction fields with
  | nil => exact .pure ()
  | cons field fields ih =>
      refine .step (does_onBuilder
        (Builder.computes_fieldPointer struct _ _)) fun found => ?_
      split
      · exact .step (does_onBuilder (Builder.computes_store _ _)) fun _ => ih
      · exact ih

theorem tries_emitStructLiteral (items : List Form) :
    Tries EmitState.Plainly (usesAt results items 1)
      (emitStructLiteral items) := by
  refine .parse fun _ _ => .destination fun destination => ?_
  refine .parse fun name _ => .parse fun pairs _ => .ite (.throw _) ?_
  refine .step (tries_structLayout name) fun layout => ?_
  refine .step (tries_literalFields layout name _ pairs) fun fields => ?_
  refine .step (.lift (does_onBuilder (Builder.computes_alloca _ _)))
    fun pointer => ?_
  exact .step (.lift (does_storeFields pointer destination fields))
    fun _ => tries_define destination pointer pointer.type

/-- The address of a field, where there is one. -/
theorem Tries.field {cause : ProblemCause} {base : Value} {index : Nat}
    {name : String} {next : Value → Handler Result}
    (rest : ∀ value, Tries EmitState.Plainly uses (next value)) :
    Tries EmitState.Plainly uses (do
      next (← FormCompiler.orFail cause
        (← liftM (Builder.fieldPointer base index name)))) :=
  .step (.lift (does_onBuilder
    (Builder.computes_fieldPointer base index name)))
    fun _ => .orFail_step cause fun value _ => rest value

theorem tries_memberAddress (items : List Form) (shape addressName : String) :
    Tries EmitState.Plainly [] (memberAddress items shape addressName) := by
  refine .parse fun name _ => .parse fun field _ => ?_
  refine .step (tries_structLayout name) fun layout => ?_
  refine .step (.orFail _ _) fun (index, type) => ?_
  refine .parse fun _ _ => ?_
  refine .step (tries_aggregateBase _ layout.type) fun base => ?_
  exact .field fun address => .pure (address, type)

theorem tries_emitMember (items : List Form) :
    Tries EmitState.Plainly (usesAt results items 1)
      (emitMember items) := by
  refine .parse fun _ _ => .destination fun destination => ?_
  refine .step (tries_memberAddress items _ _) fun (address, type) => ?_
  exact .loaded fun value => tries_define destination value type

theorem tries_emitMemberAddress (items : List Form) :
    Tries EmitState.Plainly (usesAt results items 1)
      (emitMemberAddress items) := by
  refine .parse fun _ _ => .destination fun destination => ?_
  exact .step (tries_memberAddress items _ _) fun (address, type) =>
    tries_define destination address address.type

theorem tries_emitUnionMember (items : List Form) :
    Tries EmitState.Plainly (usesAt results items 1)
      (emitUnionMember items) := by
  refine .parse fun _ _ => .destination fun destination => ?_
  refine .parse fun name _ => .parse fun field _ => ?_
  refine .step (.lift does_read) fun environment => ?_
  refine .orFail_step _ fun layout _ => .orFail_step _ fun type _ => ?_
  refine .parse fun _ _ => ?_
  refine .step (tries_aggregateBase _ layout.type) fun base => ?_
  refine .field fun storage => .step (.lift (does_types _)) fun target => ?_
  refine .step (.lift (does_onBuilder
    (Builder.computes_cast .bitcast storage target _))) fun pointer => ?_
  exact .loaded fun value => tries_define destination value type

theorem tries_sumVariant (items : List Form) (sumAt variantAt : Nat)
    (shape : String) :
    Tries EmitState.Plainly [] (sumVariant items sumAt variantAt shape) := by
  refine .parse fun sum _ => .parse fun name _ => ?_
  refine .step (.lift does_read) fun environment => ?_
  refine .orFail_step _ fun layout _ => .orFail_step _ fun variant _ => ?_
  exact .pure (layout, variant)

theorem tries_payloadField (variant : Variant) (index : Nat) :
    Tries EmitState.Plainly [] (payloadField variant index) :=
  .step (.lift does_tables) fun _ => .orFail _ _

theorem does_payloadPointer (payload : Value) (offset : Nat) (type : TypeId)
    (name : String) :
    Does EmitState.Plainly [] (payloadPointer payload offset type name) := by
  refine .step (does_onBuilder (Builder.computes_bytePointer payload offset _))
    fun found => ?_
  split
  · refine .step (does_types _) fun pointer => ?_
    exact .map (does_onBuilder
      (Builder.computes_cast .bitcast _ pointer _)) some
  · exact .pure none

theorem tries_sumOperand (form : Form) (layout : SumLayout) (what : String) :
    Tries EmitState.Plainly [] (sumOperand form layout what) := by
  refine .step (tries_valueOf form) fun value => ?_
  refine .step (.lift (does_types _)) fun pointer => ?_
  exact .step (tries_expectType what pointer value.type) fun _ => .pure value

theorem tries_storePayload (payload : Value) (variant : Variant)
    (name : String) (index : Nat) (forms : List Form) :
    Tries EmitState.Plainly []
      (storePayload payload variant name index forms) := by
  induction forms generalizing index with
  | nil => exact .pure ()
  | cons form forms ih =>
      refine .step (tries_payloadField variant index) fun (offset, type) => ?_
      refine .step (tries_typedOperand form type _) fun value => ?_
      refine .step (.lift (does_payloadPointer payload offset type _))
        fun found => .orFail_step _ fun pointer _ => ?_
      exact .step (.lift (does_onBuilder
        (Builder.computes_store value pointer))) fun _ => ih (index + 1)

theorem tries_emitSumNew (items : List Form) :
    Tries EmitState.Plainly (usesAt results items 1)
      (emitSumNew items) := by
  refine .parse fun _ _ => .destination fun destination => ?_
  refine .step (tries_sumVariant items 2 3 _) fun (layout, variant) => ?_
  refine .parse fun fields _ => .ite (.throw _) ?_
  refine .step (.lift (does_onBuilder (Builder.computes_alloca _ _)))
    fun sum => .field fun tagAddress => ?_
  refine .step (.lift (does_onBuilder (Builder.computes_constantI32 _)))
    fun tag => ?_
  refine .step (.lift (does_onBuilder
    (Builder.computes_store tag tagAddress))) fun _ => ?_
  have gives (_ : PUnit) : Tries EmitState.Plainly (results destination) (do
      define destination sum (← liftM (TypeTable.pointer layout.type))) :=
    .step (.lift (does_types _)) fun pointer =>
      tries_define destination sum pointer
  refine .ite (.field fun payload => ?_) (gives ⟨⟩)
  exact .step (tries_storePayload payload variant destination 0 fields) gives

theorem tries_emitSumIs (items : List Form) :
    Tries EmitState.Plainly (usesAt results items 1)
      (emitSumIs items) := by
  refine .parse fun _ _ => .destination fun destination => ?_
  refine .step (tries_sumVariant items 2 4 _) fun (layout, variant) => ?_
  refine .parse fun _ _ => .step (tries_sumOperand _ layout _) fun sum => ?_
  refine .field fun tagAddress => .loaded fun tag => ?_
  refine .step (.lift (does_onBuilder (Builder.computes_constantI32 _)))
    fun expected => ?_
  refine .step (.lift (does_onBuilder
    (Builder.computes_compareInt .eq tag expected destination)))
    fun hit => ?_
  exact .step (.lift (does_types _)) fun truth =>
    tries_define destination hit truth

theorem tries_emitSumGet (items : List Form) :
    Tries EmitState.Plainly (usesAt results items 1)
      (emitSumGet items) := by
  refine .parse fun _ _ => .destination fun destination => ?_
  refine .parse fun _ _ => .orFail_step _ fun index _ => ?_
  refine .step (tries_sumVariant items 2 4 _) fun (layout, variant) => ?_
  refine .step (tries_payloadField variant index) fun (offset, type) => ?_
  refine .parse fun _ _ => .step (tries_sumOperand _ layout _) fun sum => ?_
  refine .field fun payload => ?_
  refine .step (.lift (does_payloadPointer payload offset type destination))
    fun found => .orFail_step _ fun pointer _ => ?_
  exact .loaded fun value => tries_define destination value type

theorem tries_defineLiteral (destination : String) (literal : Literal) :
    Tries EmitState.Plainly (results destination)
      (defineLiteral destination literal) := by
  rw [defineLiteral_eq]
  refine .step (.lift (does_addressLiteral literal destination))
    fun found => .orFail_step _ fun pointer _ => ?_
  exact tries_define destination pointer pointer.type

theorem tries_emitTextLiteral (items : List Form) :
    Tries EmitState.Plainly (usesAt results items 1)
      (emitTextLiteral items) := by
  refine .parse fun _ _ => .destination fun destination => ?_
  refine .parse fun _ _ => .orFail_step _ fun text _ => ?_
  exact tries_defineLiteral destination _

theorem tries_emitBytesLiteral (items : List Form) :
    Tries EmitState.Plainly (usesAt results items 1)
      (emitBytesLiteral items) := by
  refine .parse fun _ _ => .destination fun destination => ?_
  refine .parse fun _ _ => .orFail_step _ fun contents _ => ?_
  exact tries_defineLiteral destination _

end FormCompiler
