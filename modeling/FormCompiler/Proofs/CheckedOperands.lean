import FormCompiler.Emit.ModuleForm
import FormCompiler.Ir.Printer
import FormCompiler.Proofs.Detours
import FormCompiler.Proofs.Effects

/-!
# Operands that are checked

The operands of arithmetic and of comparisons have one type, the arguments of
a call have the types of the parameters, and what is returned has the type of
the result.  Nothing that is built looks at types again, so whoever builds such
an operation has to check them first.

A handler is followed through its steps here: most of them add no operation of
that kind, and those that do add one whose operands were checked.  What was
checked stays true while the type table grows.
-/

namespace FormCompiler

open Ir

/-! ## Operations that are added -/

namespace Ir

/-- Whether the types of operands have to agree, with one another or with a
signature. -/
def Operation.isChecked : Operation → Bool
  | .binary .. | .compareInt .. | .compareFloat .. | .call .. | .invoke ..
  | .ret _ => true
  | _ => false

namespace Module

variable {module later : Module} {added : Operation → Prop} {declares : Prop}

/-- The same functions and globals are there. -/
structure SameNames (module later : Module) : Prop where
  functions : later.functions.map Function.name =
    module.functions.map Function.name
  globals : later.globals = module.globals

/-- Of the operations that have to be checked, only some are added, and
functions and globals are added only where declaring them is part of the
work. -/
structure AddsOnly (added : Operation → Prop) (declares : Prop)
    (module later : Module) : Prop where
  new : ∀ id operation, operation.isChecked = true →
    later.Performs id operation →
    module.Performs id operation ∨ added operation
  names : declares ∨ module.SameNames later

instance : Std.Refl (AddsOnly added declares) :=
  ⟨fun _ => ⟨fun _ _ _ => .inl, .inr ⟨rfl, rfl⟩⟩⟩

instance : Trans (AddsOnly added declares) (AddsOnly added declares)
    (AddsOnly added declares) where
  trans first second :=
    ⟨fun id operation checked performs =>
      (second.new id operation checked performs).elim
        (first.new id operation checked) .inr,
      second.names.elim .inl fun late => first.names.imp_right fun early =>
        ⟨late.functions.trans early.functions,
          late.globals.trans early.globals⟩⟩

theorem AddsOnly.of_functions_eq (same : later.functions = module.functions)
    (globals : later.globals = module.globals) :
    module.AddsOnly added declares later := by
  refine ⟨fun id operation _ performs => ?_, .inr ⟨by rw [same], globals⟩⟩
  rw [Performs, function_eq_of_functions_eq same] at performs
  exact .inl performs

/-- Functions are found as before. -/
theorem SameNames.function?_eq (same : module.SameNames later)
    (name : String) : later.function? name = module.function? name := by
  have byName (module : Module) : module.function? name =
      (module.functions.map Function.name).findIdx? (· = name) := by
    rw [Module.function?, List.findIdx?_map]
    rfl
  rw [byName, byName, same.functions]

/-- An instruction that is inserted is the only one that is new. -/
theorem performs_of_insertInstruction {block id : BlockId}
    {position : Block → Nat} {inserted operation : Operation} {name : String}
    (performs : (insertInstruction block position inserted name
      module).2.Performs id operation) :
    module.Performs id operation ∨ operation = inserted := by
  rw [insertInstruction_apply] at performs
  unfold Performs at performs ⊢
  rw [function_modifyFunction] at performs
  split at performs
  · obtain ⟨inner, found, instruction, member, same⟩ := performs
    unfold inserting at found
    simp only [List.getElem?_modify, Option.map_eq_map,
      Option.map_eq_some_iff] at found
    obtain ⟨old, oldFound, changed⟩ := found
    split at changed
    · subst changed
      rcases mem_insertAt.mp member with rfl | early
      · exact .inr same.symm
      · exact .inl ⟨old, oldFound, instruction, early, same⟩
    · subst changed
      exact .inl ⟨old, oldFound, instruction, member, same⟩
  · exact .inl performs

theorem adds_insertInstruction (block : BlockId) (position : Block → Nat)
    {operation : Operation}
    (allowed : operation.isChecked = true → added operation)
    (name : String) :
    Relates (AddsOnly added declares)
      (insertInstruction block position operation name) := by
  refine fun module => ⟨fun id other checked performs => ?_, .inr ?_⟩
  · rcases performs_of_insertInstruction performs with old | rfl
    · exact .inl old
    · exact .inr (allowed checked)
  · have named (function : Function) :
        (module.inserting block position operation name function).name =
          function.name := rfl
    exact ⟨map_modify_eq named module.functions block.function, rfl⟩

end Module

namespace Builder

variable {Result : Type} {added : Operation → Prop} {declares : Prop}

/-- Of the operations that have to be checked, only some are built. -/
structure AddsOnly (added : Operation → Prop) (declares : Prop)
    (builder later : Builder) : Prop where
  module : builder.module.AddsOnly added declares later.module

instance : Std.Refl (AddsOnly added declares) := ⟨fun _ => ⟨Std.Refl.refl _⟩⟩

instance : Trans (AddsOnly added declares) (AddsOnly added declares)
    (AddsOnly added declares) :=
  ⟨fun first second => ⟨Trans.trans first.module second.module⟩⟩

theorem adds_onModule {operation : StateM Module Result}
    (adds : Relates (Module.AddsOnly added declares) operation) :
    Relates (AddsOnly added declares) (onModule operation) :=
  fun builder => ⟨adds builder.module⟩

/-- Functions are left alone. -/
theorem adds_of_functions_eq {operation : StateM Module Result}
    (same : ∀ module, (operation module).2.functions = module.functions)
    (globals : ∀ module, (operation module).2.globals = module.globals) :
    Relates (AddsOnly added declares) (onModule operation) :=
  adds_onModule fun module =>
    .of_functions_eq (same module) (globals module)

theorem adds_onTypes (operation : StateM TypeTable Result) :
    Relates (AddsOnly added declares) (onTypes operation) :=
  adds_of_functions_eq (fun _ => rfl) fun _ => rfl

theorem adds_lowerFirstClass? (type : TypeId) :
    Relates (AddsOnly added declares)
      (onModule (Module.lowerFirstClass? type)) :=
  adds_of_functions_eq (fun _ => rfl) fun _ => rfl

theorem adds_push (content : Content) (type : TypeId) :
    Relates (AddsOnly added declares) (push content type) :=
  adds_of_functions_eq (fun _ => rfl) fun _ => rfl

theorem adds_constant (make : IrType → Operand) (type : TypeId) :
    Relates (AddsOnly added declares) (constant make type) := by
  refine .bind (adds_lowerFirstClass? _) fun lowered => .ite ?_ ?_
  · exact adds_push _ type
  · split
    · exact adds_push _ type
    · exact adds_push _ type

theorem adds_constantInt (type : TypeId) (value : Int) :
    Relates (AddsOnly added declares) (constantInt type value) := by
  refine .bind (adds_lowerFirstClass? _) fun lowered => ?_
  split
  · exact adds_push _ type
  · exact adds_constant _ type

theorem adds_constantFloat (type : TypeId) (value : Double) :
    Relates (AddsOnly added declares) (constantFloat type value) := by
  refine .bind (adds_lowerFirstClass? _) fun lowered => .ite ?_ ?_
  · exact adds_push _ type
  · exact adds_constant _ type

theorem adds_attached : Relates (AddsOnly added declares) attached := by
  refine .get_bind fun builder => ?_
  split
  · exact .pure _
  · exact .bind (fun _ => ⟨Std.Refl.refl _⟩) fun _ => .pure _

theorem adds_insert (block : BlockId) {operation : Operation}
    (allowed : operation.isChecked = true → added operation) (name : String) :
    Relates (AddsOnly added declares) (insert block operation name) :=
  .get_bind fun _ => .bind (adds_onModule
    (Module.adds_insertInstruction block _ allowed name)) fun _ => .pure _

theorem adds_insertValue (block : BlockId) {operation : Operation}
    (allowed : operation.isChecked = true → added operation) (name : String)
    (type : TypeId) :
    Relates (AddsOnly added declares) (insertValue block operation name type) :=
  .bind (adds_insert block allowed _) fun _ => adds_push _ type

theorem adds_alloca (type : TypeId) (name : String) :
    Relates (AddsOnly added declares) (alloca type name) := by
  refine .bind (adds_onTypes _) fun pointer => ?_
  refine .bind adds_attached fun block => ?_
  split
  · exact adds_constant _ pointer
  · refine .bind (adds_lowerFirstClass? _) fun lowered => ?_
    split
    · exact adds_constant _ pointer
    · exact adds_insertValue _ nofun name pointer

theorem adds_entryAlloca (type : TypeId) (name : String) :
    Relates (AddsOnly added declares) (entryAlloca type name) := by
  refine .get_bind fun builder => .ite (adds_alloca type name) ?_
  refine .bind (adds_onTypes _) fun pointer => ?_
  refine .bind (adds_lowerFirstClass? _) fun lowered => ?_
  split
  · exact adds_constant _ pointer
  · exact .bind (adds_onModule (Module.adds_insertInstruction _ _ nofun _))
      fun _ => adds_push _ pointer

theorem adds_load (pointer : Value) (name : String) :
    Relates (AddsOnly added declares) (load pointer name) := by
  refine .get_bind fun builder => ?_
  split
  · exact .pure none
  · next type _ =>
      refine .bind adds_attached fun block => ?_
      split
      · exact .map (adds_constant _ type) some
      · refine .ite (.pure none) ?_
        refine .bind (adds_lowerFirstClass? _) fun lowered => ?_
        split
        · exact .map (adds_constant _ type) some
        · exact .map (adds_insertValue _ nofun name type) some

theorem adds_store (value pointer : Value) :
    Relates (AddsOnly added declares) (store value pointer) := by
  refine .bind adds_attached fun block => ?_
  split
  · exact .pure ()
  · exact .ite (.bind (adds_insert _ nofun "") fun _ => .pure ())
      (.pure ())

end Builder

end Ir

/-! ## Steps that add nothing to check -/

namespace EmitState

/-- Of the operations that have to be checked, only some are emitted. -/
structure AddsOnly (added : Operation → Prop) (declares : Prop)
    (_ : Environment) (_ : List NameUse) (state later : EmitState) :
    Prop where
  module : state.builder.module.AddsOnly added declares later.builder.module
  closures : declares ∨ later.closureCount = state.closureCount

instance {added : Operation → Prop} {declares : Prop} :
    Graded (AddsOnly added declares) where
  refl _ _ := ⟨Std.Refl.refl _, .inr rfl⟩
  trans first second := ⟨Trans.trans first.module second.module,
    second.closures.elim .inl fun late => first.closures.imp_right late.trans⟩
  mono _ adds := ⟨adds.module, adds.closures⟩

end EmitState

open EmitState (AddsOnly)

variable {Result Other Part : Type} {added : Operation → Prop}
  {declares : Prop}

theorem adds_onBuilder {operation : Build Result}
    (adds : Relates (Builder.AddsOnly added declares) operation) :
    Does (AddsOnly added declares) [] (onBuilder operation) :=
  fun _ state => ⟨(adds state.builder).module, .inr rfl⟩

/-- The module is left alone. -/
theorem adds_of_builder_eq {emission : Emission Result}
    (same : ∀ environment state,
      (emission environment state).2.builder = state.builder)
    (closures : ∀ environment state,
      (emission environment state).2.closureCount = state.closureCount) :
    Does (AddsOnly added declares) [] emission := by
  refine fun environment state => ⟨?_, .inr (closures environment state)⟩
  rw [same]
  exact Std.Refl.refl _

theorem adds_types : Does (AddsOnly added declares) [] types :=
  adds_of_builder_eq (fun _ _ => rfl) fun _ _ => rfl

theorem adds_context : Does (AddsOnly added declares) [] context :=
  adds_of_builder_eq (fun _ _ => rfl) fun _ _ => rfl

theorem adds_pointeeOf? (value : Value) :
    Does (AddsOnly added declares) [] (pointeeOf? value) :=
  adds_of_builder_eq (fun _ _ => rfl) fun _ _ => rfl

theorem adds_boundValue (name : String) :
    Does (AddsOnly added declares) [] (boundValue name) :=
  adds_of_builder_eq (fun _ _ => rfl) fun _ _ => rfl

theorem adds_spelling (type : TypeId) :
    Does (AddsOnly added declares) [] (spelling type) :=
  adds_of_builder_eq (fun _ _ => rfl) fun _ _ => rfl

theorem adds_modifyContext (change : FunctionContext → FunctionContext) :
    Does (AddsOnly added declares) [] (modifyContext change) :=
  adds_of_builder_eq (fun _ _ => rfl) fun _ _ => rfl

theorem adds_typeOf (form : Form) :
    Tries (AddsOnly added declares) [] (typeOf form) :=
  adds_onBuilder (Builder.adds_onTypes _)

theorem adds_expectType (what : String) (expected found : TypeId) :
    Tries (AddsOnly added declares) [] (expectType what expected found) := by
  refine .ite (.pure ()) ?_
  refine .step (.lift (adds_spelling expected)) fun _ => ?_
  exact .step (.lift (adds_spelling found)) fun _ => .throw _

theorem adds_orElseFind {first second : Emission (Option Result)}
    (searches : Does (AddsOnly added declares) [] first)
    (otherwise : Does (AddsOnly added declares) [] second) :
    Does (AddsOnly added declares) [] (orElseFind first second) := by
  refine .step searches fun found => ?_
  split
  · exact .pure _
  · exact otherwise

theorem adds_loadSlot (name : String) :
    Does (AddsOnly added declares) [] (loadSlot name) := by
  refine .step adds_context fun context => ?_
  split
  · exact adds_onBuilder (Builder.adds_load _ name)
  · exact .pure none

theorem adds_readAliased (initial : String) :
    Does (AddsOnly added declares) [] (readAliased initial) := by
  refine .step adds_context fun context => ?_
  split
  · exact adds_orElseFind (adds_loadSlot _) (adds_boundValue _)
  · exact .pure none

theorem adds_getValue (name : String) :
    Does (AddsOnly added declares) [] (getValue name) := by
  refine adds_orElseFind (adds_loadSlot name) ?_
  refine adds_orElseFind (adds_readAliased name) ?_
  refine adds_orElseFind ?_ (adds_boundValue name)
  split
  · exact adds_readAliased _
  · exact .pure none

theorem adds_valueOf (form : Form) :
    Tries (AddsOnly added declares) [] (valueOf form) := by
  refine .orFail_step _ fun name _ => ?_
  exact .step (.lift (adds_getValue name)) fun _ => .orFail _ _

theorem adds_operand (form : Form) (type : TypeId) :
    Tries (AddsOnly added declares) [] (operand form type) := by
  refine .step (.lift adds_types) fun table => ?_
  split
  · exact .ite (adds_onBuilder (Builder.adds_constantFloat type _))
      (adds_onBuilder (Builder.adds_constantInt type _))
  · exact adds_onBuilder (Builder.adds_constantFloat type _)
  · exact adds_onBuilder (Builder.adds_constantInt type _)
  · exact .ite (adds_onBuilder (Builder.adds_constant _ type))
      (adds_valueOf _)
  · exact adds_valueOf _

theorem adds_ensureSlot (name : String) (type : TypeId) (seeded : Bool) :
    Does (AddsOnly added declares) [] (ensureSlot name type seeded) := by
  refine .step adds_context fun context => ?_
  split
  · exact .pure _
  · refine .step (adds_onBuilder (Builder.adds_entryAlloca type _))
      fun slot => .step adds_context fun context => ?_
    dsimp only
    have pushed (_ : Unit) : Does (AddsOnly added declares) [] (do
        modifyContext (·.pushSlot name slot type)
        pure slot) :=
      .step (adds_modifyContext _) fun _ => .pure slot
    split
    · exact .ite
        (.step (adds_onBuilder (Builder.adds_store _ slot)) pushed)
        (pushed ())
    · exact pushed ()

theorem adds_define (name : String) (value : Value) (type : TypeId) :
    Tries (AddsOnly added declares) [] (define name value type) := by
  refine .step (.lift (adds_modifyContext _)) fun _ => ?_
  refine .step (.lift adds_context) fun _ => ?_
  split
  · refine .step (.lift (adds_ensureSlot name type false)) fun slot => ?_
    refine .step (.lift (adds_pointeeOf? slot)) fun pointee => ?_
    split
    · refine .step (adds_expectType _ _ value.type) fun _ => ?_
      exact adds_onBuilder (Builder.adds_store value slot)
    · exact .throw _
  · exact .pure ()

/-! ## Steps that add what was checked -/

/-- Every operation that is new and has to be checked is good for the type
table by then. -/
structure EmitState.Vouches (good : TypeTable → Operation → Prop)
    (state later : EmitState) : Prop where
  grows : state.table.Grows later.table
  new : ∀ id operation, operation.isChecked = true →
    later.builder.module.Performs id operation →
    state.builder.module.Performs id operation ∨ good later.table operation

variable {scene : Scene} {known enough : TypeTable → Prop}
  {gives : TypeTable → Result → Prop} {good : TypeTable → Operation → Prop}

theorem EmitState.Vouches.trans {state later last : EmitState}
    [stable : ∀ operation, Stable fun table => good table operation]
    (first : state.Vouches good later) (closed : later.table.Closed)
    (second : later.Vouches good last) : state.Vouches good last := by
  refine ⟨first.grows.trans second.grows, ?_⟩
  intro id operation checked performs
  rcases second.new id operation checked performs with early | new
  · refine (first.new id operation checked early).imp_right fun new => ?_
    exact (stable operation).mono closed second.grows new
  · exact .inr new

/-- Where something is known of the type table, a handler adds good
operations only, whether it gives up or not. -/
def Vouches (scene : Scene) (known : TypeTable → Prop)
    (handler : Handler Result) (good : TypeTable → Operation → Prop) : Prop :=
  ∀ state : EmitState, state.Ready scene → known state.table →
    state.Vouches good (handler.run scene.environment state).2

namespace Vouches

variable {handler : Handler Result} {next : Result → Handler Other}

theorem given (vouches : Vouches scene enough handler good)
    (implies : ∀ table, known table → enough table) :
    Vouches scene known handler good :=
  fun state ready holds => vouches state ready (implies _ holds)

theorem unchanged {state later : EmitState} (same : later = state) :
    state.Vouches good later := by
  subst same
  exact ⟨.refl _, fun _ _ _ performs => .inl performs⟩

theorem pure (result : Result) :
    Vouches scene known (Pure.pure result) good :=
  fun _ _ _ => unchanged rfl

theorem throw (cause : ProblemCause) :
    Vouches scene known (throw cause : Handler Result) good :=
  fun _ _ _ => unchanged rfl

/-- What follows a failure is never done. -/
theorem throw_bind (cause : ProblemCause) :
    Vouches scene known ((MonadExcept.throw cause : Handler Result) >>= next)
      good :=
  throw cause

/-- What a handler may add is good where the handler starts. -/
theorem of_adds
    [stable : ∀ operation, Stable fun table => good table operation]
    (handles : Handles scene known handler gives)
    (adds : Tries (AddsOnly added True) [] handler)
    (holds : ∀ table operation, known table → added operation →
      good table operation) :
    Vouches scene known handler good := by
  intro state ready knows
  have grows := (handles state ready knows).follows.grows
  refine ⟨grows, ?_⟩
  intro id operation checked performs
  have new := (adds scene.environment state).module.new id operation checked
    performs
  refine new.imp_right fun new => ?_
  exact (stable operation).mono ready.builder.sound.types grows
    (holds state.table operation knows new)

/-- A handler that adds nothing to check. -/
theorem spares
    [stable : ∀ operation, Stable fun table => good table operation]
    (handles : Handles scene known handler gives)
    (adds : Tries (AddsOnly (fun _ => False) True) [] handler) :
    Vouches scene known handler good :=
  of_adds handles adds fun _ _ _ => False.elim

/-- One handler after another. -/
theorem step [Stable known]
    [stable : ∀ operation, Stable fun table => good table operation]
    (handles : Handles scene enough handler gives)
    (first : Vouches scene enough handler good)
    (implies : ∀ table, known table → enough table)
    (rest : ∀ result, Vouches scene
      (fun table => known table ∧ gives table result) (next result) good) :
    Vouches scene known (handler >>= next) good := by
  intro state ready knows
  obtain ⟨laterReady, quiet, given⟩ := handles state ready (implies _ knows)
  have vouches := first state ready (implies _ knows)
  cases outcome : (handler.run scene.environment state).1 with
  | error cause =>
      rw [run_bind_of_error outcome]
      exact vouches
  | ok result =>
      rw [run_bind_of_ok outcome]
      refine vouches.trans laterReady.builder.sound.types ?_
      refine rest result _ laterReady ⟨?_, given result outcome⟩
      exact Stable.mono ready.builder.sound.types quiet.grows knows

/-- A handler that adds nothing to check first. -/
theorem skip [Stable known]
    [stable : ∀ operation, Stable fun table => good table operation]
    (handles : Handles scene enough handler gives)
    (adds : Tries (AddsOnly (fun _ => False) True) [] handler)
    (implies : ∀ table, known table → enough table)
    (rest : ∀ result, Vouches scene
      (fun table => known table ∧ gives table result) (next result) good) :
    Vouches scene known (handler >>= next) good :=
  step handles (spares handles adds) implies rest

theorem ite {condition : Prop} [Decidable condition]
    {other : Handler Result}
    (holds : condition → Vouches scene known handler good)
    (fails : ¬condition → Vouches scene known other good) :
    Vouches scene known (if condition then handler else other) good := by
  split
  · next yes => exact holds yes
  · next no => exact fails no

/-- Reading a part of the form first. -/
theorem parse {part : Except ProblemCause Part} {next : Part → Handler Result}
    (rest : ∀ item, part = .ok item →
      Vouches scene known (next item) good) :
    Vouches scene known ((liftM part : Handler Part) >>= next) good := by
  cases part with
  | error cause => exact throw cause
  | ok item => exact rest item rfl

theorem orFail_step (cause : ProblemCause) {found : Option Part}
    {next : Part → Handler Result}
    (rest : ∀ part, found = some part →
      Vouches scene known (next part) good) :
    Vouches scene known (orFail cause found >>= next) good := by
  cases found with
  | none => exact throw cause
  | some part => exact rest part rfl

/-- Looking at the state first. -/
theorem look {look : Emission Part} {seen : EmitState → Part}
    {next : Part → Handler Result}
    (looks : ∀ state, look scene.environment state = (seen state, state))
    (rest : ∀ state, state.Ready scene → known state.table → Vouches scene
      (fun table => known table ∧ state.table.Grows table)
      (next (seen state)) good) :
    Vouches scene known ((liftM look : Handler Part) >>= next) good := by
  intro state ready knows
  have run : ((liftM look : Handler Part) >>= next).run scene.environment
      state = (next (seen state)).run scene.environment state := by
    show (next (look scene.environment state).1).run scene.environment
      (look scene.environment state).2 = _
    rw [looks]
  rw [run]
  exact rest state ready knows state ready ⟨knows, .refl _⟩

end Vouches

/-! ## Arithmetic and comparisons -/

namespace Ir

/-- An operand that stands for a value of a type. -/
def Operand.IsOf (table : TypeTable) (type : TypeId) (operand : Operand) :
    Prop :=
  ∃ value : Value, value.Typed table ∧ value.type = type ∧
    value.operand = operand

theorem Operand.IsOf.mono {table later : TypeTable} {type : TypeId}
    {operand : Operand} (isOf : operand.IsOf table type)
    (closed : table.Closed) (grows : table.Grows later) :
    operand.IsOf later type := by
  obtain ⟨value, typed, same⟩ := isOf
  exact ⟨value, typed.mono closed grows, same⟩

/-- Values of a type that crosses function boundaries have operands of the
type that it is lowered to. -/
theorem Operand.IsOf.type_eq {table : TypeTable} {type : TypeId}
    {operand : Operand} (isOf : operand.IsOf table type)
    (firstClass : (lowered table boundaryLevels type).isFirstClass = true) :
    operand.type = lowered table boundaryLevels type := by
  obtain ⟨value, typed, rfl, rfl⟩ := isOf
  have fits := typed.fits
  unfold Value.operand
  cases content : value.content with
  | firstClass operand =>
      rw [content] at fits
      rcases fits with alone | across
      · exact alone.trans (lowered_succ firstClass)
      · exact across
  | token operand | nothing =>
      rw [content, Content.Fits, firstClass] at fits
      cases fits

/-- An operation on two values of one type. -/
def Operation.IsEven (table : TypeTable) : Operation → Prop
  | .binary _ left right | .compareInt _ left right
  | .compareFloat _ left right =>
      ∃ type, left.IsOf table type ∧ right.IsOf table type
  | _ => False

namespace Builder

variable {added : Operation → Prop} {declares : Prop}

theorem adds_binary (operator : BinaryOperator) (left right : Value)
    (name : String)
    (allowed : added (.binary operator left.operand right.operand)) :
    Relates (AddsOnly added declares) (binary operator left right name) := by
  refine .bind adds_attached fun block => ?_
  split
  · exact adds_constant _ _
  · exact adds_insertValue _ (fun _ => allowed) name _

theorem adds_compareInt (predicate : IntPredicate) (left right : Value)
    (name : String)
    (allowed : added (.compareInt predicate left.operand right.operand)) :
    Relates (AddsOnly added declares)
      (compareInt predicate left right name) := by
  refine .bind (adds_onTypes _) fun type => ?_
  refine .bind adds_attached fun block => ?_
  split
  · exact adds_constant _ type
  · exact .bind (adds_insert _ (fun _ => allowed) _) fun _ =>
      adds_push _ type

theorem adds_compareFloat (predicate : FloatPredicate) (left right : Value)
    (name : String)
    (allowed : added (.compareFloat predicate left.operand right.operand)) :
    Relates (AddsOnly added declares)
      (compareFloat predicate left right name) := by
  refine .bind (adds_onTypes _) fun type => ?_
  refine .bind adds_attached fun block => ?_
  split
  · exact adds_constant _ type
  · exact .ite (adds_insertValue _ (fun _ => allowed) name type)
      (adds_constant _ type)

end Builder

end Ir

/-- Two values of one type. -/
structure IsPair (table : TypeTable) (left right : Value) : Prop where
  leftTyped : left.Typed table
  rightTyped : right.Typed table
  same : left.type = right.type

instance (left right : Value) : Stable fun table => IsPair table left right :=
  ⟨fun closed grows pair => ⟨pair.leftTyped.mono closed grows,
    pair.rightTyped.mono closed grows, pair.same⟩⟩

instance (operation : Operation) :
    Stable fun table => operation.IsEven table := by
  refine ⟨fun {table later} closed grows even => ?_⟩
  have mono {left right : Operand}
      (pair : ∃ type, left.IsOf table type ∧ right.IsOf table type) :
      ∃ type, left.IsOf later type ∧ right.IsOf later type := by
    obtain ⟨type, both⟩ := pair
    exact ⟨type, both.1.mono closed grows, both.2.mono closed grows⟩
  cases operation <;> first | exact mono even | exact even

theorem IsPair.operands {table : TypeTable} {left right : Value}
    (pair : IsPair table left right) :
    ∃ type, left.operand.IsOf table type ∧ right.operand.IsOf table type :=
  ⟨right.type, ⟨left, pair.leftTyped, pair.same, rfl⟩,
    ⟨right, pair.rightTyped, rfl, rfl⟩⟩

theorem vouches_binary (operator : BinaryOperator) (left right : Value)
    (name : String) :
    Vouches scene (fun table => IsPair table left right)
      (liftM (Builder.binary operator left right name) : Handler Value)
      fun table operation => operation.IsEven table := by
  refine .of_adds (.lift (emits_binary operator left right name))
    (adds_onBuilder (Builder.adds_binary operator left right name rfl)) ?_
  rintro table _ pair rfl
  exact pair.operands

theorem vouches_compareInt (predicate : IntPredicate) (left right : Value)
    (name : String) :
    Vouches scene (fun table => IsPair table left right)
      (liftM (Builder.compareInt predicate left right name) : Handler Value)
      fun table operation => operation.IsEven table := by
  refine .of_adds (.lift (emits_compareInt predicate left right name))
    (adds_onBuilder (Builder.adds_compareInt predicate left right name rfl)) ?_
  rintro table _ pair rfl
  exact pair.operands

theorem vouches_compareFloat (predicate : FloatPredicate)
    (left right : Value) (name : String) :
    Vouches scene (fun table => IsPair table left right)
      (liftM (Builder.compareFloat predicate left right name) : Handler Value)
      fun table operation => operation.IsEven table := by
  refine .of_adds (.lift (emits_compareFloat predicate left right name))
    (adds_onBuilder
      (Builder.adds_compareFloat predicate left right name rfl)) ?_
  rintro table _ pair rfl
  exact pair.operands

theorem vouches_buildComparison (comparison : Comparison) (typeForm : Form)
    (left right : Value) (name : String) :
    Vouches scene (fun table => IsPair table left right)
      (liftM (buildComparison comparison typeForm left right name) :
        Handler Value)
      fun table operation => operation.IsEven table := by
  have adds : Does (AddsOnly (fun operation =>
      operation = .compareFloat comparison.floatPredicate left.operand
        right.operand ∨
      operation = .compareInt
        (comparison.intPredicate (isUnsigned typeForm)) left.operand
        right.operand) True) []
      (buildComparison comparison typeForm left right name) := by
    refine .step adds_types fun table => .ite ?_ ?_
    · exact adds_onBuilder (Builder.adds_compareFloat _ left right name
        (.inl rfl))
    · exact adds_onBuilder (Builder.adds_compareInt _ left right name
        (.inr rfl))
  refine .of_adds (.lift (emits_buildComparison comparison typeForm left right
    name)) (.lift adds) ?_
  rintro table _ pair (rfl | rfl)
  · exact pair.operands
  · exact pair.operands

theorem handles_pair (leftForm rightForm : Form) (type : TypeId) :
    Handles scene (fun table => table.Has type)
      (comparedOperands leftForm rightForm type)
      fun table both => IsPair table both.1 both.2 := by
  unfold comparedOperands
  refine .step (handles_operand leftForm type) (by tauto) fun left => ?_
  refine .step (handles_operand rightForm type) (by tauto) fun right => ?_
  refine .step (handles_expectType _ type left.type) (by tauto) fun _ => ?_
  refine .step (handles_expectType _ type right.type) (by tauto) fun _ => ?_
  refine .pure ?_
  rintro table ⟨⟨⟨⟨-, leftTyped⟩, rightTyped⟩, leftSame⟩, rightSame⟩
  exact ⟨leftTyped, rightTyped, leftSame.trans rightSame.symm⟩

theorem adds_comparedOperands (leftForm rightForm : Form) (type : TypeId) :
    Tries (AddsOnly added declares) []
      (comparedOperands leftForm rightForm type) := by
  refine .step (adds_operand leftForm type) fun left => ?_
  refine .step (adds_operand rightForm type) fun right => ?_
  refine .step (adds_expectType _ type left.type) fun _ => ?_
  exact .step (adds_expectType _ type right.type) fun _ => .pure _

theorem adds_defineTruth (destination : String) (value : Value) :
    Tries (AddsOnly added declares) [] (defineTruth destination value) :=
  .step (.lift (adds_onBuilder (Builder.adds_onTypes _)))
    fun type => adds_define destination value type

/-- An operation on two numbers of one type. -/
theorem vouches_defineBinary (operator : BinaryOperator) (left right : Value)
    (destination : String) (type : TypeId) :
    Vouches scene
      (fun table => IsPair table left right ∧ left.isFirstClass = true ∧
        table.Has type)
      (do
        let value ← Builder.binary operator left right destination
        define destination value type)
      fun table operation => operation.IsEven table := by
  have handles : Handles scene
      (fun table => IsPair table left right ∧ left.isFirstClass = true)
      (liftM (Builder.binary operator left right destination) :
        Handler Value) fun table value => value.Typed table :=
    ((Handles.lift (emits_typedBinary operator left right
      destination)).given fun _ holds => ⟨holds.1.leftTyped, holds.2⟩).weaken
        fun _ _ holds => holds.1
  refine .step handles ((vouches_binary operator left right
    destination).given fun _ holds => holds.1) (by tauto) fun value => ?_
  exact (Vouches.spares (handles_define destination value type)
    (adds_define destination value type)).given (by tauto)

theorem vouches_emitBinary (operator : BinaryOperator) (items : List Form) :
    Vouches scene (fun _ => True) (emitBinary operator items)
      fun table operation => operation.IsEven table := by
  unfold emitBinary
  refine .parse fun _ _ => ?_
  refine .parse fun destination _ => ?_
  refine .parse fun typeForm _ => ?_
  refine .skip (handles_typeOf typeForm) (adds_typeOf typeForm) (by tauto)
    fun type => ?_
  refine .look (fun _ => rfl) fun state _ seen => ?_
  refine .ite (fun _ => ?_) fun fits => ?_
  · refine .look (fun _ => rfl) fun _ _ _ => ?_
    exact .throw_bind _
  · refine .parse fun leftForm _ => ?_
    refine .skip (handles_operand leftForm type) (adds_operand leftForm type)
      (by tauto) fun left => ?_
    refine .parse fun rightForm _ => ?_
    refine .skip (handles_operand rightForm type)
      (adds_operand rightForm type) (by tauto) fun right => ?_
    refine .skip (handles_expectType _ type left.type)
      (adds_expectType _ type left.type) (by tauto) fun _ => ?_
    refine .skip (handles_expectType _ type right.type)
      (adds_expectType _ type right.type) (by tauto) fun _ => ?_
    suffices rest : Vouches scene
        (fun table => IsPair table left right ∧ left.isFirstClass = true ∧
          table.Has type) _ _ by
      refine rest.given ?_
      rintro table ⟨⟨⟨⟨⟨⟨-, has⟩, grows⟩, typed⟩, other⟩, rfl⟩, same⟩
      refine ⟨⟨typed, other, same.symm⟩,
        isFirstClass_of_number seen.2 grows typed ?_, has⟩
      rw [Bool.not_eq_true, Bool.not_eq_false'] at fits
      split at fits
      · exact .inr fits
      · exact .inl fits
    refine .ite (fun _ => ?_) fun _ => ?_
    · refine .skip (.lift (emits_recordDefinition destination _))
        (.lift (adds_modifyContext _)) (fun _ holds => holds) fun _ => ?_
      exact (vouches_defineBinary operator left right destination type).given
        (by tauto)
    · exact vouches_defineBinary operator left right destination type

/-- A name gets the truth of a comparison. -/
theorem vouches_defineTruth (destination : String) (value : Value) :
    Vouches scene (fun table => value.Typed table)
      (defineTruth destination value)
      fun table operation => operation.IsEven table :=
  .spares (handles_defineTruth destination value)
    (adds_defineTruth destination value)

theorem vouches_emitComparison (comparison : Comparison)
    (items : List Form) :
    Vouches scene (fun _ => True) (emitComparison comparison items)
      fun table operation => operation.IsEven table := by
  unfold emitComparison
  refine .parse fun _ _ => ?_
  refine .parse fun destination _ => ?_
  refine .parse fun typeForm _ => ?_
  refine .skip (handles_typeOf typeForm) (adds_typeOf typeForm) (by tauto)
    fun type => ?_
  refine .parse fun leftForm _ => ?_
  refine .parse fun rightForm _ => ?_
  refine .skip (handles_pair leftForm rightForm type)
    (adds_comparedOperands leftForm rightForm type) (by tauto)
    fun both => ?_
  refine .skip (.lift (emits_recordDefinition destination _))
    (.lift (adds_modifyContext _)) (fun _ holds => holds) fun _ => ?_
  refine .step (.lift (emits_buildComparison comparison typeForm both.1 both.2
    destination)) (vouches_buildComparison comparison typeForm both.1 both.2
      destination) (by tauto) fun value => ?_
  exact (vouches_defineTruth destination value).given (by tauto)

theorem vouches_emitCompareInt (items : List Form) :
    Vouches scene (fun _ => True) (emitCompareInt items)
      fun table operation => operation.IsEven table := by
  unfold emitCompareInt
  refine .parse fun parts _ => ?_
  refine .orFail_step _ fun predicate _ => ?_
  refine .parse fun typeForm _ => ?_
  refine .skip (handles_typeOf typeForm) (adds_typeOf typeForm) (by tauto)
    fun type => ?_
  refine .look (fun _ => rfl) fun _ _ _ => ?_
  refine .ite (fun _ => ?_) fun _ => ?_
  · refine .look (fun _ => rfl) fun _ _ _ => ?_
    exact .throw_bind _
  · refine .parse fun leftForm _ => ?_
    refine .parse fun rightForm _ => ?_
    refine .skip (handles_pair leftForm rightForm type)
      (adds_comparedOperands leftForm rightForm type) (by tauto)
      fun both => ?_
    refine .step (.lift (emits_compareInt predicate both.1 both.2 parts.1))
      (vouches_compareInt predicate both.1 both.2 parts.1) (by tauto)
      fun value => ?_
    exact (vouches_defineTruth parts.1 value).given (by tauto)

theorem vouches_emitCompareFloat (items : List Form) :
    Vouches scene (fun _ => True) (emitCompareFloat items)
      fun table operation => operation.IsEven table := by
  unfold emitCompareFloat
  refine .parse fun parts _ => ?_
  refine .orFail_step _ fun predicate _ => ?_
  refine .parse fun typeForm _ => ?_
  refine .skip (handles_typeOf typeForm) (adds_typeOf typeForm) (by tauto)
    fun type => ?_
  refine .look (fun _ => rfl) fun _ _ _ => ?_
  refine .ite (fun _ => ?_) fun _ => ?_
  · refine .look (fun _ => rfl) fun _ _ _ => ?_
    exact .throw_bind _
  · refine .parse fun leftForm _ => ?_
    refine .parse fun rightForm _ => ?_
    refine .skip (handles_pair leftForm rightForm type)
      (adds_comparedOperands leftForm rightForm type) (by tauto)
      fun both => ?_
    refine .step (.lift (emits_compareFloat predicate both.1 both.2 parts.1))
      (vouches_compareFloat predicate both.1 both.2 parts.1) (by tauto)
      fun value => ?_
    exact (vouches_defineTruth parts.1 value).given (by tauto)

/-! ## What arithmetic and comparisons add -/

/-- The opcodes of arithmetic and of comparisons. -/
def Opcode.isArithmetic : Opcode → Bool
  | .binary _ | .comparison _ | .compareInt | .compareFloat => true
  | _ => false

/-- The two operands that have to be of one type. -/
def Ir.Operation.pair? : Operation → Option (Operand × Operand)
  | .binary _ left right | .compareInt _ left right
  | .compareFloat _ left right => some (left, right)
  | _ => none

/-- Whatever arithmetic and comparisons add on two operands is on operands of
one type.  Types are told apart by the type table; a type that crosses function
boundaries is lowered the same way wherever it stands. -/
theorem new_pairs_of_one_type {scene : Scene} {state : EmitState}
    (ready : state.Ready scene) {opcode : Opcode}
    (arithmetic : opcode.isArithmetic = true) (emit : FormEmitter)
    (items : List Form) :
    let later := ((dispatch emit opcode items).run scene.environment state).2
    ∀ id operation left right, operation.pair? = some (left, right) →
      later.builder.module.Performs id operation →
      state.builder.module.Performs id operation ∨
        ∃ type, left.IsOf later.table type ∧ right.IsOf later.table type ∧
          ((lowered later.table boundaryLevels type).isFirstClass = true →
            left.type = right.type) := by
  intro later id operation left right pair performs
  have vouches : state.Vouches (fun table operation => operation.IsEven table)
      later := by
    cases opcode with
    | binary operator =>
        exact vouches_emitBinary operator items state ready trivial
    | comparison comparison =>
        exact vouches_emitComparison comparison items state ready trivial
    | compareInt => exact vouches_emitCompareInt items state ready trivial
    | compareFloat => exact vouches_emitCompareFloat items state ready trivial
    | _ => cases arithmetic
  have checked : operation.isChecked = true := by
    cases operation <;> first | rfl | cases pair
  refine (vouches.new id operation checked performs).imp_right fun even => ?_
  have both : ∃ type, left.IsOf later.table type ∧
      right.IsOf later.table type := by
    cases operation <;> first | cases pair; exact even | cases pair
  obtain ⟨type, leftOf, rightOf⟩ := both
  refine ⟨type, leftOf, rightOf, fun firstClass => ?_⟩
  rw [leftOf.type_eq firstClass, rightOf.type_eq firstClass]

/-! ## The start of a body -/

/-- The state in which a function gets its first block. -/
def EmitState.opening (module : Module) (function : FunctionId) : EmitState :=
  let builder : Builder := { module, function }
  { builder := (Builder.appendBlock "entry" builder).2.atEnd
      (Builder.appendBlock "entry" builder).1 }

theorem EmitState.ready_opening {module : Module} {function : FunctionId}
    (sound : module.Sound) (declared : function < module.functions.length)
    (inhabited : 0 < module.types.kinds.length)
    (configuration : Configuration) (name : String) :
    (EmitState.opening module function).Ready
      ⟨⟨configuration, {}, name⟩, function⟩ := by
  let builder : Builder := { module, function }
  have appended := Builder.appended_appendBlock
    (show builder.module.Sound from sound) declared
    (show nameBeforeNul "entry" ≠ "" by decide)
  obtain ⟨ready, -⟩ := appended.ready inhabited rfl
  refine ⟨⟨⟨?_, ?_, ?_⟩, ⟨?_, ?_, ?_⟩, ?_, ?_, ?_, ?_, ?_⟩, ready⟩
  · rintro name value ⟨⟩
  · rintro name type ⟨⟩
  · rintro name stack ⟨⟩
  · rintro name layout ⟨⟩
  · rintro name layout ⟨⟩
  · rintro name layout ⟨⟩
  · rintro pending ⟨⟩
  · exact List.Pairwise.nil
  · rintro value ⟨⟩
  · rintro block (⟨targets, ⟨⟩, -⟩ | ⟨⟨⟩⟩ | ⟨⟨⟩⟩ | ⟨⟨⟩⟩)
  · rintro join ⟨⟩

/-- The types of a function from a word to a word. -/
def wordTypes : TypeTable := ⟨[.int 32, .function ⟨0⟩ [⟨0⟩] false], []⟩

/-- A module that declares such a function. -/
def wordModule : Module :=
  (Module.addFunction "f" ⟨1⟩ .external { name := "edn", types := wordTypes }).2

theorem sound_wordModule : wordModule.Sound := by
  have closed : wordTypes.Closed := by
    refine ⟨?_, List.forall_mem_nil _⟩
    simp [wordTypes, TypeKind.parts, TypeTable.Has]
  have sound : Module.Sound { name := "edn", types := wordTypes } :=
    ⟨closed, fun _ inside => absurd inside (Nat.not_lt_zero _),
      List.forall_mem_nil _,
      fun _ => Function.sound_of_noBlocks rfl (List.forall_mem_nil _),
      fun _ inside => absurd inside (Nat.not_lt_zero _)⟩
  have found : wordTypes.signature? ⟨1⟩ = some ⟨⟨0⟩, [⟨0⟩], false⟩ := rfl
  exact (Module.runs_addFunction sound "f" found .external).holds

/-- A sum of literals at the start of a body. -/
theorem new_pairs_of_one_type_sum :
    let items := [Form.symbol "add", Form.symbol "%z", Form.symbol "i32",
      .atom .empty (.int 1), .atom .empty (.int 2)]
    let later := ((dispatch emitForm (.binary .add) items).run
      ⟨{}, {}, "f"⟩ (.opening wordModule 0)).2
    later.builder.module.Performs ⟨0, 0⟩
        (.binary .add (.int 32 1) (.int 32 2)) ∧
      ((EmitState.opening wordModule 0).builder.module.Performs ⟨0, 0⟩
          (.binary .add (.int 32 1) (.int 32 2)) ∨
        ∃ type, Operand.IsOf later.table type (.int 32 1) ∧
          Operand.IsOf later.table type (.int 32 2) ∧
          ((lowered later.table boundaryLevels type).isFirstClass = true →
            (Operand.int 32 1).type = (Operand.int 32 2).type)) := by
  intro items later
  have performs : later.builder.module.Performs ⟨0, 0⟩
      (.binary .add (.int 32 1) (.int 32 2)) :=
    ⟨_, rfl, _, List.mem_cons_self, rfl⟩
  have ready := EmitState.ready_opening sound_wordModule
    (by decide +kernel : 0 < wordModule.functions.length)
    (by decide +kernel) {} "f"
  exact ⟨performs, new_pairs_of_one_type ready rfl emitForm items _ _ _ _ rfl
    performs⟩

/-- A module that branches on a comparison where one of the names compared is
another variable, of another type. -/
def shadowedComparison : Form :=
  Form.list [Form.symbol "module",
    Form.keywordCall "fn" [("name", Form.symbol "f"),
      ("ret", Form.symbol "i32"),
      ("params", Form.vector [Form.list [Form.symbol "param",
        Form.symbol "i32", Form.symbol "%y"]]),
      ("body", Form.vector [
        Form.list [Form.symbol "as", Form.symbol "%x", Form.symbol "i32",
          .atom .empty (.int 1)],
        Form.list [Form.symbol "eq", Form.symbol "%c", Form.symbol "i32",
          Form.symbol "%x", Form.symbol "%y"],
        Form.list [Form.symbol "block", Form.vector [
          Form.list [Form.symbol "as", Form.symbol "%x", Form.symbol "i64",
            .atom .empty (.int 2)],
          Form.list [Form.symbol "if", Form.symbol "%c",
            Form.vector [Form.list [Form.symbol "ret", Form.symbol "i32",
              .atom .empty (.int 1)]]]]],
        Form.list [Form.symbol "ret", Form.symbol "i32",
          .atom .empty (.int 0)]])]]

/-- The comparison is computed once more for the branch, and there it compares
two types. -/
theorem shadowedComparison_compares_two_types :
    let emitted := emitted {} shadowedComparison
    let instruction? := (emitted.state.module.function 0).blocks[0]?.bind
      fun block => block.instructions[9]?
    emitted.error = none ∧ emitted.state.problems.isEmpty = true ∧
      ((instruction?.bind fun instruction =>
        instruction.operation.pair?).map fun pair =>
          pair.1.type == pair.2.type) = some false ∧
      emitted.state.module.lines =
        ["; ModuleID = 'edn'", "", "define i32 @f(i32 %y) \x7b", "entry:",
          "  %x.slot = alloca i32", "  %x.slot2 = alloca i64",
          "  store i32 1, ptr %x.slot", "  %x = load i32, ptr %x.slot",
          "  %x1 = load i32, ptr %x.slot", "  %c = icmp eq i32 %x1, %y",
          "  store i64 2, ptr %x.slot2", "  %x3 = load i64, ptr %x.slot2",
          "  %x4 = load i64, ptr %x.slot2", "  %c.re = icmp eq i64 %x4, %y",
          "  br i1 %c.re, label %if.then.0, label %if.end.0", "",
          "if.then.0:", "  ret i32 1", "",
          "if.end.0:", "  ret i32 0", "\x7d"] := by
  intro emitted instruction?
  refine ⟨?_, ?_, ?_, ?_⟩ <;> decide +kernel

end FormCompiler
