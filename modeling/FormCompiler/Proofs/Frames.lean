import Mathlib
import FormCompiler.Emit.Body

/-!
# What instructions leave alone

Emitting an instruction may build anything, but afterwards loops are left and
continued at the same blocks as before, exceptions go to the same handlers, the
scope and the place are the same, and the builder works on the same function.
That holds of every instruction in every state, whether it is understood or
not, and so whatever a construct changes for its bodies is undone again.

Each function has a triple of its own that says so, and the triples of what it
calls are enough to see it.
-/

open Std.Do

set_option mvcgen.warning false

namespace FormCompiler

open Ir

variable {Result : Type}

/-! ## The builder -/

namespace Ir.Builder

/-- Where a builder works. -/
structure Site where
  function : FunctionId

variable {site : Site}

/-- The builder works on the function of a site. -/
def within (site : Site) : Assertion (.arg Builder .pure) :=
  fun builder => ⌜builder.function = site.function⌝

@[spec]
theorem stays_onModule (operation : StateM Module Result) :
    ⦃within site⦄ onModule operation ⦃⇓ _ => within site⦄ :=
  fun _ inside => inside

@[spec]
theorem stays_onTypes (operation : StateM TypeTable Result) :
    ⦃within site⦄ onTypes operation ⦃⇓ _ => within site⦄ :=
  fun _ inside => inside

@[spec]
theorem stays_positionAtEnd (block : BlockId) :
    ⦃within site⦄ positionAtEnd block ⦃⇓ _ => within site⦄ :=
  fun _ inside => inside

@[spec]
theorem stays_positionBeforeTerminator (block : BlockId) :
    ⦃within site⦄ positionBeforeTerminator block
      ⦃⇓ _ => within site⦄ :=
  fun _ inside => inside

@[spec]
theorem stays_appendBlock (name : String) :
    ⦃within site⦄ appendBlock name ⦃⇓ _ => within site⦄ := by
  mvcgen [appendBlock]

@[spec]
theorem stays_types : ⦃within site⦄ types ⦃⇓ _ => within site⦄ := by
  mvcgen [types]

attribute [spec] push pushOperand constantUndef constantZero constantI32
  constantBool constantNone globalAddress functionAddress insertValue bitcast
  call invoke branch ret retVoid unreachable landingPadType resume
  catchSwitch catchPad cleanupPad catchReturn cleanupReturn

@[spec]
theorem stays_attached :
    ⦃within site⦄ attached ⦃⇓ _ => within site⦄ := by
  mvcgen [attached]

@[spec]
theorem stays_insert (block : BlockId) (operation : Operation)
    (name : String) :
    ⦃within site⦄ insert block operation name ⦃⇓ _ => within site⦄ := by
  mvcgen [insert]

@[spec]
theorem stays_insertEffect (operation : Operation) :
    ⦃within site⦄ insertEffect operation ⦃⇓ _ => within site⦄ := by
  mvcgen [insertEffect]

@[spec]
theorem stays_constant (make : IrType → Operand) (type : TypeId) :
    ⦃within site⦄ constant make type ⦃⇓ _ => within site⦄ := by
  mvcgen [constant]

@[spec]
theorem stays_insertPad (operation : Operation) (name : String) :
    ⦃within site⦄ insertPad operation name ⦃⇓ _ => within site⦄ := by
  mvcgen [insertPad]

@[spec]
theorem stays_constantInt (type : TypeId) (value : Int) :
    ⦃within site⦄ constantInt type value ⦃⇓ _ => within site⦄ := by
  mvcgen [constantInt]

@[spec]
theorem stays_constantFloat (type : TypeId) (value : Double) :
    ⦃within site⦄ constantFloat type value ⦃⇓ _ => within site⦄ := by
  mvcgen [constantFloat]

@[spec]
theorem stays_cast (operator : CastOperator) (value : Value)
    (target : TypeId) (name : String) :
    ⦃within site⦄ cast operator value target name
      ⦃⇓ _ => within site⦄ := by
  mvcgen [cast]

@[spec]
theorem stays_alloca (type : TypeId) (name : String) :
    ⦃within site⦄ alloca type name ⦃⇓ _ => within site⦄ := by
  mvcgen [alloca]

@[spec]
theorem stays_entryAlloca (type : TypeId) (name : String) :
    ⦃within site⦄ entryAlloca type name ⦃⇓ _ => within site⦄ := by
  mvcgen [entryAlloca]

@[spec]
theorem stays_load (pointer : Value) (name : String) :
    ⦃within site⦄ load pointer name ⦃⇓ _ => within site⦄ := by
  mvcgen [load]

@[spec]
theorem stays_elementPointer (base : Value) (indices : List Value)
    (name : String) :
    ⦃within site⦄ elementPointer base indices name
      ⦃⇓ _ => within site⦄ := by
  mvcgen [elementPointer]

@[spec]
theorem stays_buildCall (make : IrType → List IrType → Bool → Operand →
      List Operand → Operation) (callee : Value) (arguments : List Value)
    (name : String) :
    ⦃within site⦄ buildCall make callee arguments name
      ⦃⇓ _ => within site⦄ := by
  mvcgen [buildCall]

@[spec]
theorem stays_binary (operator : BinaryOperator) (left right : Value)
    (name : String) :
    ⦃within site⦄ binary operator left right name
      ⦃⇓ _ => within site⦄ := by
  mvcgen [binary]

@[spec]
theorem stays_compareInt (predicate : IntPredicate) (left right : Value)
    (name : String) :
    ⦃within site⦄ compareInt predicate left right name
      ⦃⇓ _ => within site⦄ := by
  mvcgen [compareInt]

@[spec]
theorem stays_compareFloat (predicate : FloatPredicate) (left right : Value)
    (name : String) :
    ⦃within site⦄ compareFloat predicate left right name
      ⦃⇓ _ => within site⦄ := by
  mvcgen [compareFloat]

@[spec]
theorem stays_store (value pointer : Value) :
    ⦃within site⦄ store value pointer ⦃⇓ _ => within site⦄ := by
  mvcgen [store]

@[spec]
theorem stays_fieldPointer (base : Value) (field : Nat) (name : String) :
    ⦃within site⦄ fieldPointer base field name
      ⦃⇓ _ => within site⦄ := by
  mvcgen [fieldPointer]

@[spec]
theorem stays_bytePointer (base : Value) (offset : Nat) (name : String) :
    ⦃within site⦄ bytePointer base offset name
      ⦃⇓ _ => within site⦄ := by
  mvcgen [bytePointer]

@[spec]
theorem stays_vaArg (list : Value) (type : TypeId) (name : String) :
    ⦃within site⦄ vaArg list type name ⦃⇓ _ => within site⦄ := by
  mvcgen [vaArg]

@[spec]
theorem stays_branchIf (condition : Value) (thenTarget elseTarget : BlockId) :
    ⦃within site⦄ branchIf condition thenTarget elseTarget
      ⦃⇓ _ => within site⦄ := by
  mvcgen [branchIf]

@[spec]
theorem stays_phiAtStart (block : BlockId) (type : TypeId) (name : String) :
    ⦃within site⦄ phiAtStart block type name
      ⦃⇓ _ => within site⦄ := by
  mvcgen [phiAtStart]

@[spec]
theorem stays_landingPad (cleanup : Bool) (clauses : List Value)
    (name : String) :
    ⦃within site⦄ landingPad cleanup clauses name
      ⦃⇓ _ => within site⦄ := by
  mvcgen [landingPad]

end Ir.Builder

/-! ## Frames -/

/-- What a form finds around it, apart from the code. -/
structure EmitFrame where
  /-- The loops around the form, the innermost first. -/
  loops : List LoopTargets
  landingPads : List BlockId
  dispatches : List BlockId
  cleanup : Option BlockId
  depth : Nat
  span : Option Span
  function : FunctionId

def EmitState.frame (state : EmitState) : EmitFrame where
  loops := state.context.loops
  landingPads := state.unwindTargets.landingPads
  dispatches := state.unwindTargets.dispatches
  cleanup := state.unwindTargets.cleanup
  depth := state.context.depth
  span := state.span
  function := state.builder.function

/-- One frame is the other one, except that there may be a cleanup block where
there was none. -/
def EmitFrame.Covers (frame later : EmitFrame) : Prop :=
  later = { frame with cleanup := later.cleanup } ∧
    ∀ block, frame.cleanup = some block → later.cleanup = some block

theorem EmitFrame.Covers.refl (frame : EmitFrame) : frame.Covers frame :=
  ⟨rfl, fun _ found => found⟩

/-- What is around is covered by a frame. -/
def framed (frame : EmitFrame) :
    Assertion (.arg Environment (.arg EmitState .pure)) :=
  fun _ state => ⌜frame.Covers state.frame⌝

variable {frame : EmitFrame}

theorem framed_onBuilder {operation : Build Result}
    (stays : ∀ site, ⦃Builder.within site⦄ operation
      ⦃⇓ _ => Builder.within site⦄) :
    ⦃framed frame⦄ onBuilder operation ⦃⇓ _ => framed frame⦄ := by
  intro environment state covers
  have same : (onBuilder operation environment state).2.frame =
      state.frame := by
    have function := stays ⟨state.builder.function⟩ state.builder rfl
    show EmitFrame.mk _ _ _ _ _ _ (operation state.builder).2.function = _
    rw [show (operation state.builder).2.function =
      state.builder.function from function]
    rfl
  show frame.Covers (onBuilder operation environment state).2.frame
  rw [same]
  exact covers

@[spec]
theorem framed_lift {operation : Build Result}
    (stays : ∀ site, ⦃Builder.within site⦄ operation
      ⦃⇓ _ => Builder.within site⦄) :
    ⦃framed frame⦄ (MonadLift.monadLift operation : Emission Result)
      ⦃⇓ _ => framed frame⦄ :=
  framed_onBuilder stays

attribute [spec] context types module currentBlock? isTerminated personality?
  spelling functionType returnType pointeeOf?

theorem framed_modifyContext {change : FunctionContext → FunctionContext}
    (loops : ∀ context, (change context).loops = context.loops)
    (depth : ∀ context, (change context).depth = context.depth) :
    ⦃framed frame⦄ modifyContext change ⦃⇓ _ => framed frame⦄ := by
  intro environment state covers
  show frame.Covers ⟨(change state.context).loops, _, _, _,
    (change state.context).depth, _, _⟩
  rw [loops, depth]
  exact covers

@[spec]
theorem framed_bind (name : String) (value : Value) (type : TypeId) :
    ⦃framed frame⦄ modifyContext (·.bind name value type)
      ⦃⇓ _ => framed frame⦄ :=
  framed_modifyContext (fun _ => rfl) fun _ => rfl

@[spec]
theorem framed_publish (name : String) (value : Value) (type : TypeId) :
    ⦃framed frame⦄ modifyContext (·.publish name value type)
      ⦃⇓ _ => framed frame⦄ :=
  framed_modifyContext (fun _ => rfl) fun _ => rfl

@[spec]
theorem framed_pushSlot (name : String) (slot : Value) (type : TypeId) :
    ⦃framed frame⦄ modifyContext (·.pushSlot name slot type)
      ⦃⇓ _ => framed frame⦄ :=
  framed_modifyContext (fun _ => rfl) fun _ => rfl

@[spec]
theorem framed_setAlias (initial target : String) :
    ⦃framed frame⦄ modifyContext (·.setAlias initial target)
      ⦃⇓ _ => framed frame⦄ :=
  framed_modifyContext (fun _ => rfl) fun _ => rfl

@[spec]
theorem framed_recordDefinition (name : String) (form : Form) :
    ⦃framed frame⦄ modifyContext (·.recordDefinition name form)
      ⦃⇓ _ => framed frame⦄ :=
  framed_modifyContext (fun _ => rfl) fun _ => rfl

@[spec]
theorem framed_freshId : ⦃framed frame⦄ freshId ⦃⇓ _ => framed frame⦄ :=
  fun _ _ covers => covers

@[spec]
theorem framed_report (operation : String) (cause : ProblemCause) :
    ⦃framed frame⦄ report operation cause ⦃⇓ _ => framed frame⦄ := by
  mvcgen [report]

@[spec]
theorem framed_declareFunction (name : String) (result : TypeId)
    (parameters : List TypeId) (variadic : Bool) :
    ⦃framed frame⦄ declareFunction name result parameters variadic
      ⦃⇓ _ => framed frame⦄ := by
  mvcgen [declareFunction]

/-- The frame stays whether an emission gives up or not. -/
abbrev framedAnyhow {Error : Type} (frame : EmitFrame) :
    PostCond Result
      (.except Error (.arg Environment (.arg EmitState .pure))) :=
  post⟨fun _ => framed frame, fun _ => framed frame⟩

@[spec]
theorem framed_orFail (cause : ProblemCause) (part : Option Result) :
    ⦃framed frame⦄ orFail cause part ⦃framedAnyhow frame⦄ := by
  cases part with
  | none => exact fun _ _ covers => covers
  | some part => exact fun _ _ covers => covers

@[spec]
theorem framed_parse (result : Except ProblemCause Result) :
    ⦃framed frame⦄ (MonadLift.monadLift result : Handler Result)
      ⦃framedAnyhow frame⦄ := by
  cases result with
  | error cause => exact fun _ _ covers => covers
  | ok result => exact fun _ _ covers => covers

theorem framed_mk {emission : Emission (Except ProblemCause Result)}
    (keeps : ⦃framed frame⦄ emission ⦃⇓ _ => framed frame⦄) :
    ⦃framed frame⦄ (ExceptT.mk emission : Handler Result)
      ⦃framedAnyhow frame⦄ := by
  intro environment state covers
  have kept := keeps environment state covers
  change (framed frame environment (emission environment state).2).down at kept
  rcases outcome : emission environment state with ⟨result, later⟩
  rw [outcome] at kept
  cases result with
  | ok _ =>
    simp [wp, ExceptT.run, ExceptT.mk, StateT.run, ReaderT.run, outcome]
    exact kept
  | error _ =>
    simp [wp, ExceptT.run, ExceptT.mk, StateT.run, ReaderT.run, outcome]
    exact kept

@[spec]
theorem framed_typeOf (form : Form) :
    ⦃framed frame⦄ typeOf form ⦃framedAnyhow frame⦄ :=
  framed_mk (framed_onBuilder fun _ => Builder.stays_onTypes _)

@[spec]
theorem framed_mismatch (what : String) (expected found : TypeId) :
    ⦃framed frame⦄ (mismatch what expected found : Handler Result)
      ⦃framedAnyhow frame⦄ := by
  mvcgen [mismatch]

@[spec]
theorem framed_expectType (what : String) (expected found : TypeId) :
    ⦃framed frame⦄ expectType what expected found ⦃framedAnyhow frame⦄ := by
  mvcgen [expectType]

/-! ## Sequences and lists -/

theorem framed_then {Other : Type} {first : Emission Result}
    {next : Result → Emission Other}
    (one : ⦃framed frame⦄ first ⦃⇓ _ => framed frame⦄)
    (rest : ∀ result, ⦃framed frame⦄ next result ⦃⇓ _ => framed frame⦄) :
    ⦃framed frame⦄ (first >>= next) ⦃⇓ _ => framed frame⦄ := by
  mvcgen [one, rest]

section Lists

variable {Item : Type}

@[spec]
theorem framed_mapM {read : Item → Handler Result} (items : List Item)
    (each : ∀ item, ⦃framed frame⦄ read item ⦃framedAnyhow frame⦄) :
    ⦃framed frame⦄ items.mapM read ⦃framedAnyhow frame⦄ := by
  induction items with
  | nil =>
      rw [List.mapM_nil]
      mvcgen
  | cons item items ih =>
      rw [List.mapM_cons]
      mvcgen [each, ih]

@[spec]
theorem framed_option_mapM {read : Item → Handler Result}
    (item : Option Item)
    (each : ∀ item, ⦃framed frame⦄ read item ⦃framedAnyhow frame⦄) :
    ⦃framed frame⦄ item.mapM read ⦃framedAnyhow frame⦄ := by
  cases item with
  | none =>
      rw [Option.mapM_none]
      mvcgen
  | some item =>
      rw [Option.mapM_some]
      mvcgen [each]

@[spec]
theorem framed_emission_mapM {read : Item → Emission Result}
    (items : List Item)
    (each : ∀ item, ⦃framed frame⦄ read item ⦃⇓ _ => framed frame⦄) :
    ⦃framed frame⦄ items.mapM read ⦃⇓ _ => framed frame⦄ := by
  induction items with
  | nil =>
      rw [List.mapM_nil]
      mvcgen
  | cons item items ih =>
      rw [List.mapM_cons]
      mvcgen [each, ih]

@[spec]
theorem framed_forM {visit : Item → Handler PUnit} (items : List Item)
    (each : ∀ item, ⦃framed frame⦄ visit item ⦃framedAnyhow frame⦄) :
    ⦃framed frame⦄ items.forM visit ⦃framedAnyhow frame⦄ := by
  induction items with
  | nil => exact fun _ _ covers => covers
  | cons item items ih =>
      rw [List.forM]
      mvcgen [each, ih]

@[spec]
theorem framed_emission_forM {visit : Item → Emission PUnit}
    (items : List Item)
    (each : ∀ item, ⦃framed frame⦄ visit item ⦃⇓ _ => framed frame⦄) :
    ⦃framed frame⦄ items.forM visit ⦃⇓ _ => framed frame⦄ := by
  induction items with
  | nil => exact fun _ _ covers => covers
  | cons item items ih =>
      rw [List.forM]
      mvcgen [each, ih]

end Lists

/-! ## Names and operands -/

@[spec]
theorem framed_orElseFind {first second : Emission (Option Result)}
    (one : ⦃framed frame⦄ first ⦃⇓ _ => framed frame⦄)
    (other : ⦃framed frame⦄ second ⦃⇓ _ => framed frame⦄) :
    ⦃framed frame⦄ orElseFind first second ⦃⇓ _ => framed frame⦄ := by
  mvcgen [orElseFind, one, other]

@[spec]
theorem framed_loadSlot (name : String) :
    ⦃framed frame⦄ loadSlot name ⦃⇓ _ => framed frame⦄ := by
  mvcgen [loadSlot]

@[spec]
theorem framed_readAliased (initial : String) :
    ⦃framed frame⦄ readAliased initial ⦃⇓ _ => framed frame⦄ := by
  mvcgen [readAliased, boundValue]

@[spec]
theorem framed_getValue (name : String) :
    ⦃framed frame⦄ getValue name ⦃⇓ _ => framed frame⦄ := by
  mvcgen [getValue, boundValue]

@[spec]
theorem framed_valueOf (form : Form) :
    ⦃framed frame⦄ valueOf form ⦃framedAnyhow frame⦄ := by
  mvcgen [valueOf]

@[spec]
theorem framed_operand (form : Form) (type : TypeId) :
    ⦃framed frame⦄ operand form type ⦃framedAnyhow frame⦄ := by
  mvcgen [operand]

@[spec]
theorem framed_typedOperand (form : Form) (type : TypeId) (what : String) :
    ⦃framed frame⦄ typedOperand form type what ⦃framedAnyhow frame⦄ := by
  mvcgen [typedOperand]

@[spec]
theorem framed_ensureSlot (name : String) (type : TypeId) (seeded : Bool) :
    ⦃framed frame⦄ ensureSlot name type seeded ⦃⇓ _ => framed frame⦄ := by
  mvcgen [ensureSlot]

@[spec]
theorem framed_declareSlot (name : String) (type : TypeId) :
    ⦃framed frame⦄ declareSlot name type ⦃⇓ _ => framed frame⦄ := by
  mvcgen [declareSlot]

@[spec]
theorem framed_define (name : String) (value : Value) (type : TypeId) :
    ⦃framed frame⦄ define name value type ⦃framedAnyhow frame⦄ := by
  mvcgen [define]

end FormCompiler
