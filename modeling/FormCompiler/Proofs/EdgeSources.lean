import FormCompiler.Proofs.Bodies
import FormCompiler.Proofs.SlotAuthority

/-!
# Where phis read names

The edges of phis are added when the whole body is there.  Each name on an edge
is resolved as it is at the end of the body and read at the end of the block
that the edge comes from, ahead of what ends the block.  Scopes have been left
by then, so that a name may stand for another variable than it did where the
phi is written; a variable of the body itself is there to the end.
-/

namespace FormCompiler

open Ir

namespace Ir

/-- An address was loaded right ahead of the end of a block. -/
def Module.LoadedAtEnd (module later : Module) (block : BlockId)
    (type : IrType) (address operand : Operand) : Prop :=
  ∃ inner front ending load, module.block? block = some inner ∧
    inner.instructions = front ++ [ending] ∧
    ending.operation.isTerminator = true ∧
    later.block? block =
      some { inner with instructions := front ++ [load, ending] } ∧
    load.operation = .load type address ∧
    operand = .register load.register type

namespace Builder

variable {builder : Builder} {block : BlockId} {pointer : Value}
  {type : TypeId}

/-- A load is put in ahead of the end of its block. -/
theorem loadedAtEnd_insertValue (ahead : builder.beforeTerminator = true)
    (ended : builder.isTerminatedBlock block = true) (irType : IrType)
    (address : Operand) (name : String) (type : TypeId) :
    let inserted := insertValue block (.load irType address) name type builder
    inserted.1.type = type ∧
      builder.module.LoadedAtEnd inserted.2.module block irType address
        inserted.1.operand := by
  intro inserted
  have run : inserted.2.module.block? block =
      (Module.insertInstruction block
        (fun block => block.instructions.length -
          if builder.beforeTerminator then 1 else 0)
        (.load irType address) (nameBeforeNul name)
        builder.module).2.block? block := rfl
  unfold isTerminatedBlock at ended
  cases found : builder.module.block? block with
  | none =>
      rw [found] at ended
      cases ended
  | some inner =>
      rw [found] at ended
      obtain ⟨front, ending, split, terminates⟩ :=
        Block.exists_append_of_isTerminated ended
      obtain ⟨final, there⟩ := Module.block?_insertInstruction
        (fun block => block.instructions.length -
          if builder.beforeTerminator then 1 else 0)
        (.load irType address) (nameBeforeNul name) found
      let register : Register := ⟨block.function,
        (builder.module.function block.function).registerCount⟩
      refine ⟨rfl, inner, front, ending,
        ⟨register, final, .load irType address⟩, found, split, terminates, ?_,
        rfl, rfl⟩
      rw [run, there, Block.insertAt, if_pos ahead, split]
      simp [register]

theorem loadedAtEnd_load (ready : builder.Ready)
    (cursor : builder.block = some block)
    (ended : builder.isTerminatedBlock block = true)
    (points : builder.PointsTo type pointer)
    (firstClass : (phiType builder.module type).isFirstClass = true)
    (name : String) :
    ∃ value, (load pointer name builder).1 = some value ∧
      value.type = type ∧
      builder.module.LoadedAtEnd (load pointer name builder).2.module block
        (phiType builder.module type) pointer.operand value.operand := by
  have ahead : builder.beforeTerminator = true := by
    rw [ready.mode, isTerminated, cursor]
    exact ended
  have looks : types builder = (builder.module.types, builder) := rfl
  have lowers : (onModule (Module.lowerFirstClass? type) builder).1 =
      some (phiType builder.module type) := by
    have found := (Module.runs_lowerFirstClass? ready.sound type).good.2
    rw [if_pos firstClass] at found
    exact found
  unfold load
  rw [stateM_bind_apply, looks]
  dsimp only
  rw [points.2]
  dsimp only
  rw [attached_bind cursor]
  dsimp only
  rw [if_neg (by rw [points.address]; exact Bool.false_ne_true),
    stateM_bind_apply, lowers]
  -- lowering a type changes no block
  obtain ⟨typed, loaded⟩ := loadedAtEnd_insertValue
    (show (onModule (Module.lowerFirstClass? type)
      builder).2.beforeTerminator = true from ahead)
    (show (onModule (Module.lowerFirstClass? type)
      builder).2.isTerminatedBlock block = true from ended)
    (phiType builder.module type) pointer.operand name type
  exact ⟨_, rfl, typed, loaded⟩

end Builder

end Ir

/-! ## Names keep what they stand for -/

/-- Nothing of what names stand for changes. -/
def EmitState.KeepsContext (_ : Environment) (_ : List NameUse)
    (state later : EmitState) : Prop :=
  later.context = state.context

open EmitState (KeepsContext)

instance : Graded KeepsContext where
  refl _ _ := rfl
  trans first second := second.trans first
  mono _ keeps := keeps

section Contexts

variable {Result : Type}

theorem keepsContext_onBuilder (operation : Build Result) :
    Does KeepsContext [] (onBuilder operation) :=
  fun _ _ => rfl

theorem Does.keepsContext {emission : Emission Result}
    (looks : Does EmitState.Looks [] emission) :
    Does KeepsContext [] emission :=
  fun environment state => (looks environment state).context_eq

theorem keepsContext_edgeValue (pending : PendingPhi) (source : EdgeSource)
    (block : BlockId) :
    Tries KeepsContext [] (edgeValue pending source block) := by
  have checks (value : Value) : Tries KeepsContext [] (do
      expectType s!"phi `{pending.destination}`" pending.type value.type
      pure value : Handler Value) :=
    .step (Does.keepsContext (looks_expectType _ _ _)) fun _ => .pure value
  unfold edgeValue
  cases source with
  | value value => exact checks value
  | named name =>
      refine .step (.lift (keepsContext_onBuilder _)) fun point => ?_
      refine .step (.lift (keepsContext_onBuilder _)) fun _ => ?_
      refine .step (.lift (looks_getValue name).keepsContext) fun found => ?_
      refine .step (.lift (keepsContext_onBuilder _)) fun _ => ?_
      exact .orFail_step _ fun value _ => checks value

theorem keepsContext_addEdge (pending : PendingPhi)
    (edge : EdgeSource × String) :
    Does KeepsContext [] (addEdge pending edge) := by
  refine .step (fun _ _ => rfl) fun state => ?_
  split
  · exact .pure ()
  · next block _ =>
      refine .step (keepsContext_edgeValue pending edge.1 block)
        fun outcome => ?_
      split
      · exact .step (.pure _) fun value => keepsContext_onBuilder _
      · refine .step (looks_report _ _).keepsContext fun _ => ?_
        exact .step (keepsContext_onBuilder _) fun value =>
          keepsContext_onBuilder _

end Contexts

/-! ## Edges -/

namespace FunctionContext

variable {context : FunctionContext} {name owner : String} {slot : Value}

/-- The type of what is read. -/
def Source.type? (table : TypeTable) : Source → Option TypeId
  | .slot _ slot => table.pointee? slot.type
  | .value held => some held.type

/-- A value was read ahead of the end of a block.  Nothing is loaded where the
type has no values. -/
def Source.ReadAtEnd (module later : Module) (block : BlockId)
    (type : TypeId) (value : Value) : Source → Prop
  | .slot _ slot => (phiType module type).isFirstClass = true →
      module.LoadedAtEnd later block (phiType module type) slot.operand
        value.operand
  | .value held => value = held ∧ later = module

/-- A slot that a name is resolved to is there. -/
theorem slot?_of_resolution?
    (resolved : context.resolution? name = some (.slot owner slot)) :
    context.slot? owner = some slot := by
  have slots (other : String)
      (found : context.slotSource? other = some (.slot owner slot)) :
      context.slot? owner = some slot := by
    obtain ⟨held, isSlot, same⟩ := Option.map_eq_some_iff.mp found
    cases same
    exact isSlot
  have values (other : String) :
      context.valueSource? other ≠ some (.slot owner slot) := by
    intro found
    obtain ⟨held, -, same⟩ := Option.map_eq_some_iff.mp found
    cases same
  have aliased (initial : String)
      (found : context.aliasedSource? initial = some (.slot owner slot)) :
      context.slot? owner = some slot := by
    obtain ⟨target, -, found⟩ := Option.bind_eq_some_iff.mp found
    rcases Option.or_eq_some_iff.mp found with found | ⟨-, found⟩
    · exact slots target found
    · exact absurd found (values target)
  rcases Option.or_eq_some_iff.mp resolved with found | ⟨-, found⟩
  · exact slots name found
  rcases Option.or_eq_some_iff.mp found with found | ⟨-, found⟩
  · exact aliased name found
  rcases Option.or_eq_some_iff.mp found with found | ⟨-, found⟩
  · obtain ⟨base, -, found⟩ := Option.bind_eq_some_iff.mp found
    exact aliased base found
  · exact absurd found (values name)

end FunctionContext

open FunctionContext (Source)

variable {scene : Scene} {state : EmitState} {name label : String}
  {block : BlockId} {type : TypeId} {source : Source} {pending : PendingPhi}

/-- A name is read as it is resolved, and the cursor goes back. -/
theorem Completing.valueAt_of_resolution (completing : Completing scene state)
    (inside : block.function = state.builder.function)
    (known : (state.builder.module.block? block).isSome = true)
    (resolved : state.context.resolution? name = some source)
    (typed : source.type? state.table = some type) :
    ∃ value builder, valueAt name block scene.environment state =
        (some value, { state with builder }) ∧
      value.type = type ∧ source.ReadAtEnd state.builder.module builder.module
        block type value := by
  let moved : EmitState :=
    { state with builder := state.builder.aheadOf block }
  have resolvedThere : moved.context.resolution? name = some source := resolved
  -- the value is read there, whatever it is read from
  have reads (found : (source.read scene.environment moved).1 ≠ none) :
      valueAt name block scene.environment state =
        let read := source.read scene.environment moved
        (read.1, { read.2 with
          builder := read.2.builder.moved state.builder.point }) := by
    rw [← (finds_getValue name).2 source resolvedThere found]
    exact completing.valueAt_apply name block
  cases source with
  | value held =>
      cases typed
      exact ⟨held, moved.builder.moved state.builder.point,
        reads (Option.some_ne_none held), rfl, rfl, rfl⟩
  | slot owner slot =>
      have ready := (completing.ready_aheadOf inside known).builder
      have points : Builder.PointsTo type moved.builder slot :=
        ⟨completing.sound.context.slot
          (FunctionContext.slot?_of_resolution? resolved), typed⟩
      have ended : moved.builder.isTerminatedBlock block = true := by
        rw [Builder.isTerminatedBlock_eq]
        exact completing.finished block known
      obtain ⟨value, found⟩ := Option.isSome_iff_exists.mp
        (Builder.isSome_load owner points.2 points.address)
      have read := reads fun none => by cases found.symm.trans none
      have loads : (Source.slot owner slot).read scene.environment moved =
          onBuilder (Builder.load slot owner) scene.environment moved := rfl
      obtain ⟨pointee, points', as⟩ :=
        (Builder.builds_loaded ready slot owner).good value found
      cases points.2.symm.trans points'
      refine ⟨value, (Builder.load slot owner moved.builder).2.moved
        state.builder.point, ?_, as.gives.2, fun firstClass => ?_⟩
      · rw [read, loads]
        exact Prod.ext found rfl
      · obtain ⟨other, same, -, loaded⟩ := Builder.loadedAtEnd_load ready rfl
          ended points firstClass owner
        cases found.symm.trans same
        exact loaded

/-- The value of the edge is added to the phi. -/
theorem Completing.addEdge_of_resolution (completing : Completing scene state)
    (found : state.builder.findBlock? label = some block)
    (resolved : state.context.resolution? name = some source)
    (typed : source.type? state.table = some pending.type) :
    ∃ value builder, addEdge pending (.named name, label) scene.environment
        state = ((), { state with builder :=
          (Builder.addIncoming pending.phi value block builder).2 }) ∧
      source.ReadAtEnd state.builder.module builder.module block pending.type
        value := by
  obtain ⟨inside, known⟩ := mem_of_findBlock? found
  obtain ⟨value, builder, read, type, reads⟩ :=
    completing.valueAt_of_resolution inside known resolved typed
  refine ⟨value, builder, ?_, reads⟩
  rw [addEdge_of_found found]
  have checked : (edgeValue pending (.named name) block).run
      scene.environment state = (.ok value, { state with builder }) := by
    have run : (edgeValue pending (.named name) block).run scene.environment
        state =
        (do
          let value ← orFail (.unresolved name)
            (valueAt name block scene.environment state).1
          expectType s!"phi `{pending.destination}`" pending.type value.type
          pure value : Handler Value).run scene.environment
            (valueAt name block scene.environment state).2 := rfl
    have passes : expectType s!"phi `{pending.destination}`" pending.type
        value.type = pure () := if_pos type
    rw [run, read]
    show (do
      expectType s!"phi `{pending.destination}`" pending.type value.type
      pure value : Handler Value).run scene.environment
        { state with builder } = _
    rw [passes]
    rfl
  unfold knownEdgeValue
  rw [reader_bind_apply, reader_bind_apply, checked]
  rfl

/-! ## All edges of a body -/

/-- The edges of phis, in the order in which they are added. -/
def pendingEdges (phis : List PendingPhi) :
    List (PendingPhi × EdgeSource × String) :=
  phis.flatMap fun phi => phi.incoming.map fun edge => (phi, edge)

/-- Adds edges one after the other. -/
def addEdges (edges : List (PendingPhi × EdgeSource × String)) :
    Emission Unit :=
  edges.forM fun edge => addEdge edge.1 edge.2

theorem addEdges_append_cons (before after :
      List (PendingPhi × EdgeSource × String))
    (edge : PendingPhi × EdgeSource × String) (environment : Environment)
    (state : EmitState) :
    addEdges (before ++ edge :: after) environment state =
      addEdges after environment (addEdge edge.1 edge.2 environment
        (addEdges before environment state).2).2 := by
  unfold addEdges
  simp only [List.forM_eq_forM, List.forM_append, List.forM_cons,
    reader_bind_apply]

theorem completePhis_apply (environment : Environment) (state : EmitState) :
    completePhis environment state =
      addEdges (pendingEdges state.pendingPhis) environment
        { state with pendingPhis := [] } := by
  have edges (phis : List PendingPhi) :
      phis.forM (fun phi => phi.incoming.forM (addEdge phi)) =
        addEdges (pendingEdges phis) := by
    unfold addEdges
    induction phis with
    | nil => rfl
    | cons phi phis ih =>
        simp only [List.forM_eq_forM] at ih ⊢
        rw [pendingEdges, List.flatMap_cons, List.forM_cons, List.forM_append,
          List.forM_map, ih]
        rfl
  rw [← edges]
  rfl

/-- Where the edges up to one are added, everything is there to add it. -/
theorem completing_addEdges (completing : Completing scene state)
    (edges : List (PendingPhi × EdgeSource × String))
    (known : ∀ edge ∈ edges, edge.1.Known state.builder.module ∧
      edge.2 ∈ edge.1.incoming) :
    let later := (addEdges edges scene.environment state).2
    Completing scene later ∧ state.builder.module.Steady later.builder.module ∧
      later.context = state.context := by
  induction edges generalizing state with
  | nil => exact ⟨completing, Module.Steady.refl _, rfl⟩
  | cons edge edges ih =>
      rw [List.forall_mem_cons] at known
      obtain ⟨new, fills, -⟩ := fills_addEdge completing known.1.1 known.1.2
      have closed := completing.placed.sound.types
      obtain ⟨final, steady, context⟩ := ih fills.completing
        fun other member => ⟨(known.2 other member).1.of_steady closed
          fills.steady, (known.2 other member).2⟩
      have kept : _ = state.context := keepsContext_addEdge edge.1 edge.2
        scene.environment state
      exact ⟨final, fills.steady.trans steady, context.trans kept⟩

/-- The rest of a body, with the return that may be missing. -/
def emitRest (rest : List Form) : Emission Unit := do
  emitSequence emitForm rest
  if !(← isTerminated) then buildDefaultReturn (← returnType)

theorem uses_emitRest (rest : List Form) :
    Does EmitState.Uses (rest.flatMap formUses) (emitRest rest) := by
  refine .last (keeps_emitSequence keeps_emitForm rest :
    Does (EmitState.Keeps []) _ _).onlyNames fun _ => ?_
  refine .step does_isTerminated.names fun terminated => ?_
  refine .ite (.step does_returnType.names fun type => ?_) (.pure ())
  exact (does_buildDefaultReturn type).names

theorem Completing.findBlock?_of_steady {later : EmitState}
    (completing : Completing scene later)
    (steady : state.builder.module.Steady later.builder.module)
    (same : later.builder.function = state.builder.function)
    (found : state.builder.findBlock? label = some block) :
    later.builder.findBlock? label = some block := by
  obtain ⟨inside, known⟩ := mem_of_findBlock? found
  have name : state.builder.module.blockName block = label := by
    obtain ⟨index, first, rfl⟩ := Option.map_eq_some_iff.mp found
    obtain ⟨there, named, -⟩ := List.findIdx?_eq_some_iff_getElem.mp first
    rw [Module.blockName, Module.block?_eq, List.getElem?_eq_getElem there]
    exact of_decide_eq_true named
  have unique := findBlock?_blockName completing.placed.sound
    (steady.known known)
  rw [steady.blockName known, name, inside, ← same] at unique
  exact unique

/-- Phis read the names on their edges as they are at the end of the body.

A variable that has its slot at the top of a body, and whose name is not used
from there on, is what its name stands for then.  In the end, when its turn
comes, each edge from a block that is there is read from what its name stands
for: it is loaded from the slot right ahead of what ends the block, or is the
value of a name that has no slot. -/
theorem phis_read_names_at_end {origin ended : EmitState} {rest : List Form}
    (writing : Writing scene origin [] (fun _ => True) state)
    (within : state.context.WithinDepth)
    (emitted : emitRest rest scene.environment state = ((), ended)) :
    (∀ name slot, state.context.slot? name = some slot →
      (∀ use ∈ rest.flatMap formUses, use.name ≠ name) →
      ended.context.resolution? name = some (.slot name slot)) ∧
    ∀ before pending name label after block source,
      pendingEdges ended.pendingPhis =
        before ++ (pending, .named name, label) :: after →
      ended.builder.findBlock? label = some block →
      ended.context.resolution? name = some source →
      source.type? ended.table = some pending.type →
      ∃ middle value builder,
        (addEdges before scene.environment
          { ended with pendingPhis := [] }).2 = middle ∧
        source.ReadAtEnd middle.builder.module builder.module block
          pending.type value ∧
        completePhis scene.environment ended =
          addEdges after scene.environment
            { middle with builder :=
              (Builder.addIncoming pending.phi value block builder).2 } := by
  have leaving : Leaving scene origin [] (fun _ => True) ended := by
    have leaves := proceeds_emitInstructions rest state writing
    rw [show (do
      emitSequence emitForm rest
      if !(← isTerminated) then buildDefaultReturn (← returnType) :
      Emission Unit) = emitRest rest from rfl, emitted] at leaves
    exact leaves
  constructor
  · intro name slot slotted unused
    obtain ⟨used, fits, touches⟩ := uses_emitRest rest scene.environment state
    rw [emitted] at touches
    have kept : ended.context.slot? name = some slot := by
      rw [FunctionContext.slot?_eq, touches.stack_eq within fun use member =>
        unused use (fits.subset member), ← FunctionContext.slot?_eq, slotted]
    rw [FunctionContext.resolution?, FunctionContext.slotSource?, kept]
    rfl
  · intro before pending name label after block source split found resolved
      typed
    obtain ⟨sound, placed, inside, atEnd, -, -⟩ := leaving.stage
    have completing : Completing scene { ended with pendingPhis := [] } :=
      ⟨sound.bare, placed, inside, atEnd, leaving.finished⟩
    have known : ∀ edge ∈ before, edge.1.Known ended.builder.module ∧
        edge.2 ∈ edge.1.incoming := by
      intro edge member
      have pends : edge ∈ pendingEdges ended.pendingPhis := by
        rw [split]
        exact List.mem_append_left _ member
      obtain ⟨phi, isPending, isEdge⟩ := List.mem_flatMap.mp pends
      obtain ⟨own, isOwn, rfl⟩ := List.mem_map.mp isEdge
      exact ⟨sound.pending phi isPending, isOwn⟩
    obtain ⟨there, steady, context⟩ :=
      completing_addEdges completing before known
    rw [completePhis_apply, split, addEdges_append_cons]
    generalize (addEdges before scene.environment
      { ended with pendingPhis := [] }).2 = middle at *
    have foundThere : middle.builder.findBlock? label = some block :=
      there.findBlock?_of_steady steady (there.inside.trans inside.symm) found
    have resolvedThere : middle.context.resolution? name = some source := by
      rw [context]
      exact resolved
    have typedThere : source.type? middle.table = some pending.type := by
      cases source with
      | value held => exact typed
      | slot owner slot =>
          have has := (sound.context.slot
            (FunctionContext.slot?_of_resolution? resolved)).has
          exact (has.pointee_eq steady.types).trans typed
    obtain ⟨value, builder, adds, reads⟩ :=
      there.addEdge_of_resolution foundThere resolvedThere typedThere
    refine ⟨middle, value, builder, rfl, reads, ?_⟩
    rw [adds]

/-- A body that has given its variable a value. -/
def slottedWord : EmitState :=
  ((emitConstant [Form.symbol "const", Form.symbol "%x", Form.symbol "i32",
    .atom .empty (.int 5)]).run wordScene.environment mutableWord).2

/-- `(phi %r i32 [(%x entry)])` -/
def wordPhi : Form :=
  Form.list [Form.symbol "phi", Form.symbol "%r", Form.symbol "i32",
    Form.vector [Form.list [Form.symbol "%x", Form.symbol "entry"]]]

theorem phis_read_names_at_end_wordPhi :
    let ended := (emitRest [wordPhi] wordScene.environment slottedWord).2
    ∃ slot phi value builder, slottedWord.context.slot? "x" = some slot ∧
      ended.builder.module.LoadedAtEnd builder.module ⟨0, 0⟩ (.int 32)
        slot.operand value.operand ∧
      completePhis wordScene.environment ended = ((), { ended with
        builder := (Builder.addIncoming phi value ⟨0, 0⟩ builder).2
        pendingPhis := [] }) := by
  intro ended
  have writing : Writing wordScene (.opening wordModule 0) []
      (fun _ => True) slottedWord := by
    have quiet := isQuiet_emitConstant [Form.symbol "const", Form.symbol "%x",
      Form.symbol "i32", .atom .empty (.int 5)] wordScene
    exact (Proceeds.quiet quiet (fun _ _ => trivial) _
      writing_mutableWord).imp fun _ => trivial
  have within : slottedWord.context.WithinDepth :=
    ((tries_emitConstant _).names wordScene.environment
      mutableWord).withinDepth fun _ => List.forall_mem_nil _
  obtain ⟨keeps, reads⟩ := phis_read_names_at_end writing within
    (show emitRest [wordPhi] wordScene.environment slottedWord = ((), ended)
      from rfl)
  obtain ⟨slot, slotted⟩ := Option.isSome_iff_exists.mp
    (show (slottedWord.context.slot? "x").isSome = true by decide +kernel)
  have resolved := keeps "x" slot slotted (by decide +kernel)
  have edges : (pendingEdges ended.pendingPhis).map (fun edge =>
      (edge.1.type, edge.2.1 matches .named "x", edge.2.2)) =
      [(⟨0⟩, true, "entry")] := by decide +kernel
  obtain ⟨pending, only, type⟩ : ∃ pending, pendingEdges ended.pendingPhis =
      [(pending, .named "x", "entry")] ∧ pending.type = ⟨0⟩ := by
    obtain ⟨⟨pending, source, label⟩, only, same⟩ :=
      List.map_eq_singleton_iff.mp edges
    simp only [Prod.mk.injEq] at same
    obtain ⟨type, named, rfl⟩ := same
    split at named
    · exact ⟨pending, only, type⟩
    · cases named
  have typed : (Source.slot "x" slot).type? ended.table =
      some pending.type := by
    have points : ((slottedWord.context.slot? "x").map fun slot =>
        ended.table.pointee? slot.type) = some (some ⟨0⟩) := by
      decide +kernel
    rw [slotted] at points
    rw [type]
    exact Option.some.inj points
  obtain ⟨middle, value, builder, rfl, read, completes⟩ := reads [] pending
    "x" "entry" [] ⟨0, 0⟩ _ only (by decide +kernel) resolved typed
  have word : phiType ended.builder.module pending.type = .int 32 := by
    have kind : ended.builder.module.types.kind ⟨0⟩ = .int 32 := by
      decide +kernel
    rw [type, phiType, loweringLevels, lowered, kind]
  have loaded : ended.builder.module.LoadedAtEnd builder.module ⟨0, 0⟩
      (phiType ended.builder.module pending.type) slot.operand
      value.operand := read (congrArg IrType.isFirstClass word)
  rw [word] at loaded
  exact ⟨slot, pending.phi, value, builder, slotted, loaded, completes⟩

/-- A function with a phi in a block that has a variable of its own, under
the name of a variable around it. -/
def shadowedPhi : Form :=
  Form.list [Form.symbol "module",
    Form.keywordCall "fn" [("name", Form.symbol "f"),
      ("ret", Form.symbol "i32"),
      ("params", Form.vector [Form.list [Form.symbol "param",
        Form.symbol "i1", Form.symbol "%b"]]),
      ("body", Form.vector [
        Form.list [Form.symbol "as", Form.symbol "%x", Form.symbol "i32",
          .atom .empty (.int 1)],
        Form.list [Form.symbol "block", Form.vector [
          Form.list [Form.symbol "as", Form.symbol "%x", Form.symbol "i32",
            .atom .empty (.int 2)],
          Form.list [Form.symbol "if", Form.symbol "%b", Form.vector [],
            Form.vector []],
          Form.list [Form.symbol "phi", Form.symbol "%r", Form.symbol "i32",
            Form.vector [
              Form.list [Form.symbol "%x", Form.symbol "if.then.0"],
              Form.list [Form.symbol "%x", Form.symbol "if.else.0"]]]]],
        Form.list [Form.symbol "ret", Form.symbol "i32",
          Form.symbol "%r"]])]]

/-- The edges are read from the variable around the block, not from the one
that the name stands for where the phi is. -/
theorem shadowedPhi_reads_other_variable :
    let emitted := emitted {} shadowedPhi
    emitted.error = none ∧ emitted.state.problems.isEmpty = true ∧
      emitted.state.module.lines =
        ["; ModuleID = 'edn'", "", "define i32 @f(i1 %b) \x7b", "entry:",
          "  %x.slot = alloca i32", "  %x.slot1 = alloca i32",
          "  store i32 1, ptr %x.slot", "  %x = load i32, ptr %x.slot",
          "  store i32 2, ptr %x.slot1", "  %x2 = load i32, ptr %x.slot1",
          "  br i1 %b, label %if.then.0, label %if.else.0", "",
          "if.then.0:", "  %x3 = load i32, ptr %x.slot",
          "  br label %if.end.0", "", "if.else.0:",
          "  %x4 = load i32, ptr %x.slot", "  br label %if.end.0", "",
          "if.end.0:",
          "  %r = phi i32 [ %x3, %if.then.0 ], [ %x4, %if.else.0 ]",
          "  ret i32 %r", "\x7d"] := by
  intro emitted
  refine ⟨?_, ?_, ?_⟩ <;> decide +kernel

end FormCompiler
