import FormCompiler.Proofs.MatchForms

/-!
# Phis get their edges

When the whole body of a function is emitted, the edges of its phis are added.
A name on an edge is read at the end of the block it comes from, ahead of the
terminator, so control flow stays as it is.  Every edge is added to the phi it
was made for, and so the phi that a match ends with gets one edge for each
block that leads there.
-/

namespace FormCompiler

open Ir

namespace Ir.Module

variable {module later last : Module} {id source target : BlockId}

/-! ## Steady control flow -/

/-- Control flow stays, whatever is put into blocks ahead of their ends. -/
structure Steady (module later : Module) : Prop extends
    module.Extends later where
  registers : ∀ id, (module.function id).registerCount ≤
    (later.function id).registerCount
  blocks : ∀ id block, module.block? id = some block →
    ∃ laterBlock, later.block? id = some laterBlock ∧
      laterBlock.name = block.name ∧
      laterBlock.terminator? = block.terminator?
  fresh : ∀ id laterBlock, module.block? id = none →
    later.block? id = some laterBlock →
      ∃ ending, laterBlock.terminator? = some ending ∧ ending.targets = []

theorem Quiet.steady (quiet : module.Quiet later) : module.Steady later := by
  refine ⟨quiet.toExtends, quiet.registers, ?_, quiet.fresh⟩
  intro id block found
  obtain ⟨laterBlock, laterFound, keeps⟩ := quiet.blocks id block found
  exact ⟨laterBlock, laterFound, keeps.name, keeps.terminator⟩

namespace Steady

theorem refl (module : Module) : module.Steady module :=
  (Quiet.refl module).steady

theorem trans (first : module.Steady later) (second : later.Steady last) :
    module.Steady last := by
  refine ⟨first.toExtends.trans second.toExtends,
    fun id => (first.registers id).trans (second.registers id), ?_, ?_⟩
  · intro id block found
    obtain ⟨laterBlock, laterFound, name, ends⟩ := first.blocks id block found
    obtain ⟨lastBlock, lastFound, laterName, laterEnds⟩ :=
      second.blocks id laterBlock laterFound
    exact ⟨lastBlock, lastFound, laterName.trans name, laterEnds.trans ends⟩
  · intro id lastBlock missing found
    cases laterFound : later.block? id with
    | none => exact second.fresh id lastBlock laterFound found
    | some laterBlock =>
        obtain ⟨same, sameFound, -, ends⟩ :=
          second.blocks id laterBlock laterFound
        cases found.symm.trans sameFound
        rw [ends]
        exact first.fresh id laterBlock missing laterFound

theorem known (steady : module.Steady later)
    (known : (module.block? id).isSome = true) :
    (later.block? id).isSome = true := by
  obtain ⟨block, found⟩ := Option.isSome_iff_exists.mp known
  obtain ⟨laterBlock, laterFound, -⟩ := steady.blocks id block found
  rw [laterFound]
  rfl

theorem terminator? (steady : module.Steady later)
    (known : (module.block? id).isSome = true) :
    later.terminator? id = module.terminator? id := by
  obtain ⟨block, found⟩ := Option.isSome_iff_exists.mp known
  obtain ⟨laterBlock, laterFound, -, ends⟩ := steady.blocks id block found
  rw [Module.terminator?, Module.terminator?, found, laterFound,
    Option.bind_some, Option.bind_some, ends]

theorem blockName (steady : module.Steady later)
    (known : (module.block? id).isSome = true) :
    later.blockName id = module.blockName id := by
  obtain ⟨block, found⟩ := Option.isSome_iff_exists.mp known
  obtain ⟨laterBlock, laterFound, name, -⟩ := steady.blocks id block found
  simp only [Module.blockName, found, laterFound, Option.map_some,
    Option.getD_some, name]

theorem leads_iff (steady : module.Steady later) :
    later.Leads source target ↔ module.Leads source target := by
  constructor
  · rintro ⟨ending, ends, member⟩
    cases found : module.block? source with
    | some block =>
        have known : (module.block? source).isSome = true := by
          rw [found]
          rfl
        exact ⟨ending, (steady.terminator? known).symm.trans ends, member⟩
    | none =>
        obtain ⟨block, laterFound, ends⟩ := Option.bind_eq_some_iff.mp ends
        obtain ⟨other, otherEnds, nowhere⟩ :=
          steady.fresh source block found laterFound
        cases ends.symm.trans otherEnds
        rw [nowhere] at member
        cases member
  · intro leads
    obtain ⟨ending, ends, member⟩ := leads
    have known := Leads.known ⟨ending, ends, member⟩
    exact ⟨ending, (steady.terminator? known).trans ends, member⟩

end Steady

/-- Every block has an end. -/
def Finished (module : Module) : Prop :=
  ∀ id, (module.block? id).isSome = true →
    (module.terminator? id).isSome = true

theorem Finished.of_steady (finished : module.Finished)
    (steady : module.Steady later) : later.Finished := by
  intro id known
  cases found : module.block? id with
  | some block =>
      have earlier : (module.block? id).isSome = true := by
        rw [found]
        rfl
      rw [steady.terminator? earlier]
      exact finished id earlier
  | none =>
      obtain ⟨block, laterFound⟩ := Option.isSome_iff_exists.mp known
      obtain ⟨ending, ends, -⟩ := steady.fresh id block found laterFound
      rw [Module.terminator?, laterFound, Option.bind_some, ends]
      rfl

/-! ## Changing a phi -/

variable {register : Register} {change : Operation → Operation}

theorem Sound.block?_modifyOperation (sound : module.Sound)
    (register : Register) (change : Operation → Operation) (id : BlockId) :
    (modifyOperation register change module).2.block? id =
      (module.block? id).map fun block => block.rephi register change := by
  rw [block?_eq, block?_eq]
  unfold modifyOperation
  rw [function_modifyFunction]
  split
  · exact List.getElem?_map
  · next elsewhere =>
      -- the registers of another function are not this one
      cases found : (module.function id.function).blocks[id.index]? with
      | none => rfl
      | some block =>
          have inside : id.function < module.functions.length :=
            lt_of_block? found
          have same : ∀ instruction ∈ block.instructions,
              instruction.rephi register change = instruction := by
            intro instruction member
            have own := ((sound.bodies id.function).registers block
              (List.mem_of_getElem? found) instruction member).1
            unfold Instruction.rephi
            split
            · next fills =>
                rw [fills] at own
                exact absurd ⟨own.symm, own ▸ inside⟩ elsewhere
            · rfl
          have unchanged : block.rephi register change = block := by
            unfold Block.rephi
            rw [List.map_congr_left same, List.map_id']
          rw [Option.map_some, unchanged]

theorem Sound.modifyOperation (sound : module.Sound)
    (changes : ChangesPhis change) (register : Register) :
    (modifyOperation register change module).2.Sound ∧
      module.Steady (modifyOperation register change module).2 := by
  let changed (function : Function) : Function :=
    { function with
      blocks := function.blocks.map fun block =>
        block.rephi register change }
  have body : (changed (module.function register.function)).Sound
      register.function :=
    (sound.bodies register.function).rephi rfl rfl changes rfl rfl rfl rfl
  obtain ⟨laterSound, extends_⟩ := sound.changeFunction register.function
    changed ⟨rfl, rfl, rfl, rfl⟩ body
  refine ⟨laterSound, extends_, ?_, ?_, ?_⟩
  · intro id
    unfold Module.modifyOperation
    rw [function_modifyFunction]
    split <;> exact Nat.le_refl _
  · intro id block found
    refine ⟨block.rephi register change, ?_, rfl, ?_⟩
    · rw [sound.block?_modifyOperation, found]
      rfl
    · exact (((sound.bodies id.function).straight block
        (List.mem_of_getElem? found)).rephi changes).2
  · intro id laterBlock missing found
    rw [sound.block?_modifyOperation, missing] at found
    cases found

/-- A change of phis does not touch code without phis. -/
theorem worksIn_modifyOperation (changes : ChangesPhis change)
    (register : Register) (home : FunctionId) (module : Module) :
    module.WorksIn home (Module.modifyOperation register change module).2 := by
  intro id _ _ _
  unfold Module.modifyOperation Leaves
  rw [function_modifyFunction]
  split
  · refine ⟨List.length_map _, fun index block found noPhis => ?_⟩
    have same : block.instructions.map
        (Instruction.rephi register change) = block.instructions :=
      (List.map_congr_left fun instruction inside =>
        Instruction.rephi_of_not_isPhi changes
          (noPhis instruction inside)).trans (List.map_id _)
    rw [List.getElem?_map, found]
    exact congrArg (fun code => some (Block.mk block.name code)) same
  · exact ⟨rfl, fun _ _ found _ => found⟩

end Ir.Module

variable {module : Module} {block : BlockId} {register : Register}
  {irType : IrType} {edges : List (Operand × BlockId)}

/-- A change of another register leaves the phi that a block starts with. -/
theorem StartsWith.other {change : Operation → Operation}
    {changed : Register}
    (starts : StartsWith module block register irType edges)
    (sound : module.Sound) (different : register ≠ changed) :
    StartsWith (Module.modifyOperation changed change module).2 block
      register irType edges := by
  obtain ⟨inner, phi, found, leads, rfl, operation⟩ := starts
  refine ⟨inner.rephi changed change, phi, ?_, ?_, rfl, operation⟩
  · rw [sound.block?_modifyOperation, found]
    rfl
  · have same : phi.rephi changed change = phi := if_neg different
    obtain ⟨first, isPhi⟩ := Option.filter_eq_some_iff.mp leads
    refine Option.filter_eq_some_iff.mpr ⟨?_, isPhi⟩
    rw [Block.rephi, List.head?_map, first, Option.map_some, same]

/-- Adds an edge to an operation, if it is a phi. -/
def withEdge (edge : Operand × BlockId) : Operation → Operation
  | .phi type edges => .phi type (edges ++ [edge])
  | operation => operation

theorem changesPhis_withEdge (edge : Operand × BlockId) :
    ChangesPhis (withEdge edge) := by
  constructor
  · intro operation notPhi
    cases operation <;> simp_all [withEdge, Operation.isPhi]
  · intro operation isPhi
    cases operation <;> simp_all [withEdge, Operation.isPhi]

/-- The phi that a block starts with gets an edge. -/
theorem StartsWith.extend
    (starts : StartsWith module block register irType edges)
    (sound : module.Sound) (edge : Operand × BlockId) :
    StartsWith (Module.modifyOperation register (withEdge edge) module).2
      block register irType (edges ++ [edge]) := by
  obtain ⟨inner, phi, found, leads, rfl, operation⟩ := starts
  have changed : phi.rephi phi.register (withEdge edge) =
      { phi with operation := .phi irType (edges ++ [edge]) } := by
    rw [Instruction.rephi, if_pos rfl, operation]
    rfl
  refine ⟨inner.rephi phi.register (withEdge edge),
    { phi with operation := .phi irType (edges ++ [edge]) }, ?_, ?_, rfl,
    rfl⟩
  · rw [sound.block?_modifyOperation, found]
    rfl
  · obtain ⟨first, -⟩ := Option.filter_eq_some_iff.mp leads
    refine Option.filter_eq_some_iff.mpr ⟨?_, ?_⟩
    · rw [Block.rephi, List.head?_map, first, Option.map_some, changed]
    · rfl

/-! ## Looking up names -/

section Heedless

variable {Result Other : Type}

/-- An emission looks at neither pending phis nor the ends of matches. -/
def Heedless (emission : Emission Result) : Prop :=
  ∀ environment state pendingPhis matchEnds,
    emission environment { state with pendingPhis, matchEnds } =
      ((emission environment state).1,
        { (emission environment state).2 with pendingPhis, matchEnds })

theorem heedless_pure (result : Result) :
    Heedless (pure result : Emission Result) :=
  fun _ _ _ _ => rfl

theorem heedless_onBuilder (operation : Build Result) :
    Heedless (onBuilder operation) :=
  fun _ _ _ _ => rfl

theorem Heedless.bind {first : Emission Result}
    {next : Result → Emission Other} (heedless : Heedless first)
    (rest : ∀ result, Heedless (next result)) : Heedless (first >>= next) := by
  intro environment state pendingPhis matchEnds
  rw [reader_bind_apply, reader_bind_apply, heedless, rest]

theorem Heedless.context {next : FunctionContext → Emission Result}
    (rest : ∀ seen, Heedless (next seen)) :
    Heedless (FormCompiler.context >>= next) :=
  .bind (fun _ _ _ _ => rfl) rest

theorem Heedless.orElseFind {first second : Emission (Option Result)}
    (heedless : Heedless first) (rest : Heedless second) :
    Heedless (orElseFind first second) := by
  refine .bind heedless fun found => ?_
  cases found with
  | some result => exact heedless_pure _
  | none => exact rest

theorem heedless_loadSlot (name : String) : Heedless (loadSlot name) := by
  refine .context fun seen => ?_
  split
  · exact heedless_onBuilder _
  · exact heedless_pure _

theorem heedless_boundValue (name : String) : Heedless (boundValue name) :=
  .context fun _ => heedless_pure _

theorem heedless_readAliased (name : String) :
    Heedless (readAliased name) := by
  refine .context fun seen => ?_
  split
  · exact .orElseFind (heedless_loadSlot _) (heedless_boundValue _)
  · exact heedless_pure _

theorem heedless_getValue (name : String) : Heedless (getValue name) := by
  refine .orElseFind (heedless_loadSlot name) ?_
  refine .orElseFind (heedless_readAliased name) ?_
  refine .orElseFind ?_ (heedless_boundValue name)
  split
  · exact heedless_readAliased _
  · exact heedless_pure _

end Heedless

/-! ## Edges -/

variable {scene : Scene} {state later last : EmitState}

/-- A state without its phis and matches. -/
def EmitState.bare (state : EmitState) : EmitState :=
  { state with pendingPhis := [], matchEnds := [] }

theorem EmitState.Sound.bare (sound : state.Sound scene) :
    state.bare.Sound scene :=
  ⟨sound.context, sound.layouts, nofun, .nil, sound.coroutine, sound.escapes,
    nofun⟩

/-- The body of a function is emitted, except for the edges of its phis. -/
structure Completing (scene : Scene) (state : EmitState) : Prop where
  sound : state.bare.Sound scene
  placed : state.builder.Placed
  inside : state.builder.function = scene.home
  atEnd : state.builder.beforeTerminator = false
  finished : state.builder.module.Finished

/-- The next edge may be added, and no phi has changed. -/
structure Calm (scene : Scene) (state later : EmitState) : Prop where
  completing : Completing scene later
  module : state.builder.module.Quiet later.builder.module
  works : state.builder.module.WorksIn scene.home later.builder.module
  pendingPhis : later.pendingPhis = state.pendingPhis
  matchEnds : later.matchEnds = state.matchEnds

theorem Calm.refl (completing : Completing scene state) :
    Calm scene state state :=
  ⟨completing, Module.Quiet.refl _, Module.WorksIn.refl _ _, rfl, rfl⟩

theorem Calm.trans (first : Calm scene state later)
    (second : Calm scene later last) : Calm scene state last :=
  ⟨second.completing, first.module.trans second.module,
    first.works.trans first.module.toExtends second.works,
    second.pendingPhis.trans first.pendingPhis,
    second.matchEnds.trans first.matchEnds⟩

/-- The value of a name at the end of a block. -/
def valueAt (name : String) (block : BlockId) : Emission (Option Value) := do
  let point ← Builder.save
  Builder.positionBeforeTerminator block
  let value ← getValue name
  Builder.restore point
  pure value

/-- The cursor ahead of the end of a block. -/
def Ir.Builder.aheadOf (builder : Builder) (block : BlockId) : Builder :=
  { builder with
    block := some block
    beforeTerminator := builder.isTerminatedBlock block }

theorem Completing.ready_aheadOf (completing : Completing scene state)
    {block : BlockId} (inside : block.function = state.builder.function)
    (known : (state.builder.module.block? block).isSome = true) :
    ({ state.bare with builder := state.builder.aheadOf block } :
      EmitState).Ready scene := by
  have same : block = ⟨state.builder.function, block.index⟩ := by
    rw [← inside]
  refine ⟨?_, ⟨completing.placed.sound, completing.placed.inhabited,
    ⟨block.index, congrArg some same, ?_⟩, completing.placed.attached⟩, rfl⟩
  · exact completing.sound.withBuilder completing.placed.sound.types
      (Module.Develops.refl _) fun _ _ _ leads => leads
  · rw [same] at known
    exact known

/-- The cursor goes back to where it was. -/
theorem Completing.valueAt_apply (completing : Completing scene state)
    (name : String) (block : BlockId) :
    valueAt name block scene.environment state =
      let read := getValue name scene.environment
        { state with builder := state.builder.aheadOf block }
      (read.1, { read.2 with
        builder := read.2.builder.moved state.builder.point }) := by
  have run : valueAt name block scene.environment state =
      let read := getValue name scene.environment
        { state with builder := state.builder.aheadOf block }
      (read.1, { read.2 with
        builder := (Builder.restore state.builder.point
          read.2.builder).2 }) := rfl
  obtain ⟨index, cursor, -⟩ := completing.placed.cursor
  rw [run]
  unfold Builder.restore Builder.point Builder.moved
  rw [cursor, completing.atEnd]
  rfl

theorem calm_valueAt (completing : Completing scene state) (name : String)
    {block : BlockId} (inside : block.function = state.builder.function)
    (known : (state.builder.module.block? block).isSome = true) :
    Calm scene state (valueAt name block scene.environment state).2 ∧
      ∀ value ∈ (valueAt name block scene.environment state).1,
        value.Typed (valueAt name block scene.environment state).2.table := by
  have ready := completing.ready_aheadOf inside known
  obtain ⟨laterReady, quiet, typed⟩ :=
    @searches_getValue scene (fun _ => True) name _ ready trivial
  have heedless := heedless_getValue name scene.environment
    { state.bare with builder := state.builder.aheadOf block }
    state.pendingPhis state.matchEnds
  have full : ({ state with builder := state.builder.aheadOf block } :
      EmitState) =
      { ({ state.bare with builder := state.builder.aheadOf block } :
          EmitState) with
        pendingPhis := state.pendingPhis
        matchEnds := state.matchEnds } := rfl
  rw [completing.valueAt_apply, full, heedless]
  generalize getValue name scene.environment
    { state.bare with builder := state.builder.aheadOf block } = read at *
  obtain ⟨found, after⟩ := read
  obtain ⟨index, cursor, cursorKnown⟩ := completing.placed.cursor
  dsimp only at *
  have develops := quiet.builder.module.develops
  refine ⟨⟨⟨?_, ⟨laterReady.builder.sound, laterReady.builder.inhabited,
    ⟨index, cursor, develops.known cursorKnown⟩,
    quiet.builder.detached.trans completing.placed.attached⟩,
    completing.inside, completing.atEnd,
    completing.finished.of_steady quiet.builder.module.steady⟩,
    quiet.builder.module, completing.inside ▸ quiet.builder.worksIn, rfl,
    rfl⟩, typed⟩
  exact laterReady.toSound.bare.withBuilder laterReady.builder.sound.types
    (Module.Develops.refl _) fun _ _ _ leads => leads

/-- The block of a name. -/
theorem mem_of_findBlock? {function : FunctionId} {name : String}
    (found : module.findBlock? function name = some block) :
    block.function = function ∧ (module.block? block).isSome = true := by
  obtain ⟨index, first, rfl⟩ := Option.map_eq_some_iff.mp found
  refine ⟨rfl, ?_⟩
  obtain ⟨inside, -⟩ := List.findIdx?_eq_some_iff_getElem.mp first
  rw [Module.block?_eq, List.getElem?_eq_getElem inside]
  rfl

/-- Names of blocks are unique. -/
theorem findBlock?_blockName (sound : module.Sound)
    (known : (module.block? block).isSome = true) :
    module.findBlock? block.function (module.blockName block) =
      some block := by
  obtain ⟨inner, found⟩ := Option.isSome_iff_exists.mp known
  have name : module.blockName block = inner.name := by
    rw [Module.blockName, found]
    rfl
  rw [Module.block?_eq, List.getElem?_eq_some_iff] at found
  obtain ⟨inside, here⟩ := found
  rw [Module.findBlock?, name, Option.map_eq_some_iff]
  refine ⟨block.index, List.findIdx?_eq_some_iff_getElem.mpr
    ⟨inside, by simp [here], ?_⟩, rfl⟩
  intro earlier before same
  have names := (sound.bodies block.function).names
  have bounded := Nat.lt_trans before inside
  have equal : earlier = block.index := by
    have known : earlier <
        (module.function block.function).blockNames.length := by
      rw [Function.blockNames, List.length_map]
      exact bounded
    refine (List.getElem?_inj known names).mp ?_
    rw [Function.blockNames, List.getElem?_map, List.getElem?_map,
      List.getElem?_eq_getElem bounded, List.getElem?_eq_getElem inside,
      here, Option.map_some, Option.map_some, of_decide_eq_true same]
  exact Nat.ne_of_lt before equal

variable {pending : PendingPhi}

theorem calm_edgeValue (completing : Completing scene state)
    (known : pending.Known state.builder.module)
    {edge : EdgeSource × String} (member : edge ∈ pending.incoming)
    (found : state.builder.findBlock? edge.2 = some block) :
    let outcome := (edgeValue pending edge.1 block).run scene.environment state
    Calm scene state outcome.2 ∧ ∀ value, outcome.1 = .ok value →
      value.type = pending.type ∧ value.Typed outcome.2.table := by
  have checks (middle : EmitState) (calm : Calm scene state middle)
      (value : Value) (typed : value.Typed middle.table) :
      let outcome := ((do
        expectType s!"phi `{pending.destination}`" pending.type value.type
        pure value : Handler Value)).run scene.environment middle
      Calm scene state outcome.2 ∧ ∀ value, outcome.1 = .ok value →
        value.type = pending.type ∧ value.Typed outcome.2.table := by
    unfold expectType
    split
    · next same =>
        refine ⟨calm, ?_⟩
        rintro _ ⟨⟩
        exact ⟨same, typed⟩
    · exact ⟨calm, nofun⟩
  unfold edgeValue
  obtain ⟨source, name⟩ := edge
  cases source with
  | value value =>
      exact checks state (.refl completing) value
        (known.values _ member value rfl)
  | named name =>
      obtain ⟨inside, blockKnown⟩ := mem_of_findBlock? found
      obtain ⟨calm, typed⟩ := calm_valueAt completing name inside blockKnown
      have run (next : Value → Handler Value) :
          ((do
            let point ← Builder.save
            Builder.positionBeforeTerminator block
            let value ← getValue name
            Builder.restore point
            let value ← orFail (.unresolved name) value
            next value : Handler Value)).run scene.environment state =
          (orFail (.unresolved name)
            (valueAt name block scene.environment state).1 >>= next).run
            scene.environment (valueAt name block scene.environment state).2 :=
        rfl
      dsimp only
      rw [run]
      generalize valueAt name block scene.environment state = read at *
      obtain ⟨value, middle⟩ := read
      cases value with
      | none => exact ⟨calm, nofun⟩
      | some value => exact checks middle calm value (typed value rfl)

/-- Edges were added to one phi, and all other phis are as before. -/
structure Fills (scene : Scene) (state : EmitState) (pending : PendingPhi)
    (new : List (Operand × BlockId)) (later : EmitState) : Prop where
  completing : Completing scene later
  steady : state.builder.module.Steady later.builder.module
  works : state.builder.module.WorksIn scene.home later.builder.module
  pendingPhis : later.pendingPhis = state.pendingPhis
  matchEnds : later.matchEnds = state.matchEnds
  others : ∀ block register irType edges, block.index ≠ 0 →
    pending.register? ≠ some register →
    StartsWith state.builder.module block register irType edges →
      StartsWith later.builder.module block register irType edges
  own : ∀ block register irType edges, block.index ≠ 0 →
    pending.register? = some register →
    StartsWith state.builder.module block register irType edges →
      StartsWith later.builder.module block register irType (edges ++ new)
  values : ∀ edge ∈ new, ∃ value : Value, value.type = pending.type ∧
    value.Typed later.table ∧ edge.1 = value.operand

theorem Calm.fills (calm : Calm scene state later) (pending : PendingPhi) :
    Fills scene state pending [] later := by
  refine ⟨calm.completing, calm.module.steady, calm.works, calm.pendingPhis,
    calm.matchEnds, ?_, ?_, nofun⟩
  · intro block register irType edges notFirst _ starts
    exact starts.mono calm.module.develops notFirst
  · intro block register irType edges notFirst _ starts
    rw [List.append_nil]
    exact starts.mono calm.module.develops notFirst

theorem Fills.trans {new more : List (Operand × BlockId)}
    (first : Fills scene state pending new later)
    (second : Fills scene later pending more last) :
    Fills scene state pending (new ++ more) last := by
  refine ⟨second.completing, first.steady.trans second.steady,
    first.works.trans first.steady.toExtends second.works,
    second.pendingPhis.trans first.pendingPhis,
    second.matchEnds.trans first.matchEnds, ?_, ?_, ?_⟩
  · intro block register irType edges notFirst other starts
    exact second.others block register irType edges notFirst other
      (first.others block register irType edges notFirst other starts)
  · intro block register irType edges notFirst fills starts
    rw [← List.append_assoc]
    exact second.own block register irType _ notFirst fills
      (first.own block register irType edges notFirst fills starts)
  · intro edge member
    rcases List.mem_append.mp member with old | last
    · obtain ⟨value, type, typed, operand⟩ := first.values edge old
      exact ⟨value, type, typed.mono first.completing.placed.sound.types
        second.steady.types, operand⟩
    · exact second.values edge last

theorem addIncoming_apply (pending : PendingPhi) (value : Value)
    (source : BlockId) (builder : Builder) :
    Builder.addIncoming pending.phi value source builder =
      ((), match pending.register? with
        | some register =>
            { builder with
              module := (Module.modifyOperation register
                (withEdge (value.operand, source)) builder.module).2 }
        | none => builder) := by
  have change : (fun operation : Operation =>
      match operation with
      | .phi type edges => .phi type (edges ++ [(value.operand, source)])
      | operation => operation) = withEdge (value.operand, source) := by
    funext operation
    cases operation <;> rfl
  unfold Builder.addIncoming PendingPhi.register?
  rw [← change]
  cases pending.phi.content with
  | firstClass operand => cases operand <;> rfl
  | token operand => rfl
  | nothing => rfl

/-- The edge that is added has a value of the type of the phi. -/
theorem fills_addIncoming (completing : Completing scene state)
    {value : Value} (type : value.type = pending.type)
    (typed : value.Typed state.table) (source : BlockId) :
    Fills scene state pending [(value.operand, source)]
      { state with builder :=
        (Builder.addIncoming pending.phi value source state.builder).2 } := by
  have values : ∀ edge ∈ [(value.operand, source)], ∃ value : Value,
      value.type = pending.type ∧ value.Typed state.table ∧
        edge.1 = value.operand := by
    intro edge member
    cases List.mem_singleton.mp member
    exact ⟨value, type, typed, rfl⟩
  rw [addIncoming_apply]
  cases filled : pending.register? with
  | none =>
      refine ⟨completing, Module.Steady.refl _, Module.WorksIn.refl _ _, rfl,
        rfl, fun _ _ _ _ _ _ starts => starts, ?_, values⟩
      intro _ register _ _ _ fills
      rw [filled] at fills
      cases fills
  | some register =>
      have sound := completing.placed.sound
      obtain ⟨laterSound, steady⟩ := sound.modifyOperation
        (changesPhis_withEdge (value.operand, source)) register
      obtain ⟨index, cursor, known⟩ := completing.placed.cursor
      refine ⟨⟨?_, ⟨laterSound, completing.placed.inhabited,
        ⟨index, cursor, steady.known known⟩, completing.placed.attached⟩,
        completing.inside, completing.atEnd,
        completing.finished.of_steady steady⟩, steady,
        Module.worksIn_modifyOperation (changesPhis_withEdge _) register
          scene.home _, rfl, rfl, ?_, ?_, values⟩
      · have bare := completing.sound
        refine ⟨bare.context, bare.layouts, nofun, .nil, bare.coroutine, ?_,
          nofun⟩
        intro block escapes
        obtain ⟨inside, blockKnown⟩ := bare.escapes block escapes
        exact ⟨inside, steady.known blockKnown⟩
      · intro block other irType edges _ different starts
        refine starts.other sound ?_
        rintro rfl
        exact different filled
      · intro block other irType edges _ fills starts
        cases filled.symm.trans fills
        exact starts.extend sound (value.operand, source)

/-- An undefined value is the same wherever the cursor stands. -/
theorem constantUndef_apply (type : TypeId) (builder : Builder)
    (before : Bool) :
    Builder.constantUndef type { builder with beforeTerminator := before } =
      ((Builder.constantUndef type builder).1,
        { (Builder.constantUndef type builder).2 with
          beforeTerminator := before }) := by
  have lower : Builder.onModule (Module.lower type)
        { builder with beforeTerminator := before } =
      ((Builder.onModule (Module.lower type) builder).1,
        { (Builder.onModule (Module.lower type) builder).2 with
          beforeTerminator := before }) := rfl
  unfold Builder.constantUndef Builder.constant
  rw [stateM_bind_apply, stateM_bind_apply, lower]
  obtain ⟨irType, after⟩ := Builder.onModule (Module.lower type) builder
  dsimp only
  split
  · rfl
  · split <;> rfl

theorem calm_constantUndef (completing : Completing scene state)
    {type : TypeId} (has : state.table.Has type) :
    Calm scene state
        { state with
          builder := (Builder.constantUndef type state.builder).2 } ∧
      (Builder.constantUndef type state.builder).1.type = type ∧
      (Builder.constantUndef type state.builder).1.Typed
        (Builder.constantUndef type state.builder).2.module.types := by
  have placed := completing.placed
  obtain ⟨index, cursor, known⟩ := placed.cursor
  have ended : state.builder.isTerminated = true := by
    rw [Builder.isTerminated, cursor]
    dsimp only
    rw [Builder.isTerminatedBlock_eq]
    exact completing.finished _ known
  have ready : ({ state.builder with beforeTerminator := true } :
      Builder).Ready :=
    ⟨⟨placed.sound, placed.inhabited, placed.cursor, placed.attached⟩,
      ended.symm⟩
  have builds := Builder.builds_constantUndef ready has
  obtain ⟨laterReady, quiet, gives⟩ := builds
  rw [constantUndef_apply] at laterReady quiet gives
  refine ⟨⟨⟨?_, ⟨laterReady.sound, laterReady.inhabited, laterReady.cursor,
    laterReady.attached⟩, quiet.function.trans completing.inside, ?_,
    completing.finished.of_steady quiet.module.steady⟩, quiet.module,
    completing.inside ▸ quiet.worksIn, rfl, rfl⟩, gives.2, gives.1⟩
  · exact completing.sound.withBuilder placed.sound.types
      quiet.module.develops fun _ _ _ => quiet.module.leads
  · have same := congrArg (fun builder => builder.2.beforeTerminator)
      (constantUndef_apply type state.builder false)
    rw [← completing.atEnd] at same
    exact same.trans completing.atEnd

/-- Reports change nothing that phis depend on. -/
theorem Calm.report (calm : Calm scene state later) (operation : String)
    (cause : ProblemCause) :
    Calm scene state
      (FormCompiler.report operation cause scene.environment later).2 := by
  obtain ⟨sound, placed, inside, atEnd, finished⟩ := calm.completing
  exact ⟨⟨⟨sound.context, sound.layouts, nofun, .nil, sound.coroutine,
    sound.escapes, nofun⟩, placed, inside, atEnd, finished⟩, calm.module,
    calm.works, calm.pendingPhis, calm.matchEnds⟩

/-- The value of an edge, which is undefined where it cannot be found. -/
def knownEdgeValue (pending : PendingPhi) (source : EdgeSource)
    (block : BlockId) : Emission Value := do
  match ← (edgeValue pending source block).run with
  | .ok value => pure value
  | .error cause => do
      report "phi" cause
      Builder.constantUndef pending.type

/-- The value of an edge, which is undefined where none is found. -/
theorem calm_edge (completing : Completing scene state)
    (known : pending.Known state.builder.module)
    {edge : EdgeSource × String} (member : edge ∈ pending.incoming)
    (found : state.builder.findBlock? edge.2 = some block) :
    let outcome := knownEdgeValue pending edge.1 block scene.environment state
    Calm scene state outcome.2 ∧ outcome.1.type = pending.type ∧
      outcome.1.Typed outcome.2.table := by
  obtain ⟨calm, typed⟩ := calm_edgeValue completing known member found
  unfold knownEdgeValue
  dsimp only
  rw [reader_bind_apply]
  generalize (edgeValue pending edge.1 block).run scene.environment state =
    outcome at *
  obtain ⟨value, middle⟩ := outcome
  cases value with
  | ok value => exact ⟨calm, typed value rfl⟩
  | error cause =>
      have reported := calm.report "phi" cause
      have has := known.type.mono reported.module.types
      obtain ⟨undefined, type, typed⟩ :=
        calm_constantUndef reported.completing has
      exact ⟨reported.trans undefined, type, typed⟩

/-- An edge from a block that is not there is left out. -/
theorem addEdge_of_missing {edge : EdgeSource × String}
    {environment : Environment}
    (missing : state.builder.findBlock? edge.2 = none) :
    addEdge pending edge environment state = ((), state) := by
  unfold addEdge
  rw [emission_get_bind, missing]
  rfl

theorem addEdge_of_found {edge : EdgeSource × String}
    {environment : Environment}
    (found : state.builder.findBlock? edge.2 = some block) :
    addEdge pending edge environment state =
      (knownEdgeValue pending edge.1 block >>= fun value =>
        Builder.addIncoming pending.phi value block : Emission Unit)
        environment state := by
  unfold addEdge knownEdgeValue
  rw [emission_get_bind, found, bind_assoc]
  dsimp only
  rw [reader_bind_apply, reader_bind_apply]
  cases ((edgeValue pending edge.1 block).run environment state).1 <;> rfl

theorem fills_addEdge (completing : Completing scene state)
    (known : pending.Known state.builder.module)
    {edge : EdgeSource × String} (member : edge ∈ pending.incoming) :
    ∃ new, Fills scene state pending new
        (addEdge pending edge scene.environment state).2 ∧
      ∀ source, source.function = scene.home →
        (state.builder.module.block? source).isSome = true →
        state.builder.module.blockName source = edge.2 →
          new.map Prod.snd = [source] := by
  cases found : state.builder.findBlock? edge.2 with
  | none =>
      rw [addEdge_of_missing found]
      refine ⟨[], (Calm.refl completing).fills pending, ?_⟩
      intro source inside sourceKnown name
      have unique := findBlock?_blockName completing.placed.sound sourceKnown
      rw [inside, name, ← completing.inside] at unique
      cases found.symm.trans unique
  | some block =>
      obtain ⟨calm, type, typed⟩ := calm_edge completing known member found
      have fills := fills_addIncoming calm.completing type typed block
      rw [addEdge_of_found found]
      refine ⟨_, (calm.fills pending).trans fills, ?_⟩
      intro source inside sourceKnown name
      have unique := findBlock?_blockName completing.placed.sound sourceKnown
      rw [inside, name, ← completing.inside] at unique
      cases found.symm.trans unique
      rfl

theorem PendingPhi.Known.of_steady {final : Module}
    (known : pending.Known module) (closed : module.types.Closed)
    (steady : module.Steady final) : pending.Known final := by
  refine ⟨known.type.mono steady.types, ?_, ?_⟩
  · intro edge member value same
    exact (known.values edge member value same).mono closed steady.types
  · intro register fills
    exact Nat.lt_of_lt_of_le (known.register register fills)
      (steady.registers register.function)

/-- All edges of a phi are added in order. -/
theorem fills_addEdges (completing : Completing scene state)
    (known : pending.Known state.builder.module)
    {edges : List (EdgeSource × String)}
    (inside : ∀ edge ∈ edges, edge ∈ pending.incoming) :
    ∃ new, Fills scene state pending new
        (edges.forM (addEdge pending) scene.environment state).2 ∧
      ∀ sources : List BlockId,
        (∀ source ∈ sources, source.function = scene.home ∧
          (state.builder.module.block? source).isSome = true) →
        edges.map Prod.snd = sources.map state.builder.module.blockName →
          new.map Prod.snd = sources := by
  induction edges generalizing state with
  | nil =>
      refine ⟨[], (Calm.refl completing).fills pending, ?_⟩
      intro sources _ names
      exact (List.map_eq_nil_iff.mp names.symm).symm
  | cons edge edges ih =>
      rw [List.forall_mem_cons] at inside
      obtain ⟨first, fills, single⟩ :=
        fills_addEdge completing known inside.1
      obtain ⟨rest, restFills, restSources⟩ := ih fills.completing
        (known.of_steady completing.placed.sound.types fills.steady) inside.2
      refine ⟨first ++ rest, fills.trans restFills, ?_⟩
      intro sources sourcesKnown names
      cases sources with
      | nil => cases names
      | cons source sources =>
          rw [List.forall_mem_cons] at sourcesKnown
          obtain ⟨name, names⟩ := List.cons.inj names
          have laterNames : sources.map
              (addEdge pending edge scene.environment
                state).2.builder.module.blockName =
              sources.map state.builder.module.blockName :=
            List.map_congr_left fun other member =>
              fills.steady.blockName (sourcesKnown.2 other member).2
          rw [List.map_append, single source sourcesKnown.1.1
            sourcesKnown.1.2 name.symm, restSources sources ?_ ?_]
          · rfl
          · intro other member
            obtain ⟨home, otherKnown⟩ := sourcesKnown.2 other member
            exact ⟨home, fills.steady.known otherKnown⟩
          · exact names.trans laterNames.symm

/-! ## All phis -/

variable {type : TypeId} {pendingPhis : List PendingPhi}

/-- A match is joined, or one of the phis that wait for edges is its own. -/
def Joins (home : FunctionId) (module : Module)
    (pendingPhis : List PendingPhi) (block : BlockId) (type : TypeId) :
    Prop :=
  Joined module pendingPhis block type ∨ (block.function = home ∧
    ∃ pending ∈ pendingPhis, Awaits module block type pending)

theorem Covers.of_steady {final : Module} {sources : List BlockId}
    (covers : Covers module block sources) (steady : module.Steady final) :
    Covers final block sources :=
  ⟨covers.nodup, fun source => by rw [covers.mem_iff, steady.leads_iff]⟩

/-- When a phi has got its edges, each match is joined or waits for one of
the others. -/
theorem Joins.step {home : FunctionId} {new : List (Operand × BlockId)}
    (joins : Joins home state.builder.module (pending :: pendingPhis) block
      type)
    (closed : state.table.Closed) (has : state.table.Has type)
    (notFirst : block.index ≠ 0)
    (apart : ∀ other ∈ pendingPhis, pending.Apart other)
    (fills : Fills scene state pending new later)
    (own : ∀ sources : List BlockId, Covers state.builder.module block
      sources → block.function = home →
      pending.incoming.map Prod.snd =
        sources.map state.builder.module.blockName →
      new.map Prod.snd = sources) :
    Joins home later.builder.module pendingPhis block type := by
  have sameType : phiType later.builder.module type =
      phiType state.builder.module type :=
    lowered_eq closed fills.steady.types has loweringLevels
  rcases joins with joined | ⟨inside, other, member, awaits⟩
  · refine .inl fun firstClass => ?_
    rw [sameType] at firstClass ⊢
    obtain ⟨register, edges, starts, covers, typed, unclaimed⟩ :=
      joined firstClass
    rw [List.forall_mem_cons] at unclaimed
    refine ⟨register, edges, fills.others block register _ edges notFirst
      unclaimed.1 starts, covers.of_steady fills.steady, ?_, unclaimed.2⟩
    intro edge member
    obtain ⟨value, valueType, valueTyped, operand⟩ := typed edge member
    exact ⟨value, valueType, valueTyped.mono closed fills.steady.types,
      operand⟩
  · obtain ⟨register, filled, starts⟩ := awaits.starts
    obtain ⟨sources, covers, names⟩ := awaits.sources
    rcases List.mem_cons.mp member with rfl | later
    · refine .inl fun firstClass => ?_
      rw [sameType]
      have grown := fills.own block register _ [] notFirst filled starts
      refine ⟨register, new, grown, ?_, ?_, ?_⟩
      · rw [own sources covers inside names]
        exact covers.of_steady fills.steady
      · rw [← awaits.agrees]
        exact fills.values
      · intro other member same
        exact apart other member register filled same
    · refine .inr ⟨inside, other, later, awaits.agrees,
        ⟨register, filled, ?_⟩, ⟨sources, covers.of_steady fills.steady, ?_⟩,
        awaits.values⟩
      · rw [sameType]
        refine fills.others block register _ [] notFirst ?_ starts
        intro same
        exact apart other later register same filled
      · rw [names]
        apply List.map_congr_left
        intro source member
        exact (fills.steady.blockName
          ((covers.mem_iff source).mp member).known).symm

/-- Adding the edges of all phis joins every match. -/
theorem completes_pending (completing : Completing scene state)
    (known : ∀ pending ∈ pendingPhis, pending.Known state.builder.module)
    (apart : pendingPhis.Pairwise PendingPhi.Apart) :
    let final := (pendingPhis.forM (fun phi =>
      phi.incoming.forM (addEdge phi)) scene.environment state).2
    Completing scene final ∧
      state.builder.module.Steady final.builder.module ∧
      state.builder.module.WorksIn scene.home final.builder.module ∧
      final.matchEnds = state.matchEnds ∧
      ∀ block type, state.table.Has type → block.index ≠ 0 →
        Joins scene.home state.builder.module pendingPhis block type →
          Joined final.builder.module [] block type := by
  induction pendingPhis generalizing state with
  | nil =>
      refine ⟨completing, Module.Steady.refl _, Module.WorksIn.refl _ _, rfl,
        ?_⟩
      rintro block type _ _ (joined | ⟨-, _, member, -⟩)
      · exact joined
      · cases member
  | cons pending pendingPhis ih =>
      rw [List.forall_mem_cons] at known
      rw [List.pairwise_cons] at apart
      obtain ⟨new, fills, sourcesOf⟩ := fills_addEdges completing known.1
        fun _ member => member
      have closed := completing.placed.sound.types
      obtain ⟨final, steady, works, matchEnds, joined⟩ := ih fills.completing
        (fun other member =>
          (known.2 other member).of_steady closed fills.steady) apart.2
      refine ⟨final, fills.steady.trans steady,
        fills.works.trans fills.steady.toExtends works, matchEnds.trans fills.matchEnds, ?_⟩
      intro block type has notFirst joins
      refine joined block type (has.mono fills.steady.types) notFirst
        (joins.step closed has notFirst apart.1 fills ?_)
      intro sources covers inside names
      refine sourcesOf sources ?_ names
      intro source member
      have leads := (covers.mem_iff source).mp member
      exact ⟨(completing.placed.sound.leads leads).1.symm.trans inside,
        leads.known⟩

end FormCompiler
