import FormCompiler.Proofs.Guarding

/-!
# The blocks of handlers

A handler adds a block for its pad first and then the blocks that it leads to.
None of them is there before, so the pad is put into a block that nothing
branches to, and the other blocks do not become pads.
-/

namespace FormCompiler

open Ir

variable {Result Other : Type} {marks : List Landmark}


/-- An emission that adds blocks. -/
structure Places (shown : Result → List BlockId)
    (emission : Emission Result) : Prop where
  plainly : Does EmitState.Plainly [] emission
  fresh : ∀ environment state,
    ∀ block ∈ shown (emission environment state).1,
      state.builder.module.block? block = none
  shows : ∀ environment (state : EmitState), state.Guarded environment →
    ∀ block ∈ shown (emission environment state).1,
      (Landmark.opened block).Shows environment (emission environment state).2

theorem places_appendBlock (name : String) :
    Places (fun block => [block])
      (liftM (Builder.appendBlock name) : Emission BlockId) where
  plainly := does_onBuilder (Builder.computes_appendBlock name)
  fresh environment state := by
    refine List.forall_mem_singleton.mpr ?_
    exact Module.block?_appendBlock _ _ name
  shows environment state guarded := by
    refine List.forall_mem_singleton.mpr ?_
    exact ⟨rfl, Module.appendBlock_isTarget guarded.known name⟩

/-- Blocks that are added one after another. -/
theorem Places.bind {shown : Result → List BlockId}
    {shownLater : Other → List BlockId} {emission : Emission Result}
    {next : Result → Emission Other} (first : Places shown emission)
    (rest : ∀ result, Places shownLater (next result)) :
    Places (fun both => shown both.1 ++ shownLater both.2) (do
      let result ← emission
      let other ← next result
      pure (result, other)) where
  plainly := .step first.plainly fun result =>
    .step (rest result).plainly fun _ => .pure _
  fresh environment state := by
    refine List.forall_mem_append.mpr ⟨first.fresh environment state, ?_⟩
    intro block member
    -- What is new later was not there before.
    have missing := (rest _).fresh environment _ block member
    have flows := (first.plainly environment state).builder.module
    by_contra known
    have kept := flows.known (Option.isSome_iff_ne_none.mpr known)
    rw [missing] at kept
    cases kept
  shows environment state guarded := by
    have early : Does (EmitState.Keeps []) [] emission := first.plainly.keeps
    have late (result : Result) : Does (EmitState.Keeps []) [] (next result) :=
      (rest result).plainly.keeps
    have middle := (early environment state).guarded guarded
      (List.forall_mem_nil _)
    refine List.forall_mem_append.mpr ⟨fun block member => ?_,
      (rest _).shows environment _ middle⟩
    have shown : EmitState.Shows environment [.opened block]
        (emission environment state).2 :=
      List.forall_mem_singleton.mpr
        (first.shows environment state guarded block member)
    exact (late _ environment _).follows.shows shown _ List.mem_cons_self

/-- Adds a block for a pad and the other blocks of a handler, goes on to the
body and fills the block of the pad. -/
def openHandler {Blocks : Type} (name : String) (places : Emission Blocks)
    (bodyBlock : BlockId) (fill : Blocks → Build Unit) :
    Emission (BlockId × Blocks) := do
  let pad ← Builder.appendBlock name
  let blocks ← places
  onBuilder do
    Builder.branch bodyBlock
    Builder.positionAtEnd pad
    fill blocks
  pure (pad, blocks)

/-- A pad is in its own block, and what follows leads to certain blocks. -/
structure HandlerPart (personality : Personality) (targets : List BlockId)
    (pad block : BlockId) (operation : Operation) : Prop where
  opens : operation.isPad = true → block = pad ∧ operation.isCleanup = false
  allowed : operation.allowedUnder (some personality) = true
  unwinds : operation.unwindsTo = none
  leads : operation.leadsTo ⊆ targets

/-- The pad of a handler and its other blocks are what they are for. -/
theorem opens_openHandler {Blocks : Type} {places : Emission Blocks}
    {shown : Blocks → List BlockId} (placing : Places shown places)
    {fill : Blocks → Build Unit} {personality : Personality}
    {bodyBlock : BlockId} (under : .under personality ∈ marks)
    (opened : .opened bodyBlock ∈ marks)
    (draws : ∀ pad blocks, Builder.DrawingAt pad
      (HandlerPart personality (bodyBlock :: shown blocks) pad) (fill blocks))
    (pads : ∀ pad blocks, Builder.PaddingAt pad (fill blocks))
    (place : ∀ pad blocks (builder : Builder) block,
      builder.block = some pad → (fill blocks builder).2.block = some block →
        block ∈ pad :: shown blocks) (name : String) :
    Opens marks (fun both => .pad both.1 :: (shown both.2).map .opened)
      (openHandler name places bodyBlock fill) := by
  intro environment state
  have appends := places_appendBlock name
  have appended := appends.plainly environment state
  have unknown := List.forall_mem_singleton.mp
    (appends.fresh environment state)
  have padOpen (guarded : state.Guarded environment) :=
    List.forall_mem_singleton.mp (appends.shows environment state guarded)
  unfold openHandler
  rw [reader_bind_apply]
  generalize (liftM (Builder.appendBlock name) : Emission BlockId) environment
    state = outcome at appended unknown padOpen ⊢
  obtain ⟨pad, first⟩ := outcome
  have placed := placing.plainly environment first
  have apart := placing.fresh environment first
  have blocksOpen := placing.shows environment first
  rw [reader_bind_apply]
  generalize places environment first = outcome
    at placed apart blocksOpen ⊢
  obtain ⟨blocks, second⟩ := outcome
  have quiet : state.Plainly environment [] second :=
    Graded.trans appended placed
  let branched := (Builder.branch bodyBlock second.builder).2
  let moved := (Builder.positionAtEnd pad branched).2
  let last : EmitState :=
    { second with builder := (fill blocks moved).2 }
  have branches := Builder.filling_branch bodyBlock second.builder
  have drawing : second.builder.Draws
      (HandlerPart personality (bodyBlock :: shown blocks) pad)
      last.builder := by
    obtain ⟨module, function, traces⟩ := draws pad blocks moved rfl
    have moves : branched.Advances moved :=
      Builder.advances_positionAtEnd pad branched
    refine Builder.Draws.trans (branches.draws ?_)
      ⟨module, function, Trans.trans moves traces⟩
    rintro block _ - rfl
    refine ⟨?_, rfl, rfl, by simp [Operation.leadsTo]⟩
    intro isPad
    cases isPad
  obtain ⟨⟨added, drawn, each⟩, sameFunction, traces⟩ := drawing
  have builds : second.Evolves environment [] last := .of_advances traces
  have flows : state.builder.module.Flows added last.builder.module :=
    quiet.builder.module.trans drawn
  have function : last.builder.function = state.builder.function :=
    sameFunction.trans quiet.builder.function
  have shows (guarded : state.Guarded environment) : last.Shows environment
      (.pad pad :: (shown blocks).map .opened) := by
    have firstKeeps : state.Keeps [] environment [] first := appended.keeps
    have placedKeeps : first.Keeps [] environment [] second := placed.keeps
    have nothing := List.forall_mem_nil
      (fun mark : Landmark => mark.Shows environment state)
    have firstGuarded := firstKeeps.guarded guarded nothing
    obtain ⟨inside, padKnown, -⟩ := padOpen guarded
    refine List.forall_mem_cons.mpr ⟨⟨?_, ?_⟩, ?_⟩
    · exact (inside.trans appended.builder.function).trans function.symm
    · obtain ⟨_, branchFlows, -⟩ := branches.module
      exact pads pad blocks moved rfl
        (branchFlows.known (placed.builder.module.known padKnown))
    · refine List.forall_mem_map.mpr fun block member => ?_
      obtain ⟨there, isTarget⟩ := blocksOpen firstGuarded block member
      refine ⟨there.trans sameFunction.symm, drawn.isTarget isTarget ?_⟩
      -- The pad was there before the other blocks were added.
      rintro entry entryMember isPad rfl
      have same := ((each entry entryMember).opens isPad).1
      rw [← same, apart _ member] at padKnown
      cases padKnown
  refine ⟨?_, fun guarded _ => shows guarded⟩
  have keeps : state.Keeps marks environment [] last := by
    refine .of_flows quiet.uses (Graded.trans quiet.evolves builds) flows
      function quiet.loops quiet.unwindTargets ?_ ?_ ?_ ?_
    · intro entry member isPad
      rw [((each entry member).opens isPad).1]
      exact unknown
    · intro entry member
      refine Bool.eq_false_iff.mpr fun cleanup => ?_
      have isPad := Operation.isPad_of_isCleanup cleanup
      rw [((each entry member).opens isPad).2] at cleanup
      cases cleanup
    · intro guarded _ block there
      rw [← function]
      obtain ⟨padShown, opensShown⟩ := List.forall_mem_cons.mp (shows guarded)
      rcases List.mem_cons.mp (place _ _ _ _ rfl there) with rfl | member
      · exact padShown.1
      · exact (List.forall_mem_map.mp opensShown block member).1
    · intro guarded given entry member
      have part := each entry member
      have found : environment.configuration.personality = some personality :=
        given _ under
      obtain ⟨-, opensShown⟩ := List.forall_mem_cons.mp (shows guarded)
      refine ⟨found ▸ part.allowed, fun target unwinds => ?_, ?_⟩
      · cases part.unwinds.symm.trans unwinds
      · intro target leads
        rcases List.mem_cons.mp (part.leads leads) with rfl | member
        · exact (given _ opened).2
        · exact (List.forall_mem_map.mp opensShown target member).2
  exact keeps

/-! ## Landing pads -/

/-- Adds two blocks. -/
def appendTwo (first second : String) : Emission (BlockId × BlockId) := do
  let one ← Builder.appendBlock first
  let two ← Builder.appendBlock second
  pure (one, two)

theorem places_appendTwo (first second : String) :
    Places (fun blocks => [blocks.1, blocks.2]) (appendTwo first second) :=
  (places_appendBlock first).bind fun _ => places_appendBlock second

/-- Lands all exceptions and goes on to a handler. -/
def landing (handlerBlock : BlockId) : Build Unit := do
  let pointer ← Builder.onTypes TypeTable.bytePointer
  let catchAll ← Builder.constantZero pointer
  let _ ← Builder.landingPad false [catchAll] "lpad"
  Builder.branch handlerBlock

theorem onBuilder_bind (first : Build Result) (next : Result → Build Other) :
    onBuilder (first >>= next) =
      (onBuilder first >>= fun result => onBuilder (next result)) :=
  rfl

theorem emitWithLandingPad_eq (emit : FormEmitter) (id : Nat)
    (bodyBlock : BlockId) (body handler : List Form) :
    emitWithLandingPad emit id bodyBlock body handler = (do
      let (padBlock, handlerBlock, endBlock) ←
        openHandler s!"try.lpad.{id}"
          (appendTwo s!"try.handler.{id}" s!"try.end.{id}") bodyBlock
          fun blocks => landing blocks.1
      protectedBy .itanium padBlock (emitArm emit bodyBlock body endBlock)
      emitArm emit handlerBlock handler endBlock
      liftM (Builder.positionAtEnd endBlock)) := by
  simp only [openHandler, appendTwo, landing, onBuilder_bind, bind_assoc,
    pure_bind]
  rfl

theorem fillingAt_landing {padBlock handlerBlock : BlockId}
    {targets : List BlockId} (member : handlerBlock ∈ targets) :
    Builder.FillingAt padBlock
      (HandlerPart .itanium targets padBlock padBlock)
      (landing handlerBlock) := by
  refine .bind (.of_computes (Builder.computes_onTypes _)) fun pointer => ?_
  refine .bind (.of_computes (Builder.computes_constantZero pointer))
    fun catchAll => ?_
  refine .bind (.weaken (Builder.filling_landingPad false [catchAll] "lpad")
    ?_) fun _ => .weaken (Builder.filling_branch handlerBlock) ?_
  · rintro _ ⟨_, _, rfl⟩
    exact ⟨fun _ => ⟨rfl, rfl⟩, rfl, rfl, List.nil_subset _⟩
  · rintro _ rfl
    exact ⟨nofun, rfl, rfl, List.cons_subset.mpr ⟨member, List.nil_subset _⟩⟩

theorem paddingAt_landing (padBlock handlerBlock : BlockId) :
    Builder.PaddingAt padBlock (landing handlerBlock) := by
  refine .after (Builder.computes_onTypes _) fun pointer => ?_
  refine .after (Builder.computes_constantZero pointer) fun catchAll => ?_
  exact .followed (Builder.paddingAt_landingPad false [catchAll] "lpad")
    fun _ => Builder.flows_insertEffect rfl

theorem opens_landing {bodyBlock : BlockId}
    (under : .under .itanium ∈ marks) (opened : .opened bodyBlock ∈ marks)
    (padName handlerName endName : String) :
    Opens marks (fun (padBlock, handlerBlock, endBlock) =>
        [.pad padBlock, .opened handlerBlock, .opened endBlock])
      (openHandler padName (appendTwo handlerName endName) bodyBlock
        fun blocks => landing blocks.1) := by
  refine opens_openHandler (places_appendTwo handlerName endName) under opened
    (fun pad blocks => ?_) (fun pad blocks => paddingAt_landing pad blocks.1)
    ?_ padName
  · exact .of_fillingAt (fillingAt_landing (by simp))
  · intro pad blocks builder block placed there
    have fills : builder.Fills (HandlerPart .itanium [blocks.1] pad pad)
        (landing blocks.1 builder).2 :=
      fillingAt_landing List.mem_cons_self builder placed
    cases (fills.block.trans placed).symm.trans there
    exact List.mem_cons_self

/-! ## Funclets -/

/-- Adds three blocks. -/
def appendThree (first second third : String) :
    Emission (BlockId × BlockId × BlockId) := do
  let one ← Builder.appendBlock first
  let others ← appendTwo second third
  pure (one, others)

theorem places_appendThree (first second third : String) :
    Places (fun blocks => [blocks.1, blocks.2.1, blocks.2.2])
      (appendThree first second third) :=
  (places_appendBlock first).bind fun _ => places_appendTwo second third

/-- Catches all exceptions and returns to a handler. -/
def catching (handlerBlock : BlockId) (dispatch : Value) : Build Unit := do
  let pointer ← Builder.onTypes TypeTable.bytePointer
  let word ← Builder.onTypes (TypeTable.int 32)
  let null ← Builder.constantZero pointer
  let flags ← Builder.constantInt word catchAllFlags
  let pad ← Builder.catchPad dispatch [null, flags, null] "cpad"
  Builder.catchReturn pad handlerBlock

/-- Dispatches all exceptions to a funclet that returns to a handler. -/
def dispatching (padBlock handlerBlock : BlockId) : Build Unit := do
  let outside ← Builder.constantNone
  let dispatch ← Builder.catchSwitch outside [padBlock] none "cs"
  Builder.positionAtEnd padBlock
  catching handlerBlock dispatch

theorem emitWithFunclet_eq (emit : FormEmitter) (id : Nat)
    (bodyBlock : BlockId) (body handler : List Form) :
    emitWithFunclet emit id bodyBlock body handler = (do
      let (dispatchBlock, _, handlerBlock, endBlock) ←
        openHandler s!"try.dispatch.{id}"
          (appendThree s!"try.pad.{id}" s!"try.handler.{id}"
            s!"try.end.{id}") bodyBlock
          fun blocks => dispatching blocks.1 blocks.2.1
      protectedBy .seh dispatchBlock (emitArm emit bodyBlock body endBlock)
      emitArm emit handlerBlock handler endBlock
      liftM (Builder.positionAtEnd endBlock)) := by
  simp only [openHandler, appendThree, appendTwo, dispatching, catching,
    onBuilder_bind, bind_assoc, pure_bind]
  rfl

theorem fillingAt_catching {dispatchBlock padBlock handlerBlock : BlockId}
    {targets : List BlockId} (member : handlerBlock ∈ targets)
    (dispatch : Value) :
    Builder.FillingAt padBlock
      (HandlerPart .seh targets dispatchBlock padBlock)
      (catching handlerBlock dispatch) := by
  refine .bind (.of_computes (Builder.computes_onTypes _)) fun pointer => ?_
  refine .bind (.of_computes (Builder.computes_onTypes _)) fun word => ?_
  refine .bind (.of_computes (Builder.computes_constantZero pointer))
    fun null => ?_
  refine .bind (.of_computes (Builder.computes_constantInt word _))
    fun flags => ?_
  refine .bind (.of_filling (Builder.filling_insertPad
    ⟨nofun, rfl, rfl, List.nil_subset _⟩ rfl "cpad")) fun pad => ?_
  refine .of_filling (Builder.filling_insertEffect ?_ rfl)
  exact ⟨nofun, rfl, rfl, List.cons_subset.mpr ⟨member, List.nil_subset _⟩⟩

theorem drawingAt_dispatching {dispatchBlock padBlock handlerBlock : BlockId}
    {targets : List BlockId} (member : handlerBlock ∈ targets) :
    Builder.DrawingAt dispatchBlock (HandlerPart .seh targets dispatchBlock)
      (dispatching padBlock handlerBlock) := by
  refine .bind (.of_computes Builder.computes_constantNone) fun outside => ?_
  refine .bind (.of_filling (Builder.filling_insertPad
    ⟨fun _ => ⟨rfl, rfl⟩, rfl, rfl, List.nil_subset _⟩ rfl "cs"))
    fun dispatch => .position ?_
  exact .of_fillingAt (fillingAt_catching member dispatch)

theorem fills_catching (dispatchBlock padBlock handlerBlock : BlockId)
    (dispatch : Value) (builder : Builder) :
    (Builder.positionAtEnd padBlock builder).2.Fills
      (HandlerPart .seh [handlerBlock] dispatchBlock padBlock)
      (catching handlerBlock dispatch
        (Builder.positionAtEnd padBlock builder).2).2 :=
  fillingAt_catching List.mem_cons_self dispatch _ rfl

theorem flows_catching (padBlock handlerBlock : BlockId) (dispatch : Value)
    (builder : Builder) :
    ∃ added, builder.module.Flows added ((do
      Builder.positionAtEnd padBlock
      catching handlerBlock dispatch : Build Unit) builder).2.module := by
  have same : (Builder.positionAtEnd padBlock builder).2.module =
      builder.module := rfl
  obtain ⟨added, flows, -⟩ := (fills_catching padBlock padBlock handlerBlock
    dispatch builder).module
  rw [same] at flows
  rw [stateM_bind_apply]
  generalize catching handlerBlock dispatch _ = outcome at flows ⊢
  exact ⟨added, flows⟩

theorem paddingAt_dispatching (dispatchBlock padBlock handlerBlock : BlockId) :
    Builder.PaddingAt dispatchBlock (dispatching padBlock handlerBlock) := by
  refine .after Builder.computes_constantNone fun outside => ?_
  refine .followed (Builder.paddingAt_insertPad rfl "cs") fun dispatch => ?_
  exact flows_catching padBlock handlerBlock dispatch

theorem block_dispatching (padBlock handlerBlock : BlockId)
    (builder : Builder) :
    (dispatching padBlock handlerBlock builder).2.block = some padBlock := by
  unfold dispatching
  rw [stateM_bind_apply, stateM_bind_apply, stateM_bind_apply]
  exact (fills_catching padBlock padBlock handlerBlock _ _).block

theorem opens_dispatching {bodyBlock : BlockId}
    (under : .under .seh ∈ marks) (opened : .opened bodyBlock ∈ marks)
    (dispatchName padName handlerName endName : String) :
    Opens marks (fun (dispatchBlock, padBlock, handlerBlock, endBlock) =>
        [.pad dispatchBlock, .opened padBlock, .opened handlerBlock,
          .opened endBlock])
      (openHandler dispatchName (appendThree padName handlerName endName)
        bodyBlock fun blocks => dispatching blocks.1 blocks.2.1) := by
  refine opens_openHandler (places_appendThree padName handlerName endName)
    under opened (fun pad blocks => drawingAt_dispatching (by simp))
    (fun pad blocks => paddingAt_dispatching pad blocks.1 blocks.2.1) ?_
    dispatchName
  intro dispatchBlock blocks builder block _ there
  cases (block_dispatching blocks.1 blocks.2.1 builder).symm.trans there
  simp

end FormCompiler
