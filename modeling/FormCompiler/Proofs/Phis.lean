import FormCompiler.Proofs.CallHandlers

/-!
# Placing phis is quiet

A phi fills a register of its own, so that no two pending phis are confused
when their edges are added.
-/

namespace FormCompiler

open Ir

variable {scene : Scene} {known : TypeTable → Prop} {state : EmitState}
  {block : BlockId} {type : TypeId}

/-- A phi stands in the current block and waits for its edges. -/
structure Pends (state : EmitState) (block : BlockId) (destination : String)
    (type : TypeId) (incoming : List (EdgeSource × String))
    (later : EmitState) (phi : Value) : Prop where
  placed : state.builder.PhiPlaced block type later.builder phi
  pendingPhis : later.pendingPhis = state.pendingPhis ++
    [⟨destination, type, phi, incoming⟩]

theorem PendingPhi.register?_eq_some {pending : PendingPhi}
    {register : Register} (fills : pending.register? = some register) :
    ∃ irType,
      pending.phi.content = .firstClass (.register register irType) := by
  unfold PendingPhi.register? at fills
  split at fills
  · next other irType content =>
      cases fills
      exact ⟨irType, content⟩
  · cases fills

theorem preserves_placePhi (ready : state.Ready scene)
    (cursor : state.builder.block = some block)
    (has : state.table.Has type) {incoming : List (EdgeSource × String)}
    (typed : ∀ edge ∈ incoming, ∀ value, edge.1 = .value value →
      value.Typed state.table) (destination : String) :
    Preserves (EmitState.Ready scene) EmitState.Quiet state
      (placePhi block destination type incoming scene.environment)
      (Pends state block destination type incoming) := by
  obtain ⟨laterReady, quiet, placed⟩ :=
    Builder.builds_phiAtStart ready.builder cursor has destination
  have closed := ready.builder.sound.types
  have grows := quiet.module.types
  have sound := ready.toSound.withBuilder closed quiet.module.develops
    fun _ _ _ => quiet.module.leads
  have run : placePhi block destination type incoming scene.environment
      state =
      let built := Builder.phiAtStart block type destination state.builder
      (built.1, { state with
        builder := built.2
        pendingPhis := state.pendingPhis ++
          [⟨destination, type, built.1, incoming⟩] }) := rfl
  generalize Builder.phiAtStart block type destination state.builder =
    built at *
  obtain ⟨phi, builder⟩ := built
  dsimp only at laterReady quiet placed grows sound run
  have register (pending : PendingPhi) (same : pending.phi = phi)
      (register : Register) (fills : pending.register? = some register) :
      register = ⟨block.function,
        (state.builder.module.function block.function).registerCount⟩ ∧
      register.index <
        (builder.module.function block.function).registerCount := by
    obtain ⟨irType, content⟩ := pending.register?_eq_some fills
    exact placed.fresh register irType (same ▸ content)
  suffices goal : EmitState.Ready scene { state with
      builder
      pendingPhis := state.pendingPhis ++
        [⟨destination, type, phi, incoming⟩] } by
    refine ⟨?_, ?_, ?_⟩ <;> rw [run]
    · exact goal
    · exact ⟨quiet, fun _ escapes => .inl escapes, rfl,
        List.prefix_append _ _⟩
    · exact ⟨placed, rfl⟩
  refine ⟨⟨sound.context, sound.layouts, ?_, ?_, sound.coroutine,
    sound.escapes, ?_⟩, laterReady⟩
  · intro pending member
    rcases List.mem_append.mp member with old | new
    · exact sound.pending pending old
    · cases List.mem_singleton.mp new
      refine ⟨has.mono grows, ?_, ?_⟩
      · intro edge member value same
        exact (typed edge member value same).mono closed grows
      · intro filled fills
        obtain ⟨same, bounded⟩ := register _ rfl filled fills
        rw [same] at bounded ⊢
        exact bounded
  · refine List.pairwise_append.mpr ⟨sound.apart,
      List.pairwise_singleton _ _, ?_⟩
    intro old member pending new filled fills same
    cases List.mem_singleton.mp new
    obtain ⟨fresh, -⟩ := register _ rfl filled same
    have bounded := (ready.pending old member).register filled fills
    rw [fresh] at bounded
    exact Nat.lt_irrefl _ bounded
  · intro join member
    have settled := ready.matchEnds join member
    have later := sound.matchEnds join member
    refine ⟨later.known, later.notFirst, later.has, later.aside, ?_⟩
    have noMore : ∀ source, builder.module.Leads source join.1 →
        state.builder.module.Leads source join.1 :=
      fun _ => quiet.module.leads
    rcases settled.settled with joined | ⟨inside, pending, waits, awaits⟩
    · refine .inl (Joined.mono quiet.module.develops closed settled.has
        settled.notFirst noMore fun firstClass => ?_)
      obtain ⟨filled, edges, starts, covers, typed, unclaimed⟩ :=
        joined firstClass
      refine ⟨filled, edges, starts, covers, typed, ?_⟩
      intro pending waits fills
      rcases List.mem_append.mp waits with old | new
      · exact unclaimed pending old fills
      · cases List.mem_singleton.mp new
        obtain ⟨fresh, -⟩ := register _ rfl filled fills
        have bounded := starts.bounded ready.builder.sound
        rw [fresh] at bounded
        exact Nat.lt_irrefl _ bounded
    · exact .inr ⟨inside, pending, List.mem_append_left _ waits,
        awaits.mono quiet.module.develops closed settled.has
          settled.notFirst noMore⟩

/-- An edge names a block; a value on it is well typed. -/
theorem handles_readEdge (type : TypeId) (shape : String) (form : Form) :
    Handles scene (fun table => table.Has type) (readEdge type shape form)
      fun table edge => ∀ value, edge.1 = .value value →
        value.Typed table := by
  unfold readEdge
  split
  · refine .orFail_step _ fun label _ => ?_
    split
    · exact .pure fun _ _ _ same => by cases same
    · refine .step (handles_operand _ type) (fun _ holds => holds)
        fun value => ?_
      refine .pure ?_
      rintro table both other ⟨⟩
      exact both.2
  · exact .throw _

theorem isQuiet_emitPhi (items : List Form) : IsQuiet (emitPhi items) := by
  intro scene
  unfold emitPhi
  refine .parse fun _ _ => ?_
  refine .parse fun destination _ => ?_
  refine .parse fun typeForm _ => ?_
  refine .step (handles_typeOf typeForm) (by tauto) fun type => ?_
  refine .parse fun edges _ => ?_
  refine .step (.mapM fun form _ => handles_readEdge type _ form) (by tauto)
    fun incoming => ?_
  intro state ready holds
  obtain ⟨index, cursor, -⟩ := ready.builder.cursor
  obtain ⟨laterReady, quiet, pends⟩ :=
    preserves_placePhi ready cursor holds.1.2 holds.2 destination
  have defines := handles_define destination
    (placePhi ⟨state.builder.function, index⟩ destination type incoming
      scene.environment state).1 type _ laterReady
    ⟨pends.placed.gives.1, holds.1.2.mono quiet.grows⟩
  have run : ∀ found, state.builder.block = found →
      ((liftM currentBlock? : Handler (Option BlockId)) >>= fun found =>
        orFail (.unresolved destination) found >>= fun block =>
        (liftM (placePhi block destination type incoming) :
          Handler Value) >>= fun phi =>
        define destination phi type).run scene.environment state =
      (orFail (.unresolved destination) found >>= fun block =>
        (liftM (placePhi block destination type incoming) :
          Handler Value) >>= fun phi =>
        define destination phi type).run scene.environment state := by
    rintro _ rfl
    rfl
  refine ⟨?_, ?_, fun _ _ => trivial⟩ <;> rw [run _ cursor]
  · exact defines.holds
  · exact quiet.trans defines.follows

end FormCompiler
