import FormCompiler.Proofs.BranchForms

/-!
# Calls, panics and handlers are orderly

A call under a personality ends its block; it goes on in a new block, or
where exceptions continue.
-/

namespace FormCompiler

open Ir

open EmitState (Stage IsTarget)

variable {scene : Scene} {origin : EmitState} {owed : List BlockId}
  {known : EmitState → Prop} {emit : FormEmitter}

/-! ## Invocations -/

/-- Exceptions continue in a target. -/
theorem proceeds_unwindTarget [Lasting known] (personality : Personality) :
    Proceeds scene (Writing scene origin owed known)
      (unwindTarget personality)
      fun block => Writing scene origin owed fun state =>
        known state ∧ IsTarget scene origin block state := by
  refine .preserves (fun state writing => preserves_unwindTarget
    writing.ready writing.stage.inside personality) ?_
  rintro state later block writing quiet stage (escapes | adds)
  · exact stage.escape escapes
  · exact writing.stage.fresh (adds.inside.trans writing.stage.inside)
      adds.missing adds.known quiet.matchEnds

/-- A value through which a function may be called. -/
structure Callable (table : TypeTable) (callee : Value) : Prop where
  typed : callee.Typed table
  calls : (Builder.calleeType? table callee).isSome = true

instance (callee : Value) :
    Enduring fun state => Callable state.table callee := by
  refine ⟨fun {state later} closed continues callable => ?_⟩
  have grows : state.table.Grows later.table := continues.module.types
  refine ⟨callable.typed.mono closed grows, ?_⟩
  obtain ⟨⟨type, signature⟩, found⟩ :=
    Option.isSome_iff_exists.mp callable.calls
  obtain ⟨pointee, signatureFound⟩ := Builder.calleeType?_eq_some found
  have has := TypeTable.has_of_signature signatureFound
  rw [Builder.calleeType?, callable.typed.has.pointee_eq grows, pointee,
    Option.bind_some, has.signature_eq grows, signatureFound]
  rfl

theorem proceeds_invoke [Enduring known] {callee : Value}
    {normal unwind : BlockId} (arguments : List Value) (name : String)
    (allowed : ∀ state, known state → Callable state.table callee ∧
      IsTarget scene origin normal state ∧
      IsTarget scene origin unwind state) :
    Proceeds scene (Writing scene origin owed known)
      (liftM (Builder.invoke callee arguments normal unwind name) :
        Emission (Option Value))
      fun found => Leaving scene origin owed fun state =>
        known state ∧ ∀ value ∈ found, value.Typed state.table := by
  intro state writing
  obtain ⟨callable, targets⟩ := allowed state writing.holds
  have allTargets : ∀ target ∈ [normal, unwind],
      IsTarget scene origin target state := by
    simpa using targets
  obtain ⟨ended, gives⟩ := Builder.invokes_invoke writing.ready.builder
    writing.cursor callable.typed callable.calls
    (writing.targets allTargets) arguments name
  have leaving := writing.ended ended allTargets
  exact ⟨leaving.stage, leaving.cursor, leaving.holds, gives⟩

theorem proceeds_buildInvocation [Enduring known] (callee : Value)
    (arguments : List Value) (name : String)
    (typed : ∀ state, known state → callee.Typed state.table) :
    Proceeds scene (Writing scene origin owed known)
      (buildInvocation callee arguments name)
      fun found => Writing scene origin owed fun state =>
        known state ∧ ∀ value ∈ found, value.Typed state.table := by
  unfold buildInvocation
  refine .look (fun _ => rfl) fun table => ?_
  split
  · refine .pure fun state both => both.1.imp fun holds => ⟨holds, ?_⟩
    nofun
  next calls =>
  have callable : ∀ state, Writing scene origin owed known state ∧
      state.builder.module.types = table →
      Writing scene origin owed (fun state =>
        known state ∧ Callable state.table callee) state := by
    rintro state ⟨writing, rfl⟩
    refine writing.imp fun holds => ⟨holds, typed state holds, ?_⟩
    exact Option.isSome_iff_ne_none.mpr fun none =>
      calls (Option.isNone_iff_eq_none.mpr none)
  refine Proceeds.given ?_ callable
  refine .look (fun _ => rfl) fun personality => ?_
  refine Proceeds.given ?_ fun _ both => both.1
  cases personality with
  | none =>
      refine (Proceeds.quietly (emits_call callee arguments name)).weaken ?_
      exact fun _ _ writing => writing.imp fun holds =>
        ⟨holds.1.1, holds.2⟩
  | some personality =>
      refine .bind (proceeds_unwindTarget personality) fun unwind => ?_
      refine .bind (.quietly emits_freshId) fun id => ?_
      refine .bind (.append [] (named (by decide) id)) fun next => ?_
      refine .bind (proceeds_invoke arguments name (by tauto))
        fun found => ?_
      refine .bind (.position next) fun _ => ?_
      exact .pure fun state writing => writing.imp fun holds => by tauto

/-! ## Calls -/

theorem handles_calledFunction (name : String) (result : TypeId)
    (forms : List Form) :
    Handles scene (fun table => table.Has result)
      (calledFunction name result forms) fun table called =>
        ∀ value ∈ called.2, value.Typed table := by
  unfold calledFunction
  refine .look (fun _ => rfl) fun _ _ _ => ?_
  split
  · refine .look (fun _ => rfl) fun _ _ _ => ?_
    refine .step (handles_callArguments name _ forms) (fun _ holds => holds)
      fun arguments => ?_
    exact .pure fun _ holds => holds.2
  · refine .step (.mapM fun form _ => handles_looseOperand form)
      (fun _ holds => holds) fun arguments => ?_
    refine .step (.lift (emits_declareFunction name result _ false)) ?_
      fun id => ?_
    · exact fun table holds => ⟨holds.1.1, has_types holds.2⟩
    · exact .pure fun _ holds => holds.1.2

theorem orderly_emitCall (items : List Form) :
    Orderly scene (emitCall items) := by
  intro origin owed
  unfold emitCall
  refine .ite (fun _ => .throw_bind _) fun _ => ?_
  refine .parse fun destination _ => ?_
  refine .parse fun typeForm _ => ?_
  refine .quietly (handles_typeOf typeForm) fun result => ?_
  refine .parse fun name _ => ?_
  refine .parse fun forms _ => ?_
  refine .quiet (handles_calledFunction name result forms)
    (fun _ holds => holds.2) fun called => ?_
  refine .look (fun _ => rfl) fun table => ?_
  refine .look (fun _ => rfl) fun module => ?_
  refine Concludes.given ?_ fun _ both => both.1.1
  refine .quietly (handles_expectType _ result _) fun _ => ?_
  refine .quietly (.lift (emits_functionAddress called.1)) fun callee => ?_
  refine .step (proceeds_buildInvocation callee called.2 destination
    fun _ holds => holds.2) fun found => ?_
  refine .orFail_step _ fun value same => ?_
  refine .ofHandles (handles_defineResult destination value result) ?_
  exact fun _ holds => ⟨holds.2 value same, holds.1.1.1.1.2⟩

/-! ## Panics -/

/-- A function is there. -/
def Declared (id : FunctionId) (state : EmitState) : Prop :=
  id < state.builder.module.functions.length

instance (id : FunctionId) : Enduring (Declared id) :=
  ⟨fun _ continues declared =>
    Nat.lt_of_lt_of_le declared continues.module.count⟩

theorem preserves_declareNoReturn {state : EmitState}
    (ready : state.Ready scene) (name : String) {parameters : List TypeId}
    (has : ∀ parameter ∈ parameters, state.table.Has parameter) :
    Preserves (EmitState.Ready scene) EmitState.Quiet state
      (declareNoReturn name parameters scene.environment)
      fun later id => Declared id later := by
  unfold declareNoReturn
  have void : Emits scene (fun _ => True)
      (liftM TypeTable.void : Emission TypeId)
      fun table type => table.Has type := emits_atomic rfl
  apply (void state ready trivial).before
  intro typed type typedReady typedQuiet hasVoid
  apply (preserves_declareFunction typedReady name hasVoid
    (fun parameter member => (has parameter member).mono typedQuiet.grows)
    false).before
  intro later id laterReady _ declared
  have marks : Emits scene (fun _ => True)
      (liftM (Module.addAttributes id [.noReturn]) : Emission Unit)
      fun _ _ => True := emits_addAttributes id _
  apply (marks later laterReady trivial).before
  intro last _ lastReady quiet _
  exact Preserves.pure lastReady
    (Nat.lt_of_lt_of_le declared quiet.builder.module.count)

theorem proceeds_declareNoReturn [Lasting known] (name : String)
    {parameters : List TypeId}
    (has : ∀ state, known state →
      ∀ parameter ∈ parameters, state.table.Has parameter) :
    Proceeds scene (Writing scene origin owed known)
      (declareNoReturn name parameters)
      fun id => Writing scene origin owed fun state =>
        known state ∧ Declared id state :=
  .preserves
    (fun state writing => preserves_declareNoReturn writing.ready name
      (has state writing.holds))
    fun _ _ _ _ _ _ declared => declared

/-- A function that is there may be called. -/
theorem proceeds_callee [Lasting known] (id : FunctionId)
    (declared : ∀ state, known state → Declared id state) :
    Proceeds scene (Writing scene origin owed known)
      (liftM (Builder.functionAddress id) : Emission Value)
      fun callee => Writing scene origin owed fun state =>
        known state ∧ Callable state.table callee := by
  refine .preserves (fun state writing => preserves_onBuilder writing.ready
    (Builder.builds_functionAddress writing.ready.builder id)) ?_
  rintro state later callee writing quiet stage ⟨typed, -, pointee⟩
  obtain ⟨signature, found⟩ := Option.isSome_iff_exists.mp
    (writing.stage.placed.sound.functions id
      (declared state writing.holds)).1
  have has := TypeTable.has_of_signature found
  refine ⟨typed, ?_⟩
  have stays : later.table.signature? _ = some signature :=
    (has.signature_eq quiet.grows).trans found
  rw [Builder.calleeType?, show later.table.pointee? _ = _ from pointee,
    Option.bind_some, stays]
  rfl

theorem proceeds_unreachable [Enduring known] :
    Proceeds scene (Writing scene origin owed known)
      (liftM Builder.unreachable : Emission Unit)
      fun _ => Leaving scene origin owed known := by
  refine .effect rfl ?_ (by rintro _ _ _ ⟨⟩)
  intro state holds target member
  cases member

theorem proceeds_emitTrap :
    Proceeds scene (Writing scene origin owed fun _ => True) emitTrap
      fun _ => Leaving scene origin owed fun _ => True := by
  unfold emitTrap
  refine .bind (proceeds_declareNoReturn _ ?_) fun trap => ?_
  · intro _ _ parameter member
    cases member
  refine .bind (.quietly (emits_functionAddress trap)) fun callee => ?_
  refine .bind (.quietly (emits_call callee [] "")) fun _ => ?_
  exact proceeds_unreachable.weaken
    fun _ _ leaving => leaving.imp fun _ => trivial

theorem proceeds_throwingCall (personality : Personality) :
    Proceeds scene (Writing scene origin owed fun _ => True)
      (throwingCall personality)
      fun call => Writing scene origin owed (Declared call.1) := by
  unfold throwingCall
  refine .bind (.quietly emits_bytePointer) fun pointer => ?_
  cases personality with
  | itanium =>
      refine .bind (proceeds_declareNoReturn _ ?_) fun routine => ?_
      · intro state holds parameter member
        have same : parameter = pointer := by simpa using member
        exact same ▸ holds.2
      refine .bind (.quiet (emits_constantZero pointer)
        fun _ holds => holds.1.2) fun null => ?_
      exact .pure fun _ writing => writing.imp fun holds => holds.1.2
  | seh =>
      refine .bind (.quietly (emits_int 32)) fun word => ?_
      refine .bind (proceeds_declareNoReturn _ ?_) fun routine => ?_
      · intro state holds parameter member
        have same : parameter = word ∨ parameter = pointer := by
          simpa using member
        rcases same with rfl | rfl
        · exact holds.2.1
        · exact holds.1.2
      refine .bind (.quiet (emits_constantInt word panicCode)
        fun _ holds => holds.1.2.1) fun code => ?_
      refine .bind (.quiet (emits_constantInt word 1)
        fun _ holds => holds.1.1.2.1) fun flags => ?_
      refine .bind (.quiet (emits_constantInt word 0)
        fun _ holds => holds.1.1.1.2.1) fun count => ?_
      refine .bind (.quiet (emits_constantZero pointer)
        fun _ holds => holds.1.1.1.1.1.2) fun null => ?_
      exact .pure fun _ writing => writing.imp fun holds => by tauto

theorem proceeds_emitThrow (personality : Personality) :
    Proceeds scene (Writing scene origin owed fun _ => True)
      (emitThrow personality)
      fun _ => Leaving scene origin owed fun _ => True := by
  unfold emitThrow
  refine .bind (proceeds_throwingCall personality)
    fun ⟨routine, arguments⟩ => ?_
  refine .bind (proceeds_unwindTarget personality) fun unwind => ?_
  refine .bind (.quietly emits_freshId) fun id => ?_
  refine .bind (.append [] (named (by decide) id)) fun next => ?_
  refine .bind (proceeds_callee routine fun _ holds => holds.1.1.1)
    fun callee => ?_
  refine .bind (proceeds_invoke arguments "" (by tauto)) fun _ => ?_
  refine .bind (.position next) fun _ => ?_
  exact proceeds_unreachable.weaken
    fun _ _ leaving => leaving.imp fun _ => trivial

theorem orderly_emitPanic : Orderly scene emitPanic := by
  intro origin owed
  unfold emitPanic
  refine .look (fun _ => rfl) fun personality => ?_
  refine Concludes.given ?_ fun _ both => both.1
  cases personality with
  | none => exact .last proceeds_emitTrap
  | some personality =>
      refine .look (fun _ => rfl) fun environment => ?_
      refine Concludes.given ?_ fun _ both => both.1
      refine .ite (fun _ => ?_) fun _ => ?_
      · exact .last (proceeds_emitThrow personality)
      · exact .last proceeds_emitTrap

/-! ## Handlers -/

theorem emits_catchPad (parent : Value) (arguments : List Value)
    (name : String) :
    Emits scene (fun _ => True)
      (liftM (Builder.catchPad parent arguments name) : Emission Value)
      fun _ _ => True :=
  emits_onBuilder fun _ ready _ =>
    (Builder.builds_insertPad ready rfl name).forget

/-- A dispatch of exceptions ends its block. -/
theorem proceeds_catchSwitch [Enduring known] (parent : Value)
    {handler : BlockId} (name : String)
    (allowed : ∀ state, known state → IsTarget scene origin handler state) :
    Proceeds scene (Writing scene origin owed known)
      (liftM (Builder.catchSwitch parent [handler] none name) :
        Emission Value)
      fun _ => Leaving scene origin owed known := by
  intro state writing
  have allTargets : ∀ target ∈ Operation.targets
      (.catchSwitch parent.operandOrToken [handler] none),
      IsTarget scene origin target state := by
    simpa [Operation.targets] using allowed state writing.holds
  exact writing.ended (Builder.ended_insertPad writing.ready.builder
    writing.cursor rfl (writing.targets allTargets) (by rintro _ ⟨⟩) name)
    allTargets

theorem proceeds_catchReturn [Enduring known] (pad : Value)
    {target : BlockId}
    (allowed : ∀ state, known state → IsTarget scene origin target state) :
    Proceeds scene (Writing scene origin owed known)
      (liftM (Builder.catchReturn pad target) : Emission Unit)
      fun _ => Leaving scene origin owed known := by
  refine .effect rfl ?_ (by rintro _ _ _ ⟨⟩)
  intro state holds other member
  cases List.mem_singleton.mp member
  exact allowed state holds

/-- A body whose exceptions continue in a target. -/
theorem proceeds_protectedBy [Enduring known] (personality : Personality)
    (front : List BlockId) {handler : BlockId} {body : Emission Unit}
    (allowed : ∀ state, known state → IsTarget scene origin handler state)
    (proceeds : Proceeds scene (Leaving scene origin (front ++ owed) known)
      body fun _ => Leaving scene origin owed known) :
    Proceeds scene (Leaving scene origin (front ++ owed) known)
      (protectedBy personality handler body)
      fun _ => Leaving scene origin owed known := by
  unfold protectedBy
  refine .bind ?_ fun _ => .bind proceeds fun _ => ?_
  · intro state leaving
    have names := leaving.stage.sound.context
    cases personality with
    | itanium =>
        apply leaving.withEscapes state.context
          { state.unwindTargets with
            landingPads := handler :: state.unwindTargets.landingPads } names
        rintro block (loops | pads | others)
        · exact .inl (.inl loops)
        · rcases List.mem_cons.mp pads with rfl | outer
          · exact .inr (allowed state leaving.holds)
          · exact .inl (.inr (.inl outer))
        · exact .inl (.inr (.inr others))
    | seh =>
        apply leaving.withEscapes state.context
          { state.unwindTargets with
            dispatches := handler :: state.unwindTargets.dispatches } names
        rintro block (loops | pads | dispatches | cleanup)
        · exact .inl (.inl loops)
        · exact .inl (.inr (.inl pads))
        · rcases List.mem_cons.mp dispatches with rfl | outer
          · exact .inr (allowed state leaving.holds)
          · exact .inl (.inr (.inr (.inl outer)))
        · exact .inl (.inr (.inr (.inr cleanup)))
  · intro state leaving
    have names := leaving.stage.sound.context
    cases personality with
    | itanium =>
        apply leaving.withEscapes state.context
          { state.unwindTargets with
            landingPads := state.unwindTargets.landingPads.tail } names
        rintro block (loops | pads | others)
        · exact .inl (.inl loops)
        · exact .inl (.inr (.inl (List.mem_of_mem_tail pads)))
        · exact .inl (.inr (.inr others))
    | seh =>
        apply leaving.withEscapes state.context
          { state.unwindTargets with
            dispatches := state.unwindTargets.dispatches.tail } names
        rintro block (loops | pads | dispatches | cleanup)
        · exact .inl (.inl loops)
        · exact .inl (.inr (.inl pads))
        · exact .inl (.inr (.inr (.inl (List.mem_of_mem_tail dispatches))))
        · exact .inl (.inr (.inr (.inr cleanup)))

section Handlers

variable (advances : ∀ form, Advances scene (emit form)) (id : Nat)
  (bodyBlock : BlockId) (body handler : List Form)

include advances

theorem proceeds_emitUnprotected :
    Proceeds scene
      (Writing scene origin (bodyBlock :: owed)
        (IsTarget scene origin bodyBlock))
      (emitUnprotected emit id bodyBlock body handler)
      fun _ => Writing scene origin owed fun _ => True := by
  unfold emitUnprotected
  refine .bind (.append [bodyBlock] (named (by decide) id))
    fun endBlock => ?_
  refine .bind (.branch (by tauto)) fun _ => ?_
  refine .bind (.position bodyBlock) fun _ => ?_
  refine Proceeds.given ?_ fun _ writing => writing.forget
  refine .bind (.sequence advances body) fun _ => ?_
  refine .bind (.sequence advances handler) fun _ => ?_
  refine .bind (.fallThrough (by tauto)) fun _ => ?_
  exact (Proceeds.position endBlock).weaken
    fun _ _ writing => writing.imp fun _ => trivial

theorem proceeds_emitWithLandingPad :
    Proceeds scene
      (Writing scene origin (bodyBlock :: owed)
        (IsTarget scene origin bodyBlock))
      (emitWithLandingPad emit id bodyBlock body handler)
      fun _ => Writing scene origin owed fun _ => True := by
  unfold emitWithLandingPad
  refine .bind (.append [bodyBlock] (named (by decide) id))
    fun padBlock => ?_
  refine .bind (.append [bodyBlock, padBlock] (named (by decide) id))
    fun handlerBlock => ?_
  refine .bind (.append [bodyBlock, padBlock, handlerBlock]
    (named (by decide) id)) fun endBlock => ?_
  refine .bind (.branch (by tauto)) fun _ => ?_
  refine Proceeds.given ?_ fun _ leaving =>
    leaving.perm (List.Perm.swap padBlock bodyBlock _)
  refine .bind (.position padBlock) fun _ => ?_
  refine .bind (.quietly emits_bytePointer) fun pointer => ?_
  refine .bind (.quiet (emits_constantZero pointer) fun _ holds => holds.2)
    fun catchAll => ?_
  refine .bind (.quietly (emits_landingPad false [catchAll] "lpad"))
    fun _ => ?_
  refine .bind (.branch (by tauto)) fun _ => ?_
  refine .bind (proceeds_protectedBy .itanium [bodyBlock] (by tauto)
    (.arm advances bodyBlock body (by tauto))) fun _ => ?_
  refine .bind (.arm advances handlerBlock handler (by tauto)) fun _ => ?_
  exact (Proceeds.position endBlock).weaken
    fun _ _ writing => writing.imp fun _ => trivial

theorem proceeds_emitWithFunclet :
    Proceeds scene
      (Writing scene origin (bodyBlock :: owed)
        (IsTarget scene origin bodyBlock))
      (emitWithFunclet emit id bodyBlock body handler)
      fun _ => Writing scene origin owed fun _ => True := by
  unfold emitWithFunclet
  refine .bind (.append [bodyBlock] (named (by decide) id))
    fun dispatchBlock => ?_
  refine .bind (.append [bodyBlock, dispatchBlock] (named (by decide) id))
    fun padBlock => ?_
  refine .bind (.append [bodyBlock, dispatchBlock, padBlock]
    (named (by decide) id)) fun handlerBlock => ?_
  refine .bind (.append [bodyBlock, dispatchBlock, padBlock, handlerBlock]
    (named (by decide) id)) fun endBlock => ?_
  refine .bind (.branch (by tauto)) fun _ => ?_
  refine Proceeds.given ?_ fun _ leaving => leaving.perm
    (@List.perm_middle _ bodyBlock [dispatchBlock, padBlock] _).symm
  refine .bind (.position dispatchBlock) fun _ => ?_
  refine .bind (.quietly emits_constantNone) fun outside => ?_
  refine .bind (proceeds_catchSwitch outside "cs" (by tauto))
    fun dispatch => ?_
  refine .bind (.position padBlock) fun _ => ?_
  refine .bind (.quietly emits_bytePointer) fun pointer => ?_
  refine .bind (.quietly (emits_int 32)) fun word => ?_
  refine .bind (.quiet (emits_constantZero pointer) fun _ holds => holds.1.2)
    fun null => ?_
  refine .bind (.quiet (emits_constantInt word _)
    fun _ holds => holds.1.2.1) fun flags => ?_
  refine .bind (.quietly (emits_catchPad dispatch _ "cpad")) fun pad => ?_
  refine .bind (proceeds_catchReturn pad (by tauto)) fun _ => ?_
  refine .bind (proceeds_protectedBy .seh [bodyBlock] (by tauto)
    (.arm advances bodyBlock body (by tauto))) fun _ => ?_
  refine .bind (.arm advances handlerBlock handler (by tauto)) fun _ => ?_
  exact (Proceeds.position endBlock).weaken
    fun _ _ writing => writing.imp fun _ => trivial

end Handlers

theorem orderly_emitTry (advances : ∀ form, Advances scene (emit form))
    (items : List Form) : Orderly scene (emitTry emit items) := by
  intro origin owed
  unfold emitTry
  refine .parse fun arguments _ => ?_
  refine .orFail_step _ fun body _ => ?_
  refine .step (.quietly emits_freshId) fun id => ?_
  refine .step (.append [] (named (by decide) id)) fun bodyBlock => ?_
  refine .look (fun _ => rfl) fun personality => ?_
  refine Concludes.given ?_ fun _ both => both.1.imp And.right
  split
  · exact .last (proceeds_emitUnprotected advances id bodyBlock body _)
  · exact .last (proceeds_emitWithLandingPad advances id bodyBlock body _)
  · exact .last (proceeds_emitWithFunclet advances id bodyBlock body _)

end FormCompiler
