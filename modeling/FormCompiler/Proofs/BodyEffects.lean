import FormCompiler.Proofs.FormParts
import FormCompiler.Proofs.HandlerBlocks

/-!
# What bodies do

Every form that is emitted uses no names but those that it shows, each at most
as often as it shows the use.  A block makes its uses in a scope of its own.

A guarded module stays guarded: constructs branch to blocks that they have
added themselves, a loop is left for a block that is no pad, and calls unwind
to a pad.  This goes by induction on the form; a construct relies on its
bodies only through what is known of them from every state on.
-/

namespace FormCompiler

open Ir

variable {Result Other Item : Type} {uses : List NameUse}
  {marks : List Landmark} {emit : FormEmitter} {items : List Form}

/-! ## Emissions that open blocks -/

/-- Forgetting about blocks. -/
theorem Does.onlyNames {emission : Emission Result}
    (does : Does (EmitState.Keeps marks) uses emission) :
    Does EmitState.Uses uses emission :=
  fun environment state => (does environment state).uses

/-- An emission ahead of a handler. -/
theorem Tries.lift_bind {Changes : Effect} {Error : Type}
    {emission : Emission Item} {next : Item → ExceptT Error Emission Result}
    (does : Does Changes uses (emission >>= fun item => (next item).run)) :
    Tries Changes uses
      ((liftM emission : ExceptT Error Emission Item) >>= next) := by
  unfold Tries
  rw [ExceptT.run_bind]
  exact does

theorem Tries.append {Error : Type} {name : String}
    {next : BlockId → ExceptT Error Emission Result}
    (rest : ∀ block, Tries (EmitState.Keeps (.opened block :: marks)) uses
      (next block)) :
    Tries (EmitState.Keeps marks) uses
      ((liftM (Builder.appendBlock name) : ExceptT Error Emission BlockId) >>=
        next) :=
  .lift_bind (.append rest)

theorem Tries.personality {next : Option Personality → Handler Result}
    (without : Tries (EmitState.Keeps marks) uses (next none))
    (within : ∀ personality, Tries
      (EmitState.Keeps (.under personality :: marks)) uses
      (next (some personality))) :
    Tries (EmitState.Keeps marks) uses
      ((liftM personality? : Handler (Option Personality)) >>= next) :=
  .lift_bind (.personality without within)

theorem keeps_fallThrough {next : BlockId} (member : .opened next ∈ marks) :
    Does (EmitState.Keeps marks) [] (fallThrough next) :=
  .step does_isTerminated.keeps fun _ => .ite (.pure ()) (keeps_branch member)

section Constructs

variable
  (emits : ∀ form, Does (EmitState.Keeps []) (formUses form) (emit form))
include emits

theorem keeps_emitSequence (body : List Form) :
    Does (EmitState.Keeps marks) (body.flatMap formUses)
      (emitSequence emit body) := by
  induction body with
  | nil => exact .pure ()
  | cons form body ih =>
      refine .step does_isTerminated.keeps fun terminated => ?_
      exact .ite (.pure ())
        (((emits form).relying (List.nil_subset _)).bind fun _ => ih)

theorem keeps_emitArm {block next : BlockId} (body : List Form)
    (start : .opened block ∈ marks) (goesOn : .opened next ∈ marks) :
    Does (EmitState.Keeps marks) (body.flatMap formUses)
      (emitArm emit block body next) := by
  refine .step (keeps_positionAtEnd start) fun _ => ?_
  exact .last (keeps_emitSequence emits body) fun _ =>
    keeps_fallThrough goesOn

/-! ## Branches and loops -/

theorem keeps_emitBranches (test : Value) (thenBody : List Form)
    (elseBody : Option (List Form)) :
    Does (EmitState.Keeps marks)
      (thenBody.flatMap formUses ++ (elseBody.getD []).flatMap formUses)
      (emitBranches emit test thenBody elseBody) := by
  refine .step does_freshId.keeps fun id => .append fun thenBlock => ?_
  split
  · next elseBody =>
      refine .append fun elseBlock => .append fun endBlock => ?_
      refine .step (keeps_branchIf test (by simp) (by simp)) fun _ => ?_
      refine .bind (keeps_emitArm emits thenBody (by simp) (by simp))
        fun _ => ?_
      exact .last (keeps_emitArm emits elseBody (by simp) (by simp))
        fun _ => keeps_positionAtEnd (by simp)
  · refine .append fun endBlock => ?_
    refine .step (keeps_branchIf test (by simp) (by simp)) fun _ => ?_
    exact .bind (keeps_emitArm emits thenBody (by simp) (by simp))
      fun _ => keeps_positionAtEnd (by simp)

theorem keeps_emitConditional (items : List Form) :
    Tries (EmitState.Keeps marks) (items.flatMap formUses)
      (emitConditional emit items) := by
  refine .ite (.throw _) (.parse fun thenBody found => ?_)
  refine .parse fun elseBody otherwise => .parse fun _ _ => ?_
  refine .step (tries_condition _).keeps fun test => ?_
  refine .mono (.lift (keeps_emitBranches emits test thenBody elseBody)) ?_
  unfold readElse at otherwise
  split at otherwise
  · cases second : vectorAt items 3 "(if %c [then] [else]?)" with
    | error cause =>
        rw [second] at otherwise
        cases otherwise
    | ok body =>
        rw [second] at otherwise
        cases otherwise
        exact uses_of_vectorsAt (by decide) found second
  · cases otherwise
    simpa using uses_of_vectorAt found

theorem keeps_emitLoopBody {targets : LoopTargets} {block next : BlockId}
    (body : List Form) (start : .opened block ∈ marks)
    (goesOn : .opened next ∈ marks)
    (breakMember : .opened targets.breakTo ∈ marks)
    (continueMember : .opened targets.continueTo ∈ marks) :
    Does (EmitState.Keeps marks) (body.flatMap formUses)
      (emitLoopBody emit targets block body next) :=
  keeps_inLoop breakMember continueMember
    (keeps_emitArm emits body start goesOn)

omit emits in
theorem keeps_branchOn (form : Form) {thenBlock elseBlock : BlockId}
    (thenMember : .opened thenBlock ∈ marks)
    (elseMember : .opened elseBlock ∈ marks) :
    Does (EmitState.Keeps marks) [] (branchOn form thenBlock elseBlock) := by
  refine .step (Does.keeps (tries_condition form)) fun outcome => ?_
  split
  · exact keeps_branchIf _ thenMember elseMember
  · exact .step (does_report _ _).keeps fun _ => keeps_branch elseMember

theorem keeps_emitWhile (items : List Form) :
    Tries (EmitState.Keeps marks) (items.flatMap formUses)
      (emitWhile emit items) := by
  refine .parse fun _ _ => .parse fun body found => .parse fun test _ => ?_
  refine .mono ?_ (uses_of_vectorAt found)
  refine .step (.lift does_freshId.keeps) fun id => ?_
  refine .append fun testBlock => .append fun bodyBlock => ?_
  refine .append fun endBlock => ?_
  refine .step (.lift (keeps_branch (by simp))) fun _ => ?_
  refine .step (.lift (keeps_positionAtEnd (by simp))) fun _ => ?_
  refine .step (.lift (keeps_branchOn test (by simp) (by simp))) fun _ => ?_
  exact .last (.lift (keeps_emitLoopBody emits body (by simp) (by simp)
    (by simp) (by simp))) fun _ => .lift (keeps_positionAtEnd (by simp))

theorem keeps_emitForBlocks (id : Nat) (test : Option Form)
    (step body : List Form) :
    Does (EmitState.Keeps marks)
      (body.flatMap formUses ++ step.flatMap formUses)
      (emitForBlocks emit id test step body) := by
  refine .append fun testBlock => .append fun bodyBlock => ?_
  refine .append fun stepBlock => .append fun endBlock => ?_
  refine .step (keeps_branch (by simp)) fun _ => ?_
  refine .step (keeps_positionAtEnd (by simp)) fun _ => ?_
  have loops (_ : PUnit) : Does (EmitState.Keeps (.opened endBlock ::
        .opened stepBlock :: .opened bodyBlock :: .opened testBlock :: marks))
      (body.flatMap formUses ++ step.flatMap formUses) (do
        emitLoopBody emit ⟨endBlock, stepBlock⟩ bodyBlock body stepBlock
        emitArm emit stepBlock step testBlock
        liftM (Builder.positionAtEnd endBlock)) := by
    refine .bind (keeps_emitLoopBody emits body (by simp) (by simp) (by simp)
      (by simp)) fun _ => ?_
    exact .last (keeps_emitArm emits step (by simp) (by simp))
      fun _ => keeps_positionAtEnd (by simp)
  split
  · exact .step (keeps_branchOn _ (by simp) (by simp)) loops
  · exact .step (keeps_branch (by simp)) loops

theorem keeps_emitFor (items : List Form) :
    Tries (EmitState.Keeps marks) (items.flatMap formUses)
      (emitFor emit items) := by
  refine .parse fun arguments read => ?_
  obtain rfl := KeywordArguments.follow_eq_ok read
  rw [List.drop_one]
  refine .orFail_step _ fun body found => ?_
  have parts := KeywordArguments.uses_of_vectors ["init", "body", "step"]
    (by decide) items.tail
  refine .mono ?_ (parts.trans
    ((List.tail_sublist items).flatMap formUses).subperm)
  simp only [List.flatMap_cons, List.flatMap_nil, List.append_nil]
  rw [found]
  refine .step (.lift does_freshId.keeps) fun id => ?_
  refine .bind (.lift (keeps_emitSequence emits _)) fun _ => ?_
  refine .step (.lift does_isTerminated.keeps) fun terminated => ?_
  exact .ite (.pure ()) (.lift (keeps_emitForBlocks emits id _ _ body))

omit emits in
/-- A loop is left, or goes on, at one of its blocks. -/
theorem keeps_leaveLoop (target : LoopTargets → BlockId)
    (inside : ∀ targets,
      target targets ∈ [targets.breakTo, targets.continueTo]) :
    Tries (EmitState.Keeps marks) uses (do
      match (← context).innermostLoop? with
      | some targets => liftM (Builder.branch (target targets))
      | none => pure () : Handler Unit) := by
  refine .look (fun _ _ => rfl) fun environment state => ?_
  cases found : state.context.innermostLoop? with
  | none => exact Does.pure _ environment state
  | some targets =>
      have branches : Does (EmitState.Keeps [.opened (target targets)]) uses
          (liftM (Builder.branch (target targets)) : Emission Unit) :=
        .mono (keeps_branch List.mem_cons_self) List.nil_subperm
      refine (branches environment state).weaken fun guarded _ => ?_
      have loop := guarded.loops targets (List.mem_of_mem_head? found)
      refine List.forall_mem_singleton.mpr ?_
      rcases List.mem_cons.mp (inside targets) with same | same
      · exact loop _ (same ▸ List.mem_cons_self)
      · exact loop _ (List.mem_singleton.mp same ▸ by simp)

omit emits in
theorem keeps_emitBreak (items : List Form) :
    Tries (EmitState.Keeps marks) uses (emitBreak items) :=
  .parse fun _ _ => keeps_leaveLoop LoopTargets.breakTo (by simp)

omit emits in
theorem keeps_emitContinue (items : List Form) :
    Tries (EmitState.Keeps marks) uses (emitContinue items) :=
  .parse fun _ _ => keeps_leaveLoop LoopTargets.continueTo (by simp)

/-! ## Switches -/

omit emits in
/-- The blocks of a case. -/
def PlacedCase.shown (entry : PlacedCase) : List Landmark :=
  [.opened entry.testBlock, .opened entry.bodyBlock]

omit emits in
theorem opens_placeCase (id : Nat) (entry : Int64 × List Form) :
    Opens marks PlacedCase.shown (placeCase id entry) := by
  refine (opens_appendBlock _).bind fun testBlock => ?_
  refine (opens_appendBlock _).bind fun bodyBlock => .pure ?_
  simp [PlacedCase.shown]

omit emits in
theorem mem_firstTest {noMatch : BlockId} {placed : List PlacedCase}
    (otherwise : .opened noMatch ∈ marks)
    (shown : placed.flatMap PlacedCase.shown ⊆ marks) :
    .opened (firstTest noMatch placed) ∈ marks := by
  cases placed with
  | nil => exact otherwise
  | cons entry rest => exact shown (by simp [firstTest, PlacedCase.shown])

theorem keeps_emitCases (scrutinee : Value) {noMatch endBlock : BlockId}
    {placed : List PlacedCase} (otherwise : .opened noMatch ∈ marks)
    (goesOn : .opened endBlock ∈ marks)
    (shown : placed.flatMap PlacedCase.shown ⊆ marks) :
    Does (EmitState.Keeps marks)
      (placed.flatMap fun entry => entry.body.flatMap formUses)
      (emitCases emit scrutinee noMatch endBlock placed) := by
  induction placed with
  | nil => exact .pure ()
  | cons entry rest ih =>
      rw [List.flatMap_cons, List.append_subset] at shown
      obtain ⟨own, later⟩ := shown
      refine .step (keeps_positionAtEnd (own (by simp [PlacedCase.shown])))
        fun _ => ?_
      refine .step (does_onBuilder (Builder.computes_constantInt _ _)).keeps
        fun expected => ?_
      refine .step (does_onBuilder
        (Builder.computes_compareInt _ _ _ _)).keeps fun hit => ?_
      have body : .opened entry.bodyBlock ∈ marks :=
        own (by simp [PlacedCase.shown])
      refine .step (keeps_branchIf hit body (mem_firstTest otherwise later))
        fun _ => ?_
      exact .bind (keeps_emitArm emits entry.body body goesOn)
        fun _ => ih later

theorem keeps_emitSwitchBlocks (scrutinee : Value)
    (cases : List (Int64 × List Form)) (default : Option (List Form)) :
    Does (EmitState.Keeps marks)
      ((cases.flatMap fun entry => entry.2.flatMap formUses) ++
        (default.getD []).flatMap formUses)
      (emitSwitchBlocks emit scrutinee cases default) := by
  refine .step does_freshId.keeps fun id => ?_
  refine .openingKnown (.mapM (opens_placeCase id) cases)
    (yields_placed id cases) fun placed same => ?_
  have bodies : (placed.flatMap fun entry => entry.body.flatMap formUses) =
      cases.flatMap fun entry => entry.2.flatMap formUses := by
    have mapped := congrArg
      (List.flatMap fun body : List Form => body.flatMap formUses) same
    rwa [List.flatMap_map, List.flatMap_map] at mapped
  rw [← bodies]
  split
  · next body =>
      refine .append fun defaultBlock => .append fun endBlock => ?_
      have shown : placed.flatMap PlacedCase.shown ⊆ .opened endBlock ::
          .opened defaultBlock ::
            (placed.flatMap PlacedCase.shown ++ marks) := by
        grind
      refine .step (keeps_branch (mem_firstTest (by simp) shown)) fun _ => ?_
      refine .bind (keeps_emitCases emits scrutinee (by simp) (by simp) shown)
        fun _ => ?_
      exact .last (keeps_emitArm emits body (by simp) (by simp))
        fun _ => keeps_positionAtEnd (by simp)
  · refine .append fun endBlock => ?_
    have shown : placed.flatMap PlacedCase.shown ⊆ .opened endBlock ::
        (placed.flatMap PlacedCase.shown ++ marks) := by
      grind
    refine .step (keeps_branch (mem_firstTest (by simp) shown)) fun _ => ?_
    exact .bind (keeps_emitCases emits scrutinee (by simp) (by simp) shown)
      fun _ => keeps_positionAtEnd (by simp)

theorem keeps_emitSwitch (items : List Form) :
    Tries (EmitState.Keeps marks) (items.flatMap formUses)
      (emitSwitch emit items) := by
  refine .ite (.throw _) (.parse fun arguments read => ?_)
  obtain rfl := KeywordArguments.follow_eq_ok read
  refine .orFail_step _ fun caseForms given => ?_
  refine .orFail_step _ fun cases found => .parse fun _ _ => ?_
  refine .step (tries_valueOf _).keeps fun scrutinee => ?_
  refine .step (.lift does_tables.keeps) fun table => .ite ?_ ?_
  · exact .step (.lift (does_spelling _).keeps) fun _ => .throw _
  · refine .mono (.lift (keeps_emitSwitchBlocks emits scrutinee cases _)) ?_
    have parts := KeywordArguments.uses_of_vectors ["cases", "default"]
      (by decide) (items.drop 2)
    rw [List.flatMap_cons, List.flatMap_singleton, given] at parts
    have whole := parts.trans
      ((List.drop_sublist 2 items).flatMap formUses).subperm
    exact ((uses_of_switchCases found).append (.refl _)).trans whole

/-! ## Blocks -/

theorem keeps_emitBlock (items : List Form) :
    Tries (EmitState.Keeps marks) (items.flatMap formUses)
      (emitBlock emit items) := by
  refine .parse fun (locals, body) found => ?_
  refine .known (.mapM fun form _ => (tries_readLocal _ form).keeps)
    (Gives.mapM (gives_readLocal _) locals) fun declared fits => ?_
  refine .mono (.lift (keeps_inScope ?_))
    ((fits.append (.refl _)).trans (uses_of_blockParts found))
  refine .bind (.forM fun (name, type) _ => ?_) fun _ =>
    keeps_emitSequence emits body
  exact .last (does_declareSlot name type).keeps fun _ => .pure ()

/-! ## Unwinding -/

omit emits in
theorem does_declareNoReturn (name : String) (parameters : List TypeId) :
    Does EmitState.Plainly [] (declareNoReturn name parameters) := by
  refine .step (does_types _) fun void => ?_
  refine .step (does_declareFunction name void parameters false) fun id => ?_
  exact .step (does_onBuilder (Builder.computes_addAttributes id
    (by decide))) fun _ => .pure id

omit emits in
theorem does_throwingCall (personality : Personality) :
    Does EmitState.Plainly [] (throwingCall personality) := by
  refine .step (does_types _) fun pointer => ?_
  split
  · refine .step (does_declareNoReturn _ _) fun routine => ?_
    exact .step (does_onBuilder (Builder.computes_constantZero _))
      fun null => .pure _
  · refine .step (does_types _) fun word => ?_
    refine .step (does_declareNoReturn _ _) fun routine => ?_
    have number (value : Int) :=
      does_onBuilder (Builder.computes_constantInt word value)
    refine .step (number _) fun code => .step (number _) fun flags => ?_
    refine .step (number _) fun count => ?_
    exact .step (does_onBuilder (Builder.computes_constantZero _))
      fun null => .pure _

omit emits in
theorem does_emitTrap : Does EmitState.Plainly [] emitTrap := by
  refine .step (does_declareNoReturn _ _) fun trap => ?_
  refine .step (does_onBuilder (Builder.computes_functionAddress _))
    fun callee => ?_
  exact .step (does_onBuilder (Builder.computes_call _ _ _)) fun _ =>
    does_onBuilder Builder.computes_unreachable

omit emits in
theorem keeps_emitThrow (personality : Personality) :
    Does (EmitState.Keeps (.under personality :: marks)) []
      (emitThrow personality) := by
  refine .step (does_throwingCall personality).keeps
    fun (routine, arguments) => ?_
  refine .opening (opens_unwindTarget personality) fun unwind => ?_
  refine .step does_freshId.keeps fun id => .append fun next => ?_
  refine .step (does_onBuilder (Builder.computes_functionAddress _)).keeps
    fun callee => ?_
  refine .step (keeps_invoke personality callee arguments "" (by simp)
    (by simp) (by simp)) fun _ => ?_
  exact .step (keeps_positionAtEnd (by simp)) fun _ =>
    (does_onBuilder Builder.computes_unreachable).keeps

omit emits in
theorem keeps_emitPanic : Tries (EmitState.Keeps marks) uses emitPanic := by
  have traps {marks : List Landmark} :
      Tries (EmitState.Keeps marks) uses (liftM emitTrap : Handler Unit) :=
    .mono (.lift does_emitTrap.keeps) List.nil_subperm
  refine .personality traps fun personality => ?_
  refine .step (.lift does_read.keeps) fun _ => .ite ?_ traps
  exact .mono (.lift (keeps_emitThrow personality)) List.nil_subperm

theorem keeps_emitUnprotected (id : Nat) {bodyBlock : BlockId}
    (body handler : List Form) (opened : .opened bodyBlock ∈ marks) :
    Does (EmitState.Keeps marks)
      (body.flatMap formUses ++ handler.flatMap formUses)
      (emitUnprotected emit id bodyBlock body handler) := by
  refine .append fun endBlock => ?_
  have body' := List.mem_cons_of_mem (.opened endBlock) opened
  refine .step (keeps_branch body') fun _ => ?_
  refine .step (keeps_positionAtEnd body') fun _ => ?_
  refine .bind (keeps_emitSequence emits body) fun _ => ?_
  refine .last (keeps_emitSequence emits handler) fun _ => ?_
  exact .step (keeps_fallThrough (by simp)) fun _ =>
    keeps_positionAtEnd (by simp)

/-- A body that is protected by a handler, and the handler. -/
theorem keeps_protected {personality : Personality}
    {padBlock bodyBlock handlerBlock endBlock : BlockId}
    (body handler : List Form) (pad : .pad padBlock ∈ marks)
    (start : .opened bodyBlock ∈ marks)
    (handled : .opened handlerBlock ∈ marks)
    (goesOn : .opened endBlock ∈ marks) :
    Does (EmitState.Keeps marks)
      (body.flatMap formUses ++ handler.flatMap formUses) (do
        protectedBy personality padBlock (emitArm emit bodyBlock body endBlock)
        emitArm emit handlerBlock handler endBlock
        liftM (Builder.positionAtEnd endBlock)) := by
  refine .bind (keeps_protectedBy pad (keeps_emitArm emits body start goesOn))
    fun _ => ?_
  exact .last (keeps_emitArm emits handler handled goesOn)
    fun _ => keeps_positionAtEnd goesOn

theorem keeps_emitWithLandingPad (id : Nat) {bodyBlock : BlockId}
    (body handler : List Form) (under : .under .itanium ∈ marks)
    (opened : .opened bodyBlock ∈ marks) :
    Does (EmitState.Keeps marks)
      (body.flatMap formUses ++ handler.flatMap formUses)
      (emitWithLandingPad emit id bodyBlock body handler) := by
  rw [emitWithLandingPad_eq]
  refine .opening (opens_landing under opened _ _ _) fun blocks => ?_
  exact keeps_protected emits body handler (by simp) (by simp [opened])
    (by simp) (by simp)

theorem keeps_emitWithFunclet (id : Nat) {bodyBlock : BlockId}
    (body handler : List Form) (under : .under .seh ∈ marks)
    (opened : .opened bodyBlock ∈ marks) :
    Does (EmitState.Keeps marks)
      (body.flatMap formUses ++ handler.flatMap formUses)
      (emitWithFunclet emit id bodyBlock body handler) := by
  rw [emitWithFunclet_eq]
  refine .opening (opens_dispatching under opened _ _ _ _) fun blocks => ?_
  exact keeps_protected emits body handler (by simp) (by simp [opened])
    (by simp) (by simp)

theorem keeps_emitTry (items : List Form) :
    Tries (EmitState.Keeps marks) (items.flatMap formUses)
      (emitTry emit items) := by
  refine .parse fun arguments read => ?_
  obtain rfl := KeywordArguments.follow_eq_ok read
  rw [List.drop_one]
  refine .orFail_step _ fun body found => ?_
  have parts := KeywordArguments.uses_of_vectors ["body", "catch"]
    (by decide) items.tail
  rw [List.flatMap_cons, List.flatMap_singleton, found] at parts
  refine .mono ?_ (parts.trans
    ((List.tail_sublist items).flatMap formUses).subperm)
  refine .step (.lift does_freshId.keeps) fun id => ?_
  refine .append fun bodyBlock => .personality ?_ fun personality => ?_
  · exact .lift (keeps_emitUnprotected emits id body _ (by simp))
  · cases personality with
    | itanium =>
        exact .lift (keeps_emitWithLandingPad emits id body _ (by simp)
          (by simp))
    | seh =>
        exact .lift (keeps_emitWithFunclet emits id body _ (by simp)
          (by simp))

/-! ## Matches -/

theorem keeps_emitMatchArm (result : Option MatchResult) {endBlock : BlockId}
    (arm : Arm) (goesOn : .opened endBlock ∈ marks) :
    Does (EmitState.Keeps marks) (arm.body.flatMap formUses)
      (emitMatchArm emit result endBlock arm) := by
  refine .last (keeps_emitSequence emits arm.body) fun _ => ?_
  refine .step does_currentBlock?.keeps fun current => ?_
  split
  · exact .pure []
  · refine .step does_isTerminated.keeps fun terminated => ?_
    refine .ite (.pure []) ?_
    split
    · exact .step (.pure []) fun _ => .step (keeps_branch goesOn) fun _ =>
        .pure _
    · refine .step (does_armValue _ _).keeps fun value => ?_
      refine .step does_module.keeps fun module => ?_
      exact .step (.pure _) fun _ => .step (keeps_branch goesOn) fun _ =>
        .pure _

omit emits in
/-- The blocks of an arm. -/
def PlacedArm.shown (entry : PlacedArm) : List Landmark :=
  [.opened entry.testBlock, .opened entry.bodyBlock]

omit emits in
theorem mem_firstArmTest {noMatch : BlockId} {placed : List PlacedArm}
    (otherwise : .opened noMatch ∈ marks)
    (shown : placed.flatMap PlacedArm.shown ⊆ marks) :
    .opened (firstArmTest noMatch placed) ∈ marks := by
  cases placed with
  | nil => exact otherwise
  | cons entry rest => exact shown (by simp [firstArmTest, PlacedArm.shown])

theorem keeps_emitMatchCases (result : Option MatchResult)
    (scrutinee tag : Value) {noMatch endBlock : BlockId}
    {placed : List PlacedArm} (otherwise : .opened noMatch ∈ marks)
    (goesOn : .opened endBlock ∈ marks)
    (shown : placed.flatMap PlacedArm.shown ⊆ marks) :
    Does (EmitState.Keeps marks)
      (placed.flatMap fun entry => armUses entry.tagged.arm)
      (emitMatchCases emit result scrutinee tag noMatch endBlock placed) := by
  induction placed with
  | nil => exact .pure []
  | cons entry rest ih =>
      rw [List.flatMap_cons, List.append_subset] at shown
      obtain ⟨own, others⟩ := shown
      have body : .opened entry.bodyBlock ∈ marks :=
        own (by simp [PlacedArm.shown])
      refine .step (keeps_positionAtEnd (own (by simp [PlacedArm.shown])))
        fun _ => ?_
      refine .step (does_onBuilder (Builder.computes_constantI32 _)).keeps
        fun expected => ?_
      refine .step (does_onBuilder
        (Builder.computes_compareInt _ _ _ _)).keeps fun hit => ?_
      refine .step (keeps_branchIf hit body
        (mem_firstArmTest otherwise others)) fun _ => ?_
      refine .step (keeps_positionAtEnd body) fun _ => ?_
      rw [List.flatMap_cons, armUses, List.append_assoc]
      refine .bind (Does.keeps (tries_bindPayload scrutinee _))
        fun outcome => ?_
      have rests (_ : PUnit) : Does (EmitState.Keeps marks)
          (entry.tagged.arm.body.flatMap formUses ++
            rest.flatMap fun entry => armUses entry.tagged.arm) (do
          let edges ← emitMatchArm emit result endBlock entry.tagged.arm
          let later ← emitMatchCases emit result scrutinee tag noMatch
            endBlock rest
          pure (edges ++ later)) :=
        .bind (keeps_emitMatchArm emits result _ goesOn) fun edges =>
          .last (ih others) fun later => .pure _
      split
      · exact rests ⟨⟩
      · exact .step (does_report _ _).keeps rests

omit emits in
theorem opens_placeArms (arms : List TaggedArm) (id : Nat) :
    Opens marks (fun placed => placed.flatMap PlacedArm.shown)
      (placeArms arms id) := by
  have numbered {marks : List Landmark} (stem : String) :
      Opens marks (fun blocks => blocks.flatMap fun block => [.opened block])
        (appendNumbered stem arms.length id) :=
    .mapM (fun _ => opens_appendBlock _) _
  refine (numbered "match.case").bind fun tests => ?_
  refine (numbered "match.body").bind fun bodies => .pure ?_
  intro mark member
  obtain ⟨placed, among, shown⟩ := List.mem_flatMap.mp member
  obtain ⟨⟨arm, test, body⟩, zipped, rfl⟩ := List.mem_map.mp among
  have inside := List.of_mem_zip (List.of_mem_zip zipped).2
  simp only [PlacedArm.shown, List.mem_cons, List.not_mem_nil, or_false]
    at shown
  rcases shown with rfl | rfl
  · simp [inside.1]
  · simp [inside.2]

theorem keeps_emitMatchBlocks (result : Option MatchResult)
    (scrutinee tag : Value) (arms : List TaggedArm) (default : Option Arm) :
    Does (EmitState.Keeps marks)
      ((arms.flatMap fun tagged => armUses tagged.arm) ++
        default.toList.flatMap armUses)
      (emitMatchBlocks emit result scrutinee tag arms default) := by
  refine .step does_freshId.keeps fun id => ?_
  refine .openingKnown (opens_placeArms arms id) (yields_placeArms arms id)
    fun placed inside => ?_
  have fewer : List.Subperm
      (placed.flatMap fun entry => armUses entry.tagged.arm)
      (arms.flatMap fun tagged => armUses tagged.arm) := by
    have mapped :=
      (inside.flatMap fun tagged => armUses tagged.arm).subperm
    rwa [List.flatMap_map] at mapped
  refine .step does_currentBlock?.keeps fun start => ?_
  split
  · next arm =>
      refine .mono ?_ (fewer.append (.refl _))
      refine .append fun defaultBlock => .append fun endBlock => ?_
      have shown : placed.flatMap PlacedArm.shown ⊆ .opened endBlock ::
          .opened defaultBlock ::
            (placed.flatMap PlacedArm.shown ++ marks) := by
        grind
      refine .step (keeps_branch (mem_firstArmTest (by simp) shown))
        fun _ => ?_
      refine .bind (keeps_emitMatchCases emits result scrutinee tag (by simp)
        (by simp) shown) fun edges => ?_
      refine .step (keeps_positionAtEnd (by simp)) fun _ => ?_
      refine .last (.mono (keeps_emitMatchArm emits result arm (by simp)) ?_)
        fun last => .step (keeps_positionAtEnd (by simp)) fun _ => .pure _
      simpa [armUses] using (List.sublist_append_right
        (arm.bindings.flatMap bindingUses) _).subperm
  · rw [Option.toList_none, List.flatMap_nil, List.append_nil]
    refine .mono ?_ fewer
    refine .append fun endBlock => ?_
    have shown : placed.flatMap PlacedArm.shown ⊆ .opened endBlock ::
        (placed.flatMap PlacedArm.shown ++ marks) := by
      grind
    refine .step (keeps_branch (mem_firstArmTest (by simp) shown)) fun _ => ?_
    refine .last (keeps_emitMatchCases emits result scrutinee tag (by simp)
      (by simp) shown) fun edges => ?_
    refine .step (keeps_positionAtEnd (by simp)) fun _ => ?_
    dsimp only
    split
    · refine .step (does_onBuilder (Builder.computes_constantUndef _)).keeps
        fun undefined => ?_
      exact .step does_module.keeps fun _ => .pure _
    · exact .pure _

omit emits in
theorem tries_defaultArm (form : Option Form) :
    Tries EmitState.Plainly [] (form.mapM readDefault) := by
  cases form with
  | none => exact .pure none
  | some form => exact .map (tries_readDefault form) some

theorem keeps_emitMatch (items : List Form) :
    Tries (EmitState.Keeps marks)
      (items.flatMap formUses ++ opcodeUses .sumMatch items)
      (emitMatch emit items) := by
  refine .known (tries_readResult items).keeps (gives_readResult items) ?_
  rintro ⟨result, rest⟩ ⟨resultFits, inside⟩
  refine .parse fun sum _ => .orFail_step _ fun scrutineeForm _ => ?_
  refine .step (.lift does_read.keeps) fun environment => ?_
  refine .orFail_step _ fun layout _ => ?_
  refine .known (tries_readCases layout sum _).keeps
    (gives_readCases layout sum _) fun arms armsFit => ?_
  refine .known (tries_defaultArm _).keeps (gives_defaultArm _)
    fun default defaultFits => ?_
  refine .step (tries_sumOperand scrutineeForm layout _).keeps
    fun scrutinee => ?_
  refine .step (.lift (does_onBuilder
    (Builder.computes_fieldPointer _ _ _)).keeps) fun found => ?_
  refine .orFail_step _ fun tagAddress _ => ?_
  refine .step (.lift (does_onBuilder (Builder.computes_load _ _)).keeps)
    fun found => ?_
  refine .orFail_step _ fun tag _ => ?_
  refine .mono ?_ (((armsFit.append defaultFits).trans
    (uses_of_matchParts inside)).append resultFits)
  refine .bind (.lift (keeps_emitMatchBlocks emits result scrutinee tag arms
    default)) fun (endBlock, incoming) => ?_
  dsimp only
  split
  · next result =>
      refine .step (.lift (does_placePhi _ _ _ _).keeps) fun phi => ?_
      have notes : Does EmitState.Plainly [] (modify fun state =>
          { state with
            matchEnds := state.matchEnds ++ [(endBlock, result.type)] }) :=
        fun _ _ => .of_same rfl rfl rfl rfl
      refine .step (.lift notes.keeps) fun _ => ?_
      simpa using (tries_define result.destination phi result.type).keeps
  · exact .pure ()

/-! ## Forms -/

omit emits in
theorem keeps_buildInvocation (callee : Value) (arguments : List Value)
    (name : String) :
    Does (EmitState.Keeps marks) []
      (buildInvocation callee arguments name) := by
  refine .step does_tables.keeps fun table => .ite (.pure none) ?_
  refine .personality (does_onBuilder (Builder.computes_call _ _ _)).keeps
    fun personality => ?_
  refine .opening (opens_unwindTarget personality) fun unwind => ?_
  refine .step does_freshId.keeps fun id => .append fun next => ?_
  refine .step (keeps_invoke personality callee arguments name (by simp)
    (by simp) (by simp)) fun value => ?_
  exact .step (keeps_positionAtEnd (by simp)) fun _ => .pure value

omit emits in
theorem keeps_emitCall (items : List Form) :
    Tries (EmitState.Keeps marks) (usesAt results items 1)
      (emitCall items) := by
  refine .ite (.throw _) (.parse fun destination found => ?_)
  rw [usesAt_eq found]
  refine .parse fun _ _ => .step (tries_typeOf _).keeps fun result => ?_
  refine .parse fun name _ => .parse fun forms _ => ?_
  refine .step (tries_calledFunction name result forms).keeps
    fun (id, arguments) => ?_
  refine .step (.lift does_tables.keeps) fun table => ?_
  refine .step (.lift does_module.keeps) fun module => ?_
  refine .step (tries_expectType _ result _).keeps fun _ => ?_
  refine .step (.lift (does_onBuilder
    (Builder.computes_functionAddress _)).keeps) fun callee => ?_
  refine .step (.lift (keeps_buildInvocation callee arguments destination))
    fun found => ?_
  refine .orFail_step _ fun value _ => ?_
  exact (tries_defineResult destination value result).keeps

/-- A form of an opcode uses names as it shows. -/
theorem keeps_dispatch (opcode : Opcode) (items : List Form) :
    Tries (EmitState.Keeps marks)
      (opcodeUses opcode items ++ items.flatMap formUses)
      (dispatch emit opcode items) := by
  have nested {handler : Handler Unit}
      (tries : Tries (EmitState.Keeps marks) (items.flatMap formUses) handler) :
      Tries (EmitState.Keeps marks) (opcodeUses opcode items ++
        items.flatMap formUses) handler :=
    tries.mono (List.sublist_append_right _ _).subperm
  have own {handler : Handler Unit}
      (tries :
        Tries (EmitState.Keeps marks) (opcodeUses opcode items) handler) :
      Tries (EmitState.Keeps marks) (opcodeUses opcode items ++
        items.flatMap formUses) handler :=
    tries.mono (List.sublist_append_left _ _).subperm
  cases opcode with
  | conditional => exact nested (keeps_emitConditional emits items)
  | whileLoop => exact nested (keeps_emitWhile emits items)
  | forLoop => exact nested (keeps_emitFor emits items)
  | switch => exact nested (keeps_emitSwitch emits items)
  | sumMatch =>
      exact (keeps_emitMatch emits items).mono List.perm_append_comm.subperm
  | breakLoop => exact keeps_emitBreak items
  | continueLoop => exact keeps_emitContinue items
  | block => exact nested (keeps_emitBlock emits items)
  | phi => exact own (tries_emitPhi items).keeps
  | ret => exact own (tries_emitReturn items).keeps
  | panic => exact keeps_emitPanic
  | tryCatch => exact nested (keeps_emitTry emits items)
  | constant => exact own (tries_emitConstant items).keeps
  | binary operator => exact own (tries_emitBinary operator items).keeps
  | comparison relation => exact own (tries_emitComparison relation items).keeps
  | compareInt => exact own (tries_emitCompareInt items).keeps
  | compareFloat => exact own (tries_emitCompareFloat items).keeps
  | cast operator => exact own (tries_emitCast operator items).keeps
  | pointerAdd => exact own (tries_emitPointerOffset false items).keeps
  | pointerSub => exact own (tries_emitPointerOffset true items).keeps
  | pointerDiff => exact own (tries_emitPointerDiff items).keeps
  | localVariable => exact own (tries_emitVariable items).keeps
  | assign => exact own (tries_emitAssign items).keeps
  | alloca => exact own (tries_emitAlloca items).keeps
  | load => exact own (tries_emitLoad items).keeps
  | store => exact own (tries_emitStore items).keeps
  | loadGlobal => exact own (tries_emitLoadGlobal items).keeps
  | storeGlobal => exact own (tries_emitStoreGlobal items).keeps
  | index => exact own (tries_emitIndex items).keeps
  | arrayLiteral => exact own (tries_emitArrayLiteral items).keeps
  | structLiteral => exact own (tries_emitStructLiteral items).keeps
  | member => exact own (tries_emitMember items).keeps
  | memberAddress => exact own (tries_emitMemberAddress items).keeps
  | unionMember => exact own (tries_emitUnionMember items).keeps
  | address => exact own (tries_emitAddress items).keeps
  | dereference => exact own (tries_emitDereference items).keeps
  | functionPointer => exact own (tries_emitFunctionPointer items).keeps
  | call => exact own (keeps_emitCall items)
  | callIndirect => exact own (tries_emitCallIndirect items).keeps
  | vaStart => exact own (tries_emitVaStart items).keeps
  | vaArg => exact own (tries_emitVaArg items).keeps
  | vaEnd => exact own (tries_emitVaEnd items).keeps
  | textLiteral => exact own (tries_emitTextLiteral items).keeps
  | bytesLiteral => exact own (tries_emitBytesLiteral items).keeps
  | closure => exact own (tries_emitClosure items).keeps
  | makeClosure => exact own (tries_emitMakeClosure items).keeps
  | callClosure => exact own (tries_emitCallClosure items).keeps
  | coroutine step => exact own (tries_emitCoroutineStep step items).keeps
  | sumNew => exact own (tries_emitSumNew items).keeps
  | sumIs => exact own (tries_emitSumIs items).keeps
  | sumGet => exact own (tries_emitSumGet items).keeps

theorem keeps_emitList {form : Form} (found : form.list? = some items) :
    Does (EmitState.Keeps marks) (formUses form)
      (emitList emit form items) := by
  have moves (span : Option Span) : Does (EmitState.Keeps marks) []
      (modify fun state => { state with span } : Emission Unit) :=
    Does.keeps fun _ _ => .of_same rfl rfl rfl rfl
  refine .step does_get.keeps fun state => .step (moves _) fun _ => ?_
  refine .last ?_ fun _ => moves _
  dsimp only
  rw [formUses_of_list found]
  split
  · next opcode isOpcode =>
      have own : ownUses form = opcodeUses opcode items := by
        unfold ownUses
        rw [formRole_of_opcode isOpcode, found]
        rfl
      rw [own]
      refine .last (keeps_dispatch emits opcode items) fun outcome => ?_
      split
      · exact .pure ()
      · exact (does_report _ _).keeps
  · exact .mono (does_report _ _).keeps List.nil_subperm

end Constructs

/-- Emitting a form uses the names that the form shows, and a guarded module
stays guarded. -/
theorem keeps_emitWithin (depth : Nat) (form : Form) :
    Does (EmitState.Keeps []) (formUses form) (emitWithin depth form) := by
  induction depth generalizing form with
  | zero => exact .mono (does_report _ _).keeps List.nil_subperm
  | succ depth ih =>
      unfold emitWithin
      split
      · next items found => exact keeps_emitList ih found
      · exact .mono (does_report _ _).keeps List.nil_subperm

theorem keeps_emitForm (form : Form) :
    Does (EmitState.Keeps []) (formUses form) (emitForm form) :=
  keeps_emitWithin form.height form

end FormCompiler
