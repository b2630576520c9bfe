import FormCompiler.Emit.Branching
import FormCompiler.Emit.Invocation
import FormCompiler.Proofs.Chains

/-!
# Branches, loops and blocks are orderly

Every block that one of these constructs adds is ended by the time the
construct is complete, but for the one it continues in.
-/

namespace FormCompiler

open Ir

open EmitState (Stage IsTarget)

variable {scene : Scene} {origin : EmitState} {owed : List BlockId}
  {known : EmitState → Prop} {emit : FormEmitter}

/-! ## Conditions -/

theorem emits_conditionValue (name : String) :
    Emits scene (fun _ => True) (conditionValue name) fun table found =>
      ∀ value ∈ found, IntegerIfTyped table value := by
  have searches : Emits scene (fun _ => True) (getValue name)
      fun table found => ∀ value ∈ found, IntegerIfTyped table value :=
    (searches_getValue name).weaken fun _ _ typed value member =>
      .of_typed (typed value member)
  unfold conditionValue
  refine .look (fun _ => rfl) fun _ _ _ => ?_
  refine .ite (fun _ => searches.given (by tauto)) fun _ => ?_
  refine .step (emits_recomputed name) (fun _ holds => holds) fun found => ?_
  cases found with
  | none => exact searches.given (by tauto)
  | some value => exact .pure (by tauto)

/-- A condition is of one bit. -/
theorem handles_condition (form : Form) :
    Handles scene (fun _ => True) (condition form)
      fun _ value => value.operand.type = .int 1 := by
  unfold condition
  split
  · exact (Handles.lift (emits_constantBool _)).weaken fun _ _ both => both.2
  · refine .orFail_step _ fun name _ => ?_
    refine .step (.lift (emits_conditionValue name)) (fun _ holds => holds)
      fun found => ?_
    refine .orFail_step _ fun value same => ?_
    refine .look (fun _ => rfl) fun state _ holds => ?_
    have integer := holds.2 value same
    split
    · next width =>
        exact .pure fun _ _ => integer.operand 1 width
    · refine .step (.lift (emits_constantInt value.type 0)) ?_ fun zero => ?_
      · exact fun table both => integer.has.mono both.2
      exact (Handles.lift (emits_compareInt .ne value zero _)).weaken
        fun _ _ both => both.2
    · refine .look (fun _ => rfl) fun _ _ _ => ?_
      exact .throw _

/-- Blocks are named for the construct they are part of. -/
theorem named {stem : String} (named : nameBeforeNul stem ≠ "") (id : Nat) :
    nameBeforeNul (stem ++ toString id) ≠ "" :=
  nameBeforeNul_append _ named

theorem proceeds_emitBranches
    (advances : ∀ form, Advances scene (emit form)) {test : Value}
    (bit : test.operand.type = .int 1) (thenBody : List Form)
    (elseBody : Option (List Form)) :
    Proceeds scene (Writing scene origin owed fun _ => True)
      (emitBranches emit test thenBody elseBody)
      fun _ => Writing scene origin owed fun _ => True := by
  unfold emitBranches
  refine .bind (.quietly emits_freshId) fun id => ?_
  refine .bind (.append [] (named (by decide) id)) fun thenBlock => ?_
  cases elseBody with
  | some elseBody =>
      refine .bind (.append [thenBlock] (named (by decide) id))
        fun elseBlock => ?_
      refine .bind (.append [thenBlock, elseBlock] (named (by decide) id))
        fun endBlock => ?_
      refine .bind (.branchIf bit (by tauto)) fun _ => ?_
      refine .bind (.arm advances thenBlock thenBody (by tauto)) fun _ => ?_
      refine .bind (.arm advances elseBlock elseBody (by tauto)) fun _ => ?_
      exact (Proceeds.position endBlock).weaken
        fun _ _ writing => writing.imp fun _ => trivial
  | none =>
      refine .bind (.append [thenBlock] (named (by decide) id))
        fun endBlock => ?_
      refine .bind (.branchIf bit (by tauto)) fun _ => ?_
      refine .bind (.arm advances thenBlock thenBody (by tauto)) fun _ => ?_
      exact (Proceeds.position endBlock).weaken
        fun _ _ writing => writing.imp fun _ => trivial

theorem orderly_emitConditional
    (advances : ∀ form, Advances scene (emit form)) (items : List Form) :
    Orderly scene (emitConditional emit items) := by
  intro origin owed
  unfold emitConditional
  refine .ite (fun _ => .throw_bind _) fun _ => ?_
  refine .parse fun thenBody _ => ?_
  refine .parse fun elseBody _ => ?_
  refine .parse fun testForm _ => ?_
  refine .quietly (handles_condition testForm) fun test => ?_
  intro state writing
  exact Concludes.last (proceeds_emitBranches advances writing.holds.2
    thenBody elseBody) state (writing.imp fun _ => trivial)

/-! ## Loops -/

theorem proceeds_report [Lasting known] (operation : String)
    (cause : ProblemCause) :
    Proceeds scene (Writing scene origin owed known)
      (report operation cause) fun _ => Writing scene origin owed known := by
  exact (Proceeds.quietly (emits_report operation cause)).weaken
    fun _ _ writing => writing.imp And.left

theorem proceeds_branchOn [Enduring known] (form : Form)
    {thenBlock elseBlock : BlockId}
    (allowed : ∀ state, known state → IsTarget scene origin thenBlock state ∧
      IsTarget scene origin elseBlock state) :
    Proceeds scene (Writing scene origin owed known)
      (branchOn form thenBlock elseBlock)
      fun _ => Leaving scene origin owed known := by
  unfold branchOn
  refine .bind (.quietly (handles_condition form)) fun outcome => ?_
  cases outcome with
  | ok value =>
      intro state writing
      exact Proceeds.branchIf (writing.holds.2 value rfl) allowed state
        (writing.imp And.left)
  | error cause =>
      refine Proceeds.given ?_ fun _ writing => writing.imp And.left
      refine .bind (proceeds_report _ cause) fun _ => ?_
      exact .branch fun state holds => (allowed state holds).2

theorem proceeds_pushLoop [Enduring known] {cursor : Bool → Prop}
    {targets : LoopTargets}
    (allowed : ∀ state, known state →
      IsTarget scene origin targets.breakTo state ∧
      IsTarget scene origin targets.continueTo state) :
    Proceeds scene (At scene origin cursor owed known)
      (modifyContext (·.pushLoop targets))
      fun _ => At scene origin cursor owed known := by
  intro state at_
  have names := at_.stage.sound.context
  apply at_.withEscapes (state.context.pushLoop targets) state.unwindTargets
    ⟨names.values, names.types, names.slots⟩
  rintro block (⟨inner, member, leads⟩ | others)
  · rcases List.mem_cons.mp member with rfl | outer
    · right
      rcases leads with rfl | rfl
      · exact (allowed state at_.holds).1
      · exact (allowed state at_.holds).2
    · exact .inl (.inl ⟨inner, outer, leads⟩)
  · exact .inl (.inr others)

theorem proceeds_popLoop [Enduring known] {cursor : Bool → Prop} :
    Proceeds scene (At scene origin cursor owed known)
      (modifyContext (·.popLoop))
      fun _ => At scene origin cursor owed known :=
  .names (fun _ _ names => ⟨names.values, names.types, names.slots⟩)
    fun _ _ member => List.mem_of_mem_tail member

theorem proceeds_emitLoopBody [Enduring known]
    (advances : ∀ form, Advances scene (emit form)) {targets : LoopTargets}
    {block next : BlockId} (body : List Form)
    (allowed : ∀ state, known state →
      IsTarget scene origin targets.breakTo state ∧
      IsTarget scene origin targets.continueTo state ∧
      IsTarget scene origin next state) :
    Proceeds scene (Leaving scene origin (block :: owed) known)
      (emitLoopBody emit targets block body next)
      fun _ => Leaving scene origin owed known := by
  unfold emitLoopBody
  refine .bind (proceeds_pushLoop fun state holds => ?_) fun _ => ?_
  · exact ⟨(allowed state holds).1, (allowed state holds).2.1⟩
  refine .bind (.arm advances block body fun state holds => ?_) fun _ => ?_
  · exact (allowed state holds).2.2
  exact proceeds_popLoop

theorem orderly_emitWhile (advances : ∀ form, Advances scene (emit form))
    (items : List Form) : Orderly scene (emitWhile emit items) := by
  intro origin owed
  unfold emitWhile
  refine .parse fun _ _ => ?_
  refine .parse fun body _ => ?_
  refine .parse fun test _ => ?_
  refine .step (.quietly emits_freshId) fun id => ?_
  refine .step (.append [] (named (by decide) id)) fun testBlock => ?_
  refine .step (.append [testBlock] (named (by decide) id))
    fun bodyBlock => ?_
  refine .step (.append [testBlock, bodyBlock] (named (by decide) id))
    fun endBlock => ?_
  refine .step (.branch (by tauto)) fun _ => ?_
  refine .step (.position testBlock) fun _ => ?_
  refine .step (proceeds_branchOn test (by tauto)) fun _ => ?_
  refine .step (proceeds_emitLoopBody advances body (by tauto)) fun _ => ?_
  exact .last (.position endBlock)

theorem proceeds_emitForBlocks
    (advances : ∀ form, Advances scene (emit form)) (id : Nat)
    (test : Option Form) (step body : List Form) :
    Proceeds scene (Writing scene origin owed fun _ => True)
      (emitForBlocks emit id test step body)
      fun _ => Passing scene origin owed fun _ => True := by
  unfold emitForBlocks
  refine .bind (.append [] (named (by decide) id)) fun testBlock => ?_
  refine .bind (.append [testBlock] (named (by decide) id))
    fun bodyBlock => ?_
  refine .bind (.append [testBlock, bodyBlock] (named (by decide) id))
    fun stepBlock => ?_
  refine .bind (.append [testBlock, bodyBlock, stepBlock]
    (named (by decide) id)) fun endBlock => ?_
  refine .bind (.branch (by tauto)) fun _ => ?_
  refine .bind (.position testBlock) fun _ => ?_
  have rest : Proceeds scene
      (Leaving scene origin (bodyBlock :: stepBlock :: endBlock :: owed)
        fun state => (((True ∧ IsTarget scene origin testBlock state) ∧
          IsTarget scene origin bodyBlock state) ∧
          IsTarget scene origin stepBlock state) ∧
          IsTarget scene origin endBlock state)
      (do
        emitLoopBody emit ⟨endBlock, stepBlock⟩ bodyBlock body stepBlock
        emitArm emit stepBlock step testBlock
        Builder.positionAtEnd endBlock)
      fun _ => Passing scene origin owed fun _ => True := by
    refine .bind (proceeds_emitLoopBody advances body (by tauto)) fun _ => ?_
    refine .bind (.arm advances stepBlock step (by tauto)) fun _ => ?_
    exact (Proceeds.position endBlock).weaken
      fun _ _ writing => writing.forget.imp fun _ => trivial
  cases test with
  | some test =>
      exact .bind (proceeds_branchOn test (by tauto)) fun _ => rest
  | none => exact .bind (.branch (by tauto)) fun _ => rest

theorem orderly_emitFor (advances : ∀ form, Advances scene (emit form))
    (items : List Form) : Orderly scene (emitFor emit items) := by
  intro origin owed
  unfold emitFor
  refine .parse fun arguments _ => ?_
  refine .orFail_step _ fun body _ => ?_
  refine .step (.quietly emits_freshId) fun id => ?_
  refine .step ((Proceeds.sequence advances _).given
    fun _ writing => writing.forget) fun _ => ?_
  refine .look (fun _ => rfl) fun ended => .ite (fun _ => ?_) fun isOpen => ?_
  · exact (Concludes.pure ()).given fun _ both => both.1
  · refine (Concludes.last (proceeds_emitForBlocks advances id _ _ body)).given
      fun state both => ?_
    refine ⟨both.1.stage, ?_, trivial⟩
    exact both.2.trans (Bool.eq_false_iff.mpr isOpen)

/-- A way out of a loop. -/
theorem orderly_leave (shape : Except ProblemCause Unit)
    (target : LoopTargets → BlockId)
    (leads : ∀ targets, target targets = targets.breakTo ∨
      target targets = targets.continueTo) :
    Orderly scene (do
      shape
      match (← context).innermostLoop? with
      | some targets => Builder.branch (target targets)
      | none => pure ()) := by
  intro origin owed
  refine .parse fun _ _ => ?_
  refine .look (fun _ => rfl) fun context => ?_
  cases found : context.innermostLoop? with
  | none => exact (Concludes.pure ()).given fun _ both => both.1
  | some targets =>
      intro state both
      obtain ⟨writing, rfl⟩ := both
      have escapes : state.Escapes (target targets) :=
        .inl ⟨targets, List.mem_of_head? found, leads targets⟩
      have branches : Proceeds scene
          (Writing scene origin owed (IsTarget scene origin (target targets)))
          (liftM (Builder.branch (target targets)) : Emission Unit)
          fun _ => Leaving scene origin owed
            (IsTarget scene origin (target targets)) :=
        .branch fun _ holds => holds
      exact Concludes.last branches state
        (writing.imp fun _ => writing.stage.escape escapes)

theorem orderly_emitBreak (items : List Form) :
    Orderly scene (emitBreak items) :=
  orderly_leave _ LoopTargets.breakTo fun _ => .inl rfl

theorem orderly_emitContinue (items : List Form) :
    Orderly scene (emitContinue items) :=
  orderly_leave _ LoopTargets.continueTo fun _ => .inr rfl

/-! ## Switches -/

/-- A case as control flow has it. -/
def PlacedCase.route (placed : PlacedCase) : Route :=
  ⟨placed.value.toInt, placed.testBlock, placed.bodyBlock⟩

/-- What is emitted for a case. -/
def PlacedCase.emitted (emit : FormEmitter) (placed : PlacedCase) :
    Route × Emission Unit :=
  (placed.route, emitSequence emit placed.body)

theorem firstTest_eq (noMatch : BlockId) (placed : List PlacedCase) :
    firstTest noMatch placed =
      Route.first noMatch (placed.map PlacedCase.route) := by
  cases placed <;> rfl

/-- All blocks of cases may be led to. -/
def RoutesAllowed (scene : Scene) (origin : EmitState) (routes : List Route)
    (state : EmitState) : Prop :=
  ∀ route ∈ routes, IsTarget scene origin route.testBlock state ∧
    IsTarget scene origin route.bodyBlock state

instance (routes : List Route) :
    Enduring (RoutesAllowed scene origin routes) := by
  unfold RoutesAllowed
  infer_instance

theorem proceeds_placeCase [Enduring known] (id : Nat)
    (entry : Int64 × List Form) (front : List BlockId) :
    Proceeds scene (Writing scene origin (front ++ owed) known)
      (placeCase id entry)
      fun placed => Writing scene origin
        (front ++ placed.route.blocks ++ owed) fun state =>
          (known state ∧ (placed.value, placed.body) = entry) ∧
          IsTarget scene origin placed.testBlock state ∧
          IsTarget scene origin placed.bodyBlock state := by
  have named {stem : String} (stemNamed : nameBeforeNul stem ≠ "") :
      nameBeforeNul (stem ++ toString entry.1.toInt ++ "." ++
        toString id) ≠ "" :=
    nameBeforeNul_append _
      (nameBeforeNul_append _ (nameBeforeNul_append _ stemNamed))
  unfold placeCase
  refine .bind (.append front (named (by decide))) fun testBlock => ?_
  rw [List.append_cons]
  refine .bind (.append (front ++ [testBlock]) (named (by decide)))
    fun bodyBlock => ?_
  refine .pure fun state writing => ?_
  rw [List.append_cons, List.append_assoc front] at writing
  exact writing.imp fun holds => ⟨⟨holds.1.1, rfl⟩, holds.1.2, holds.2⟩

theorem proceeds_placeCases [Enduring known] (id : Nat)
    (cases : List (Int64 × List Form)) (front : List BlockId) :
    Proceeds scene (Writing scene origin (front ++ owed) known)
      (cases.mapM (placeCase id))
      fun placed => Writing scene origin
        (front ++ (placed.map PlacedCase.route).flatMap Route.blocks ++ owed)
        fun state => (known state ∧
            placed.map (fun entry => (entry.value, entry.body)) = cases) ∧
          RoutesAllowed scene origin (placed.map PlacedCase.route) state := by
  induction cases generalizing known front with
  | nil =>
      rw [List.mapM_nil]
      refine .pure fun state writing => ?_
      rw [List.map_nil, List.flatMap_nil, List.append_nil]
      exact writing.imp fun holds => ⟨⟨holds, rfl⟩, List.forall_mem_nil _⟩
  | cons entry cases ih =>
      rw [List.mapM_cons]
      refine .bind (proceeds_placeCase id entry front) fun placed => ?_
      refine .bind (ih (front ++ placed.route.blocks)) fun rest => ?_
      refine .pure fun state writing => ?_
      rw [List.map_cons, List.flatMap_cons, ← List.append_assoc front]
      refine writing.imp fun holds => ⟨⟨holds.1.1.1.1, ?_⟩, ?_⟩
      · rw [List.map_cons, holds.1.1.1.2, holds.1.2]
      · exact List.forall_mem_cons.mpr ⟨holds.1.1.2, holds.2⟩

/-- Where no case is left, a test leads to the block for no match. -/
theorem RoutesAllowed.first {routes : List Route} {noMatch : BlockId}
    {state : EmitState} (allowed : RoutesAllowed scene origin routes state)
    (noMatchAllowed : IsTarget scene origin noMatch state) :
    IsTarget scene origin (Route.first noMatch routes) state := by
  cases routes with
  | nil => exact noMatchAllowed
  | cons route rest => exact (allowed route List.mem_cons_self).1

/-- The cases of a switch are tested in order, and each has its body. -/
def CasesEmitted (scene : Scene) (emit : FormEmitter) (scrutinee : Operand)
    (bits : Nat) (noMatch endBlock : BlockId) (placed : List PlacedCase)
    (state : EmitState) : Prop :=
  state.builder.module.Chains scrutinee bits noMatch
      (placed.map PlacedCase.route) ∧
    ∀ entry ∈ placed, HasBody scene (emitSequence emit entry.body)
      entry.bodyBlock endBlock state.builder.module

instance {scrutinee : Operand} {bits : Nat} {noMatch endBlock : BlockId}
    {placed : List PlacedCase} :
    Enduring (CasesEmitted scene emit scrutinee bits noMatch endBlock
      placed) := by
  unfold CasesEmitted
  infer_instance

theorem emits_number {type : TypeId} {bits : Nat} (number : Int) :
    Emits scene (fun table => table.Has type ∧ table.kind type = .int bits)
      (liftM (Builder.constantInt type number) : Emission Value)
      fun _ value => value.content = .firstClass (.ofInt bits number) :=
  emits_onBuilder fun _ ready kind =>
    (Builder.builds_number ready kind number).weaken fun _ _ both => both.2

/-- The test of a case and its body. -/
theorem proceeds_emitCase [Enduring known]
    (advances : ∀ form, Advances scene (emit form)) (scrutinee : Value)
    (bits : Nat) {next endBlock : BlockId} (entry : PlacedCase)
    (allowed : ∀ state, known state →
      (IsTarget scene origin entry.bodyBlock state ∧
        IsTarget scene origin next state) ∧
      IsTarget scene origin endBlock state ∧
      state.table.Has scrutinee.type ∧
      state.table.kind scrutinee.type = .int bits) :
    Proceeds scene
      (Leaving scene origin (entry.route.blocks ++ owed) known)
      (do
        Builder.positionAtEnd entry.testBlock
        let expected ← Builder.constantInt scrutinee.type entry.value.toInt
        let hit ← Builder.compareInt .eq scrutinee expected "switch.cmp"
        Builder.branchIf hit entry.bodyBlock next
        emitArm emit entry.bodyBlock entry.body endBlock)
      fun _ => Leaving scene origin owed fun state => (known state ∧
        state.builder.module.Tests scrutinee.operand bits entry.route next) ∧
        HasBody scene (emitSequence emit entry.body) entry.bodyBlock endBlock
          state.builder.module := by
  refine .bind (.positionAt entry.testBlock) fun _ => ?_
  refine .bind (.quietAt (emits_number entry.value.toInt)
    fun state holds => (allowed state holds).2.2) fun expected => ?_
  refine .bind (proceeds_compare scrutinee expected _) fun hit => ?_
  have tests : Proceeds scene
      (fun state => Writing scene origin (entry.bodyBlock :: owed)
        (fun state => (known state ∧ expected.content =
            .firstClass (.ofInt bits entry.value.toInt)) ∧
          hit.operand.type = .int 1 ∧ ∃ register,
            hit.operand = .register register (.int 1) ∧
            state.builder.module.FillsAt entry.testBlock register
              (.compareInt .eq scrutinee.operand expected.operand)) state ∧
        state.builder.block = some entry.testBlock)
      (liftM (Builder.branchIf hit entry.bodyBlock next) : Emission Unit)
      fun _ => Leaving scene origin (entry.bodyBlock :: owed) fun state =>
        known state ∧ state.builder.module.Tests scrutinee.operand bits
          entry.route next := by
    rintro state ⟨writing, current⟩
    obtain ⟨⟨holds, content⟩, int, fills⟩ := writing.holds
    have targets : ∀ state, known state →
        IsTarget scene origin entry.bodyBlock state ∧
        IsTarget scene origin next state :=
      fun state holds => (allowed state holds).1
    have later := Proceeds.branchIf int targets state
      (writing.imp fun _ => holds)
    have tested := proceeds_test entry.route next content targets state
      ⟨writing.imp fun _ => ⟨holds, int, fills⟩, current⟩
    exact ⟨later.stage, later.cursor, later.holds, tested⟩
  refine .bind tests fun _ => ?_
  exact .body advances entry.bodyBlock entry.body fun state holds =>
    (allowed state holds.1).2.1

theorem proceeds_emitCases [Enduring known]
    (advances : ∀ form, Advances scene (emit form)) (scrutinee : Value)
    (bits : Nat) {noMatch endBlock : BlockId} (placed : List PlacedCase)
    (allowed : ∀ state, known state →
      RoutesAllowed scene origin (placed.map PlacedCase.route) state ∧
      IsTarget scene origin noMatch state ∧
      IsTarget scene origin endBlock state ∧
      state.table.Has scrutinee.type ∧
      state.table.kind scrutinee.type = .int bits) :
    Proceeds scene
      (Leaving scene origin
        ((placed.map PlacedCase.route).flatMap Route.blocks ++ owed) known)
      (emitCases emit scrutinee noMatch endBlock placed)
      fun _ => Leaving scene origin owed fun state => known state ∧
        CasesEmitted scene emit scrutinee.operand bits noMatch endBlock placed
          state := by
  induction placed generalizing known with
  | nil =>
      exact .pure fun _ leaving => leaving.imp fun holds =>
        ⟨holds, trivial, List.forall_mem_nil _⟩
  | cons entry rest ih =>
      have split : emitCases emit scrutinee noMatch endBlock (entry :: rest) =
          (do
            Builder.positionAtEnd entry.testBlock
            let expected ←
              Builder.constantInt scrutinee.type entry.value.toInt
            let hit ← Builder.compareInt .eq scrutinee expected "switch.cmp"
            Builder.branchIf hit entry.bodyBlock (firstTest noMatch rest)
            emitArm emit entry.bodyBlock entry.body endBlock) >>=
          fun _ => emitCases emit scrutinee noMatch endBlock rest := rfl
      rw [split, List.map_cons, List.flatMap_cons, List.append_assoc,
        firstTest_eq]
      refine .bind (proceeds_emitCase advances scrutinee bits entry
        fun state holds => ?_) fun _ => ?_
      · obtain ⟨routes, noMatchAllowed, others⟩ := allowed state holds
        obtain ⟨own, later⟩ := List.forall_mem_cons.mp routes
        exact ⟨⟨own.2, RoutesAllowed.first later noMatchAllowed⟩, others⟩
      refine (ih fun state holds => ?_).weaken fun _ state leaving =>
        leaving.imp fun holds => ⟨holds.1.1.1, ⟨holds.1.1.2, holds.2.1⟩,
          List.forall_mem_cons.mpr ⟨holds.1.2, holds.2.2⟩⟩
      obtain ⟨routes, others⟩ := allowed state holds.1.1
      exact ⟨(List.forall_mem_cons.mp routes).2, others⟩

/-- The number of a case of a switch, with what is emitted for it. -/
def switchArm (emit : FormEmitter) (entry : Int64 × List Form) :
    Int × Emission Unit :=
  (entry.1.toInt, emitSequence emit entry.2)

theorem proceeds_emitSwitchBlocks
    (advances : ∀ form, Advances scene (emit form)) (scrutinee : Value)
    (bits : Nat) (start : BlockId) (cases : List (Int64 × List Form))
    (default : Option (List Form)) :
    Proceeds scene
      (fun state => Writing scene origin owed (fun state =>
          state.table.Has scrutinee.type ∧
            state.table.kind scrutinee.type = .int bits) state ∧
        state.builder.block = some start)
      (emitSwitchBlocks emit scrutinee cases default)
      fun _ state => ∃ endBlock, Writing scene origin owed (fun state =>
          state.table.kind scrutinee.type = .int bits ∧
          Dispatches scene start scrutinee.operand bits
            (cases.map (switchArm emit)) (default.map (emitSequence emit))
            endBlock state.builder.module) state ∧
        state.builder.block = some endBlock := by
  unfold emitSwitchBlocks
  refine .bind ((Proceeds.quietly emits_freshId).staying fun _ _ => rfl)
    fun id => ?_
  refine .bind ((proceeds_placeCases id cases []).staying
    (.mapM (fun _ _ _ => rfl) cases)) fun placed => ?_
  rw [List.nil_append]
  have routes : (placed.map (PlacedCase.emitted emit)).map Prod.fst =
      placed.map PlacedCase.route := by
    rw [List.map_map]
    rfl
  have arms (listed : (placed.map fun entry => (entry.value, entry.body)) =
        cases) :
      ((placed.map (PlacedCase.emitted emit)).map fun entry =>
        (entry.1.number, entry.2)) = cases.map (switchArm emit) := by
    rw [← listed, List.map_map, List.map_map]
    rfl
  have emitted {endBlock : BlockId} {module : Module}
      (bodies : ∀ entry ∈ placed, HasBody scene
        (emitSequence emit entry.body) entry.bodyBlock endBlock module) :
      ∀ entry ∈ placed.map (PlacedCase.emitted emit),
        HasBody scene entry.2 entry.1.bodyBlock endBlock module :=
    List.forall_mem_map.mpr bodies
  cases default with
  | some body =>
      refine .bind ((Proceeds.append _ (named (by decide) id)).staying
        fun _ _ => rfl) fun defaultBlock => ?_
      rw [List.append_cons]
      refine .bind ((Proceeds.append _ (named (by decide) id)).staying
        fun _ _ => rfl) fun endBlock => ?_
      rw [firstTest_eq]
      refine .bind (.lead fun state holds =>
        RoutesAllowed.first holds.1.1.2 holds.1.2) fun _ => ?_
      rw [List.append_assoc]
      refine .bind (proceeds_emitCases advances scrutinee bits placed ?_)
        fun _ => ?_
      · intro state holds
        exact ⟨holds.1.1.1.2, holds.1.1.2, holds.1.2, holds.1.1.1.1.1.1⟩
      refine .bind (.body advances defaultBlock body fun state holds =>
        holds.1.1.2) fun _ => ?_
      refine (Proceeds.positionAt endBlock).weaken fun _ state both => ?_
      refine ⟨endBlock, both.1.imp fun holds => ?_, both.2⟩
      obtain ⟨⟨⟨⟨⟨⟨⟨⟨⟨-, kind⟩, -⟩, listed⟩, -⟩, -⟩, -⟩, starts, distinct⟩, chains,
        bodies⟩, defaults⟩ := holds
      refine ⟨kind, placed.map (PlacedCase.emitted emit),
        some (defaultBlock, emitSequence emit body), arms listed, rfl, ?_, ?_,
        emitted bodies, ?_, ?_⟩
      · rw [routes]
        exact starts
      · rw [routes]
        exact chains
      · rintro _ ⟨⟩
        exact defaults
      · rw [routes]
        refine distinct.sublist (.cons_cons _ ?_)
        simp
  | none =>
      refine .bind ((Proceeds.append _ (named (by decide) id)).staying
        fun _ _ => rfl) fun endBlock => ?_
      rw [firstTest_eq]
      refine .bind (.lead fun state holds =>
        RoutesAllowed.first holds.1.2 holds.2) fun _ => ?_
      refine .bind (proceeds_emitCases advances scrutinee bits placed ?_)
        fun _ => ?_
      · intro state holds
        exact ⟨holds.1.1.2, holds.1.2, holds.1.2, holds.1.1.1.1.1⟩
      refine (Proceeds.positionAt endBlock).weaken fun _ state both => ?_
      refine ⟨endBlock, both.1.imp fun holds => ?_, both.2⟩
      obtain ⟨⟨⟨⟨⟨⟨⟨-, kind⟩, -⟩, listed⟩, -⟩, -⟩, starts, distinct⟩, chains,
        bodies⟩ := holds
      refine ⟨kind, placed.map (PlacedCase.emitted emit), none, arms listed, rfl,
        ?_, ?_, emitted bodies, nofun, ?_⟩
      · rw [routes]
        exact starts
      · rw [routes]
        exact chains
      · rw [routes]
        refine distinct.sublist (.cons_cons _ ?_)
        simp

/-- The kind of a type that is known to be an integer type. -/
theorem TypeTable.kind_of_intWidth? {table : TypeTable} {type : TypeId}
    {bits : Nat} (width : table.intWidth? type = some bits) :
    table.kind type = .int bits := by
  unfold TypeTable.intWidth? at width
  split at width
  · next kind => cases width; exact kind
  · cases width

theorem orderly_emitSwitch (advances : ∀ form, Advances scene (emit form))
    (items : List Form) : Orderly scene (emitSwitch emit items) := by
  intro origin owed
  unfold emitSwitch
  refine .ite (fun _ => .throw_bind _) fun _ => ?_
  refine .parse fun arguments _ => ?_
  refine .orFail_step _ fun caseForms _ => ?_
  refine .orFail_step _ fun cases _ => ?_
  refine .parse fun form _ => ?_
  refine .quietly (handles_valueOf form) fun scrutinee => ?_
  refine .look (fun _ => rfl) fun table => ?_
  refine .ite (fun _ => ?_) fun isInt => ?_
  · refine .look (fun _ => rfl) fun spelled => ?_
    exact (Concludes.throw_bind _).given fun _ both => both.1.1
  · rw [Bool.not_eq_true, Bool.not_eq_false'] at isInt
    obtain ⟨bits, width⟩ := Option.isSome_iff_exists.mp isInt
    rintro state ⟨writing, rfl⟩
    obtain ⟨index, current, -⟩ := writing.stage.placed.cursor
    obtain ⟨endBlock, later, -⟩ := proceeds_emitSwitchBlocks advances
      scrutinee bits _ cases _ state ⟨writing.imp fun holds =>
        ⟨holds.2.has, TypeTable.kind_of_intWidth? width⟩, current⟩
    exact later.stage

/-! ## Blocks -/

theorem handles_readLocal (shape : String) (form : Form) :
    Handles scene (fun _ => True) (readLocal shape form)
      fun table declared => table.Has declared.2 := by
  unfold readLocal
  split
  · refine .ite (fun _ => .throw_bind _) fun _ => ?_
    refine .orFail_step _ fun name _ => ?_
    refine .step (handles_typeOf _) (fun _ holds => holds) fun type => ?_
    exact .pure (by tauto)
  · exact .throw _

theorem emits_declareSlots (declared : List (String × TypeId)) :
    Emits scene (fun table => ∀ entry ∈ declared, table.Has entry.2)
      (declared.forM fun (name, type) => do
        let _ ← declareSlot name type) fun _ _ => True := by
  refine .forM fun entry member => ?_
  refine .step (emits_declareSlot entry.1 entry.2)
    (fun _ holds => holds entry member) fun _ => ?_
  exact .pure (by tauto)

theorem proceeds_inScope {emission : Emission Unit} [Enduring known]
    (proceeds : Proceeds scene (Writing scene origin owed known) emission
      fun _ => Passing scene origin owed known) :
    Proceeds scene (Writing scene origin owed known) (inScope emission)
      fun _ => Passing scene origin owed known := by
  unfold inScope
  refine .look (fun _ => rfl) fun outer => ?_
  refine Proceeds.given ?_ fun _ both => both.1
  refine .bind (.names (fun _ _ names => names.enterScope)
    fun _ _ member => member) fun _ => ?_
  refine .bind proceeds fun _ => ?_
  refine .names (fun _ _ names => names.unwindTo _) fun context => ?_
  rw [FunctionContext.loops_unwindTo]
  exact fun _ member => member

theorem orderly_emitBlock (advances : ∀ form, Advances scene (emit form))
    (items : List Form) : Orderly scene (emitBlock emit items) := by
  intro origin owed
  unfold emitBlock
  refine .parse fun ⟨locals, body⟩ _ => ?_
  refine .quietly (.mapM fun form _ => handles_readLocal _ form)
    fun declared => ?_
  refine .last (proceeds_inScope ?_)
  refine .bind (.quiet (emits_declareSlots declared) ?_) fun _ => ?_
  · exact fun _ holds => holds.2
  · intro state writing
    exact Proceeds.sequence advances body state
      (writing.imp And.left).forget

/-! ## Returns -/

/-- A function of the module is declared with a result type. -/
def EmitState.Promises (home : FunctionId) (type : TypeId)
    (state : EmitState) : Prop :=
  home < state.builder.module.functions.length ∧ ∃ signature,
    state.table.signature? (state.builder.module.function home).type =
      some signature ∧ signature.result = type

instance (home : FunctionId) (type : TypeId) :
    Enduring (EmitState.Promises home type) where
  mono := by
    rintro state later - continues ⟨inside, signature, found, same⟩
    refine ⟨Nat.lt_of_lt_of_le inside continues.module.count, signature, ?_,
      same⟩
    rw [(continues.module.functions home inside).2.1]
    exact ((TypeTable.has_of_signature found).signature_eq
      continues.module.types).trans found

/-- The current function is declared with the type that it is to return. -/
theorem EmitState.Stage.promises {state : EmitState}
    (stage : Stage scene origin owed state) :
    state.Promises scene.home
      (resultType state.table state.builder.currentFunction.type) := by
  obtain ⟨index, -, known⟩ := stage.placed.cursor
  obtain ⟨_, found⟩ := Option.isSome_iff_exists.mp known
  have inside := Module.lt_of_block? found
  obtain ⟨signature, found⟩ := Option.isSome_iff_exists.mp
    (stage.placed.sound.functions _ inside).1
  have same : state.table.signature? state.builder.currentFunction.type =
      some signature := found
  rw [resultType, same]
  exact stage.inside ▸ ⟨inside, signature, found, rfl⟩

/-- What the current function is to return, as its header says. -/
theorem EmitState.Stage.result_eq {state : EmitState} {type : TypeId}
    (stage : Stage scene origin owed state)
    (promises : state.Promises scene.home type) :
    state.table.Has type ∧ state.builder.currentFunction.result =
      lowered state.table boundaryLevels type := by
  obtain ⟨inside, signature, found, rfl⟩ := promises
  have sound := stage.placed.sound
  refine ⟨(stage.closed.signature found).1, ?_⟩
  rw [Builder.currentFunction, stage.inside]
  exact sound.results scene.home inside signature found

/-- Returning ends the current block. -/
theorem proceeds_return [Enduring known] {operand : Option Operand}
    (returns : ∀ state, Writing scene origin owed known state →
      state.builder.currentFunction.Returns operand) :
    Proceeds scene (Writing scene origin owed known)
      (liftM (Builder.insertEffect (.ret operand)) : Emission Unit)
      fun _ => Leaving scene origin owed known := by
  refine .effect rfl ?_ ?_
  · intro state holds target member
    cases member
  · rintro state writing value ⟨⟩
    exact returns state writing

/-- Returning a value of the type that the function is to return. -/
theorem proceeds_returnValue [Enduring known] {type : TypeId} {value : Value}
    (promised : ∀ state, known state → state.Promises scene.home type)
    (typed : ∀ state, known state →
      value.Typed state.table ∧ value.type = type) :
    Proceeds scene (Writing scene origin owed known)
      (liftM (Builder.ret value) : Emission Unit)
      fun _ => Leaving scene origin owed known := by
  refine proceeds_return fun state writing => .inr fun firstClass => ?_
  obtain ⟨valueTyped, same⟩ := typed state writing.holds
  obtain ⟨-, result⟩ := writing.stage.result_eq (promised state writing.holds)
  rw [result] at firstClass ⊢
  rw [← same] at firstClass ⊢
  exact (valueTyped.operand_lowered firstClass).trans
    (lowered_succ firstClass)

theorem proceeds_buildDefaultReturn [Enduring known] (type : TypeId)
    (promised : ∀ state, known state → state.Promises scene.home type) :
    Proceeds scene (Writing scene origin owed known)
      (buildDefaultReturn type)
      fun _ => Leaving scene origin owed known := by
  unfold buildDefaultReturn
  refine .look (fun _ => rfl) fun table => ?_
  split
  · next isVoid =>
      have returns : Proceeds scene (Writing scene origin owed fun state =>
            known state ∧ state.table.Has type ∧
              state.table.kind type = .void)
          (liftM Builder.retVoid : Emission Unit)
          fun _ => Leaving scene origin owed fun state => known state ∧
            state.table.Has type ∧ state.table.kind type = .void :=
        proceeds_return fun state writing => .inr
          ((writing.stage.result_eq (promised state writing.holds.1)).2.trans
            (lowered_void writing.holds.2.2 63))
      refine (returns.weaken fun _ _ leaving => leaving.imp And.left).given ?_
      rintro state ⟨writing, rfl⟩
      refine writing.imp fun holds => ⟨holds, ?_⟩
      exact ⟨(writing.stage.result_eq (promised state holds)).1,
        eq_of_beq isVoid⟩
  · have returns : Proceeds scene (Writing scene origin owed fun state =>
          known state ∧ state.table.Has type)
        (do Builder.ret (← Builder.constantZero type) : Emission Unit)
        fun _ => Leaving scene origin owed known := by
      refine .bind (.quiet (emits_constantZero type)
        fun _ holds => holds.2) fun zero => ?_
      exact (proceeds_returnValue (fun state holds => promised state holds.1.1)
        fun state holds => holds.2).weaken
          fun _ _ leaving => leaving.imp fun holds => holds.1.1
    refine returns.given ?_
    rintro state ⟨writing, -⟩
    exact writing.imp fun holds => ⟨holds,
      (writing.stage.result_eq (promised state holds)).1⟩

theorem orderly_emitReturn (items : List Form) :
    Orderly scene (emitReturn items) := by
  intro origin owed
  unfold emitReturn
  refine .look (fun _ => rfl) fun expected => ?_
  have returnsDefault : Concludes scene origin owed
      (Writing scene origin owed (EmitState.Promises scene.home expected))
      (liftM (buildDefaultReturn expected) : Handler Unit) :=
    .last (proceeds_buildDefaultReturn expected fun _ promises => promises)
  refine Concludes.given ?_ (fun state both => (show Writing scene origin owed
    (EmitState.Promises scene.home expected) state from
      both.1.imp fun _ => both.2 ▸ both.1.stage.promises))
  split
  · exact returnsDefault
  · exact returnsDefault
  · refine .quietly (handles_typeOf _) fun type => ?_
    refine .quietly (handles_expectType _ expected type) fun _ => ?_
    refine .quiet (handles_operandOf _ type _)
      (fun _ holds => holds.1.2) fun value => ?_
    refine .last (proceeds_returnValue
      (fun state holds => holds.1.1.1) fun state holds => ?_)
    exact ⟨holds.2.1, holds.2.2.trans holds.1.2⟩
  · exact .throw _

end FormCompiler
