import FormCompiler.Proofs.InstructionEchoes
import FormCompiler.Proofs.Personalities

/-!
# Modules at other places

Constructs emit their bodies where they stand, and a moved body does the same
elsewhere as soon as its forms do.  So does every form, by induction on its
depth, every function and every module: two module forms of one datum give
the same module and the same problems but for their places.
-/

namespace FormCompiler

open Ir

/-! ## Constructs -/

section Constructs

variable {move : Move} {emit : FormEmitter}
  (oblivious : ∀ form, Echoes move id (emit form) (emit (form.moved move)))

include oblivious

theorem echoes_emitSequence (forms : List Form) :
    Echoes move id (emitSequence emit forms)
      (emitSequence emit (forms.map (Form.moved move))) := by
  induction forms with
  | nil => exact .pure ()
  | cons form forms ih =>
      refine .step (fun _ _ => rfl) fun ended => .ite (.pure ()) ?_
      exact .step (oblivious form) fun _ => ih

omit oblivious in
theorem echoes_fallThrough (next : BlockId) :
    Echoes move id (fallThrough next) (fallThrough next) :=
  .step (fun _ _ => rfl) fun _ => .ite (.pure ()) (echoes_onBuilder _)

theorem echoes_emitArm (block : BlockId) (body : List Form)
    (next : BlockId) :
    Echoes move id (emitArm emit block body next)
      (emitArm emit block (body.map (Form.moved move)) next) := by
  refine .build fun _ => ?_
  exact .step (echoes_emitSequence oblivious body) fun _ =>
    echoes_fallThrough next

/-! ### Conditions and branches -/

omit oblivious in
theorem echoes_conditionValue (name : String) :
    Echoes move id (conditionValue name) (conditionValue name) := by
  refine .context fun context => ?_
  rw [FunctionContext.slot?_moved]
  refine .ite (echoes_getValue name) ?_
  exact echoes_orElseFind (echoes_recomputed name) (echoes_getValue name)

omit oblivious in
theorem repeats_condition (form : Form) :
    Repeats move id (condition form) (condition (form.moved move)) := by
  unfold condition
  rw [Form.bool?_moved, localName?_moved]
  cases form.bool? with
  | some value => exact .lift (fun _ _ => rfl)
  | none =>
      refine .found _ fun name => ?_
      refine .step (.lift (echoes_conditionValue name)) fun _ => ?_
      refine .found _ fun value => .step (fun _ _ => rfl) fun table => ?_
      split
      · exact .pure value
      · exact .build fun zero => .lift (echoes_onBuilder _)
      · exact .step (fun _ _ => rfl) fun _ => .throw _

omit oblivious in
theorem echoes_branchOn (form : Form) (thenBlock elseBlock : BlockId) :
    Echoes move id (branchOn form thenBlock elseBlock)
      (branchOn (form.moved move) thenBlock elseBlock) := by
  refine .bind (repeats_condition form) fun outcome => ?_
  cases outcome with
  | ok value => exact echoes_onBuilder _
  | error cause =>
      exact .step (echoes_report _ cause) fun _ => echoes_onBuilder _

theorem echoes_emitBranches (test : Value) (thenBody : List Form)
    (elseBody : Option (List Form)) :
    Echoes move id (emitBranches emit test thenBody elseBody)
      (emitBranches emit test (thenBody.map (Form.moved move))
        (elseBody.map (List.map (Form.moved move)))) := by
  refine .step echoes_freshId fun id => .build fun thenBlock => ?_
  cases elseBody with
  | some elseBody =>
      refine .build fun elseBlock => .build fun endBlock => .build fun _ => ?_
      refine .step (echoes_emitArm oblivious _ thenBody _) fun _ => ?_
      refine .step (echoes_emitArm oblivious _ elseBody _) fun _ => ?_
      exact echoes_onBuilder _
  | none =>
      refine .build fun endBlock => .build fun _ => ?_
      refine .step (echoes_emitArm oblivious _ thenBody _) fun _ => ?_
      exact echoes_onBuilder _

omit oblivious in
theorem readElse_moved (items : List Form) (shape : String) :
    readElse (items.map (Form.moved move)) shape =
      (readElse items shape).map (Option.map (List.map (Form.moved move))) := by
  unfold readElse
  rw [List.length_map, vectorAt_moved]
  split
  · cases vectorAt items 3 shape <;> rfl
  · rfl

theorem oblivious_emitConditional : Oblivious move (emitConditional emit) := by
  intro items
  unfold emitConditional
  rw [List.length_map]
  refine .refusal (.throw _) (.vector fun thenBody => ?_)
  refine .parse (readElse_moved items _) fun elseBody => .item fun form => ?_
  exact .step (repeats_condition form) fun test =>
    .lift (echoes_emitBranches oblivious test thenBody elseBody)

/-! ### Loops -/

theorem echoes_emitLoopBody (targets : LoopTargets) (block : BlockId)
    (body : List Form) (next : BlockId) :
    Echoes move id (emitLoopBody emit targets block body next)
      (emitLoopBody emit targets block (body.map (Form.moved move)) next) := by
  refine .step (.modifyContext fun _ => rfl) fun _ => ?_
  refine .step (echoes_emitArm oblivious block body next) fun _ => ?_
  exact .modifyContext fun _ => rfl

theorem oblivious_emitWhile : Oblivious move (emitWhile emit) := by
  intro items
  refine .length (.vector fun body => .item fun test => ?_)
  refine .step (.lift echoes_freshId) fun id => .build fun testBlock => ?_
  refine .build fun bodyBlock => .build fun endBlock => ?_
  refine .build fun _ => .build fun _ => ?_
  refine .step (.lift (echoes_branchOn test _ _)) fun _ => ?_
  refine .step (.lift (echoes_emitLoopBody oblivious _ _ body _))
    fun _ => ?_
  exact .lift (echoes_onBuilder _)

theorem echoes_emitForBlocks (number : Nat) (test : Option Form)
    (step body : List Form) :
    Echoes move id (emitForBlocks emit number test step body)
      (emitForBlocks emit number (test.map (Form.moved move))
        (step.map (Form.moved move)) (body.map (Form.moved move))) := by
  refine .build fun testBlock => .build fun bodyBlock => ?_
  refine .build fun stepBlock => .build fun endBlock => ?_
  refine .build fun _ => .build fun _ => ?_
  have looped (_ : Unit) : Echoes move id (do
      emitLoopBody emit ⟨endBlock, stepBlock⟩ bodyBlock body stepBlock
      emitArm emit stepBlock step testBlock
      (Builder.positionAtEnd endBlock : Emission Unit)) (do
      emitLoopBody emit ⟨endBlock, stepBlock⟩ bodyBlock
        (body.map (Form.moved move)) stepBlock
      emitArm emit stepBlock (step.map (Form.moved move)) testBlock
      (Builder.positionAtEnd endBlock : Emission Unit)) := by
    refine .step (echoes_emitLoopBody oblivious _ _ body _) fun _ => ?_
    refine .step (echoes_emitArm oblivious _ step _) fun _ => ?_
    exact echoes_onBuilder _
  cases test with
  | none => exact .build looped
  | some test => exact .step (echoes_branchOn test _ _) looped

theorem oblivious_emitFor : Oblivious move (emitFor emit) := by
  intro items
  refine .arguments fun arguments => ?_
  simp only [vectorOf_moved, KeywordArguments.get?_moved]
  refine .orFail _ (KeywordArguments.vector?_moved _ _) fun body => ?_
  refine .step (.lift echoes_freshId) fun id => ?_
  refine .step (.lift (echoes_emitSequence oblivious _)) fun _ => ?_
  refine .step (fun _ _ => rfl) fun ended => .ite (.pure ()) ?_
  exact .lift (echoes_emitForBlocks oblivious id _ _ body)

omit oblivious in
theorem oblivious_leaving (target : LoopTargets → BlockId) (shape : String) :
    Oblivious move (fun items => do
      expectLength items 1 shape
      match (← context).innermostLoop? with
      | some targets => Builder.branch (target targets)
      | none => pure ()) := by
  intro items
  refine .length (.context fun context => ?_)
  rw [FunctionContext.innermostLoop?_moved]
  cases context.innermostLoop? with
  | none => exact .pure ()
  | some targets => exact .lift (echoes_onBuilder _)

omit oblivious in
theorem oblivious_emitBreak : Oblivious move emitBreak :=
  oblivious_leaving LoopTargets.breakTo "(break)"

omit oblivious in
theorem oblivious_emitContinue : Oblivious move emitContinue :=
  oblivious_leaving LoopTargets.continueTo "(continue)"

/-! ### Switches -/

/-- The case with its body elsewhere. -/
def PlacedCase.moved (move : Move) (placed : PlacedCase) : PlacedCase :=
  { placed with body := placed.body.map (Form.moved move) }

/-- A value and a body elsewhere. -/
def movedCase (move : Move) (entry : Int64 × List Form) : Int64 × List Form :=
  (entry.1, entry.2.map (Form.moved move))

omit oblivious in
theorem switchCase?_moved (form : Form) :
    switchCase? (form.moved move) =
      (switchCase? form).map (movedCase move) := by
  unfold switchCase?
  rw [Form.list?_moved]
  cases form.list? with
  | none => rfl
  | some items =>
      match items with
      | [] | [_] | [_, _] | _ :: _ :: _ :: _ :: _ => rfl
      | [head, value, body] =>
          simp only [Option.map_some, List.map_cons, List.map_nil,
            Form.symbol?_moved, Form.int?_moved, Form.vector?_moved]
          split
          · cases value.int? with
            | none => rfl
            | some value => cases body.vector? <;> rfl
          · rfl

omit oblivious in
theorem firstTest_moved (noMatch : BlockId) (placed : List PlacedCase) :
    firstTest noMatch (placed.map (PlacedCase.moved move)) =
      firstTest noMatch placed := by
  cases placed <;> rfl

theorem echoes_emitCases (scrutinee : Value) (noMatch endBlock : BlockId)
    (placed : List PlacedCase) :
    Echoes move id (emitCases emit scrutinee noMatch endBlock placed)
      (emitCases emit scrutinee noMatch endBlock
        (placed.map (PlacedCase.moved move))) := by
  induction placed with
  | nil => exact .pure ()
  | cons entry rest ih =>
      unfold emitCases
      rw [List.map_cons]
      dsimp only
      rw [firstTest_moved]
      refine .build fun _ => .build fun expected => .build fun hit => ?_
      refine .build fun _ => ?_
      exact .step (echoes_emitArm oblivious _ entry.body _) fun _ => ih

theorem echoes_emitSwitchBlocks (scrutinee : Value)
    (cases : List (Int64 × List Form)) (default : Option (List Form)) :
    Echoes move id (emitSwitchBlocks emit scrutinee cases default)
      (emitSwitchBlocks emit scrutinee (cases.map (movedCase move))
        (default.map (List.map (Form.moved move)))) := by
  refine .step echoes_freshId fun number => ?_
  have places : Echoes move (List.map (PlacedCase.moved move))
      (cases.mapM (placeCase number))
      ((cases.map (movedCase move)).mapM (placeCase number)) :=
    .mapM fun entry => .build fun _ => .build fun _ => .pure _
  refine .bind places fun placed => ?_
  simp only [firstTest_moved]
  cases default with
  | some body =>
      refine .build fun defaultBlock => .build fun endBlock => ?_
      refine .build fun _ => ?_
      refine .step (echoes_emitCases oblivious _ _ _ placed) fun _ => ?_
      refine .step (echoes_emitArm oblivious _ body _) fun _ => ?_
      exact echoes_onBuilder _
  | none =>
      refine .build fun endBlock => .build fun _ => ?_
      refine .step (echoes_emitCases oblivious _ _ _ placed) fun _ => ?_
      exact echoes_onBuilder _

theorem oblivious_emitSwitch : Oblivious move (emitSwitch emit) := by
  intro items
  unfold emitSwitch
  rw [List.length_map]
  refine .refusal (.throw _) (.arguments fun arguments => ?_)
  refine .orFail _ (KeywordArguments.vector?_moved _ _) fun caseForms => ?_
  have read : (caseForms.map (Form.moved move)).mapM switchCase? =
      (caseForms.mapM switchCase?).map (List.map (movedCase move)) := by
    induction caseForms with
    | nil => rfl
    | cons form forms ih =>
        rw [List.map_cons, List.mapM_cons, List.mapM_cons, switchCase?_moved,
          ih]
        cases switchCase? form with
        | none => rfl
        | some entry => cases forms.mapM switchCase? <;> rfl
  refine .orFail _ read fun cases => .item fun form => ?_
  refine .step (repeats_valueOf form) fun scrutinee => ?_
  refine .step (fun _ _ => rfl) fun table => ?_
  rw [KeywordArguments.vector?_moved]
  refine .ite ?_ (.lift (echoes_emitSwitchBlocks oblivious _ cases _))
  exact .step (fun _ _ => rfl) fun _ => .step (.throw _) fun _ =>
    .lift (echoes_emitSwitchBlocks oblivious _ cases _)

/-! ### Blocks -/

omit oblivious in
theorem repeats_readLocal (shape : String) (form : Form) :
    Repeats move id (readLocal shape form)
      (readLocal shape (form.moved move)) := by
  unfold readLocal
  rw [Form.list?_moved]
  cases form.list? with
  | none => exact .throw _
  | some items =>
      match items with
      | [] | [_] | [_, _] | _ :: _ :: _ :: _ :: _ => exact .throw _
      | [head, typeForm, nameForm] =>
          simp only [Option.map_some, List.map_cons, List.map_nil,
            Form.symbol?_moved, localName?_moved]
          refine .refusal (.throw _) (.found _ fun name => ?_)
          exact .type fun type => .pure _

/-- The locals and the body elsewhere. -/
def movedParts (move : Move) (parts : List Form × List Form) :
    List Form × List Form :=
  (parts.1.map (Form.moved move), parts.2.map (Form.moved move))

omit oblivious in
theorem keyedBlockParts_moved (items : List Form) (shape : String) :
    keyedBlockParts (items.map (Form.moved move)) shape =
      (keyedBlockParts items shape).map (movedParts move) := by
  unfold keyedBlockParts
  rw [KeywordArguments.follow_moved]
  cases KeywordArguments.follow items 1 shape with
  | error cause => rfl
  | ok arguments =>
      rw [show Except.map (KeywordArguments.moved move) (.ok arguments) =
        (.ok (arguments.moved move) : Except ProblemCause _) from rfl]
      simp only [bind, Except.bind]
      rw [vectorOf_moved, KeywordArguments.vector?_moved]
      cases arguments.vector? "body" <;> rfl

omit oblivious in
theorem blockParts_moved (items : List Form) (shape : String) :
    blockParts (items.map (Form.moved move)) shape =
      (blockParts items shape).map (movedParts move) := by
  have keyed : keyedBlockParts (items.map (Form.moved move)) shape =
      (keyedBlockParts items shape).map (movedParts move) :=
    keyedBlockParts_moved items shape
  unfold blockParts
  match items with
  | [] | [_] | _ :: _ :: _ :: _ => exact keyed
  | [head, form] =>
      simp only [List.map_cons, List.map_nil, Form.vector?_moved] at keyed ⊢
      cases form.vector? with
      | none => exact keyed
      | some body => rfl

omit oblivious in
theorem echoes_inScope {first second : Emission Unit}
    (echoes : Echoes move id first second) :
    Echoes move id (inScope first) (inScope second) := by
  refine .context fun context => ?_
  refine .step (.modifyContext fun _ => rfl) fun _ => ?_
  refine .step echoes fun _ => .modifyContext fun later => ?_
  exact FunctionContext.unwindTo_moved later context.depth

theorem oblivious_emitBlock : Oblivious move (emitBlock emit) := by
  intro items
  refine .parse (blockParts_moved items _) fun (locals, body) => ?_
  refine .step (.mapM fun form => repeats_readLocal _ form) fun declared => ?_
  refine .lift (echoes_inScope ?_)
  refine .step (.forM fun (name, type) => ?_) fun _ =>
    echoes_emitSequence oblivious body
  exact .step (echoes_declareSlot name type) fun _ => .pure ()

/-! ### Handlers -/

omit oblivious in
theorem echoes_protectedBy (personality : Personality) (handler : BlockId)
    {first second : Emission Unit} (echoes : Echoes move id first second) :
    Echoes move id (protectedBy personality handler first)
      (protectedBy personality handler second) := by
  refine .step (fun _ _ => rfl) fun _ => .step echoes fun _ => ?_
  exact fun _ _ => rfl

theorem echoes_emitUnprotected (number : Nat) (bodyBlock : BlockId)
    (body handler : List Form) :
    Echoes move id (emitUnprotected emit number bodyBlock body handler)
      (emitUnprotected emit number bodyBlock (body.map (Form.moved move))
        (handler.map (Form.moved move))) := by
  refine .build fun endBlock => .build fun _ => .build fun _ => ?_
  refine .step (echoes_emitSequence oblivious body) fun _ => ?_
  refine .step (echoes_emitSequence oblivious handler) fun _ => ?_
  exact .step (echoes_fallThrough endBlock) fun _ => echoes_onBuilder _

theorem echoes_emitWithLandingPad (number : Nat) (bodyBlock : BlockId)
    (body handler : List Form) :
    Echoes move id (emitWithLandingPad emit number bodyBlock body handler)
      (emitWithLandingPad emit number bodyBlock (body.map (Form.moved move))
        (handler.map (Form.moved move))) := by
  refine .build fun padBlock => .build fun handlerBlock => ?_
  refine .build fun endBlock => .build fun _ => .build fun _ => ?_
  refine .step (fun _ _ => rfl) fun pointer => .build fun catchAll => ?_
  refine .build fun _ => .build fun _ => ?_
  refine .step (echoes_protectedBy _ _ (echoes_emitArm oblivious _ body _))
    fun _ => ?_
  refine .step (echoes_emitArm oblivious _ handler _) fun _ => ?_
  exact echoes_onBuilder _

theorem echoes_emitWithFunclet (number : Nat) (bodyBlock : BlockId)
    (body handler : List Form) :
    Echoes move id (emitWithFunclet emit number bodyBlock body handler)
      (emitWithFunclet emit number bodyBlock (body.map (Form.moved move))
        (handler.map (Form.moved move))) := by
  refine .build fun dispatchBlock => .build fun padBlock => ?_
  refine .build fun handlerBlock => .build fun endBlock => ?_
  refine .build fun _ => .build fun _ => .build fun outside => ?_
  refine .build fun dispatch => .build fun _ => ?_
  refine .step (fun _ _ => rfl) fun pointer => ?_
  refine .step (fun _ _ => rfl) fun word => .build fun null => ?_
  refine .build fun flags => .build fun pad => .build fun _ => ?_
  refine .step (echoes_protectedBy _ _ (echoes_emitArm oblivious _ body _))
    fun _ => ?_
  refine .step (echoes_emitArm oblivious _ handler _) fun _ => ?_
  exact echoes_onBuilder _

theorem oblivious_emitTry : Oblivious move (emitTry emit) := by
  intro items
  refine .arguments fun arguments => ?_
  simp only [vectorOf_moved]
  refine .orFail _ (KeywordArguments.vector?_moved _ _) fun body => ?_
  refine .step (.lift echoes_freshId) fun number => .build fun block => ?_
  refine .step (fun _ _ => rfl) fun personality => ?_
  split
  · exact .lift (echoes_emitUnprotected oblivious number block body _)
  · exact .lift (echoes_emitWithLandingPad oblivious number block body _)
  · exact .lift (echoes_emitWithFunclet oblivious number block body _)

/-! ### Matches -/

/-- The arm with its body elsewhere. -/
def Arm.moved (move : Move) (arm : Arm) : Arm :=
  { arm with body := arm.body.map (Form.moved move) }

def TaggedArm.moved (move : Move) (tagged : TaggedArm) : TaggedArm :=
  { tagged with arm := tagged.arm.moved move }

def PlacedArm.moved (move : Move) (placed : PlacedArm) : PlacedArm :=
  { placed with tagged := placed.tagged.moved move }

omit oblivious in
theorem keyedBody_moved (arguments : KeywordArguments) :
    keyedBody (arguments.moved move) =
      ((keyedBody arguments).1.map (Form.moved move),
        (keyedBody arguments).2) := by
  unfold keyedBody
  rw [vectorOf_moved, bodyAndValue_moved, KeywordArguments.name?_moved]

omit oblivious in
theorem repeats_readBinding (sum : String) (variant : Variant)
    (form : Form) :
    Repeats move id (readBinding sum variant form)
      (readBinding sum variant (form.moved move)) := by
  unfold readBinding
  rw [Form.list?_moved]
  cases form.list? with
  | none => exact .throw _
  | some items =>
      rcases items with _ | ⟨head, _ | ⟨nameForm, _ | ⟨indexForm,
        _ | ⟨extra, items⟩⟩⟩⟩
      · exact .throw _
      · exact .throw _
      · exact .throw _
      · simp only [Option.map_some, List.map_cons, List.map_nil,
          Form.symbol?_moved, localName?_moved, arrayLength?_moved]
        refine .found _ fun part => ?_
        refine .step (fun _ _ => rfl) fun table => ?_
        exact .found _ fun field => .pure _
      · exact .throw _

/-- The parts of a case elsewhere. -/
def movedCaseParts (move : Move)
    (parts : List Form × List Form × Option String) :
    List Form × List Form × Option String :=
  (parts.1.map (Form.moved move), parts.2.1.map (Form.moved move), parts.2.2)

omit oblivious in
theorem caseParts_moved (rest : List Form) :
    caseParts (rest.map (Form.moved move)) =
      (caseParts rest).map (movedCaseParts move) := by
  unfold caseParts
  have keyed : (some (((KeywordArguments.ofItems
        (rest.map (Form.moved move))).vector? "binds").getD [],
        keyedBody (.ofItems (rest.map (Form.moved move))))) =
      (some (((KeywordArguments.ofItems rest).vector? "binds").getD [],
        keyedBody (.ofItems rest))).map (movedCaseParts move) := by
    rw [KeywordArguments.ofItems_moved, vectorOf_moved, keyedBody_moved]
    rfl
  match rest with
  | [] | _ :: _ :: _ => exact keyed
  | [form] =>
      simp only [List.map_cons, List.map_nil, Form.vector?_moved,
        Option.map_map]
      congr 1
      funext items
      simp only [Function.comp_apply, bodyAndValue_moved]
      rfl

omit oblivious in
theorem repeats_readCase (layout : SumLayout) (sum : String) (form : Form) :
    Repeats move (Option.map (TaggedArm.moved move)) (readCase layout sum form)
      (readCase layout sum (form.moved move)) := by
  unfold readCase
  rw [Form.head?_moved]
  refine .refusal (.throw _) ?_
  refine .orFail _ (Form.list?_moved form) fun items => .symbol fun name => ?_
  cases layout.variant? name with
  | none => exact .step (.lift (echoes_report _ _)) fun _ => .pure none
  | some variant =>
      refine .following fun rest => .orFail _ (caseParts_moved rest)
        fun (bindForms, body, value) => ?_
      exact .step (.mapM fun form => repeats_readBinding sum variant form)
        fun bindings => .pure _

omit oblivious in
theorem repeats_readCases (layout : SumLayout) (sum : String)
    (forms : List Form) :
    Repeats move (List.map (TaggedArm.moved move)) (readCases layout sum forms)
      (readCases layout sum (forms.map (Form.moved move))) := by
  induction forms with
  | nil => exact .pure []
  | cons form forms ih =>
      refine .bind (repeats_readCase layout sum form) fun arm => ?_
      refine .bind ih fun arms => ?_
      have same : (arm.map (TaggedArm.moved move)).toList ++
          arms.map (TaggedArm.moved move) =
          (arm.toList ++ arms).map (TaggedArm.moved move) := by
        cases arm <;> simp
      rw [same]
      exact .pure _

omit oblivious in
theorem repeats_readDefault (form : Form) :
    Repeats move (Arm.moved move) (readDefault form)
      (readDefault (form.moved move)) := by
  unfold readDefault
  rw [Form.vector?_moved, Form.head?_moved, KeywordArguments.ofForm_moved]
  cases form.vector? with
  | some items =>
      simp only [Option.map_some, bodyAndValue_moved]
      exact .pure _
  | none =>
      simp only [Option.map_none, keyedBody_moved]
      exact .refusal (.throw _) (.pure _)

omit oblivious in
theorem repeats_default (found : Option Form) :
    Repeats move (Option.map (Arm.moved move)) (found.mapM readDefault)
      ((found.map (Form.moved move)).mapM readDefault) := by
  cases found with
  | none => exact .pure none
  | some form => exact .bind (repeats_readDefault form) fun _ => .pure _

/-- The rest of the form elsewhere. -/
def movedRest (move : Move) (found : Option MatchResult × List Form) :
    Option MatchResult × List Form :=
  (found.1, found.2.map (Form.moved move))

omit oblivious in
theorem repeats_readResult (items : List Form) :
    Repeats move (movedRest move) (readResult items)
      (readResult (items.map (Form.moved move))) := by
  match items with
  | [] | [_] => exact .pure _
  | _ :: destination :: rest =>
      unfold readResult
      simp only [List.map_cons, isLocalReference_moved, localName?_moved]
      refine .ite (.found _ fun name => ?_) (.pure _)
      cases rest with
      | nil => exact .throw _
      | cons typeForm rest => exact .type fun type => .pure _

omit oblivious in
theorem repeats_bindPayload (scrutinee : Value)
    (bindings : List PayloadBinding) :
    Repeats move id (bindPayload scrutinee bindings)
      (bindPayload scrutinee bindings) := by
  refine .ite ?_ (.pure ())
  refine .build fun _ => .found _ fun payload => .forM fun binding => ?_
  refine .step (.lift (echoes_payloadPointer payload _ _ _)) fun _ => ?_
  refine .found _ fun pointer => .build fun _ => .found _ fun value => ?_
  exact repeats_define _ value _

omit oblivious in
theorem echoes_armValue (type : TypeId) (name : Option String) :
    Echoes move id (armValue type name) (armValue type name) := by
  unfold armValue
  cases name with
  | none => exact echoes_onBuilder _
  | some name =>
      refine .step (echoes_getValue name) fun value => ?_
      cases value with
      | some value => exact .pure value
      | none => exact .step (echoes_report _ _) fun _ => echoes_onBuilder _

theorem echoes_emitMatchArm (result : Option MatchResult)
    (endBlock : BlockId) (arm : Arm) :
    Echoes move id (emitMatchArm emit result endBlock arm)
      (emitMatchArm emit result endBlock (arm.moved move)) := by
  refine .step (echoes_emitSequence oblivious arm.body) fun _ => ?_
  refine .step (fun _ _ => rfl) fun exit => ?_
  cases exit with
  | none => exact .pure []
  | some exit =>
      refine .step (fun _ _ => rfl) fun ended => .ite (.pure []) ?_
      have left (edges : List (EdgeSource × String)) : Echoes move id (do
          Builder.branch endBlock
          pure edges) (do
          Builder.branch endBlock
          pure edges) :=
        .build fun _ => .pure edges
      cases result with
      | none => exact .step (.pure []) left
      | some result =>
          refine .step (echoes_armValue _ arm.value) fun value => ?_
          exact .step (fun _ _ => rfl) fun module => .step (.pure _) left

omit oblivious in
theorem firstArmTest_moved (noMatch : BlockId) (placed : List PlacedArm) :
    firstArmTest noMatch (placed.map (PlacedArm.moved move)) =
      firstArmTest noMatch placed := by
  cases placed <;> rfl

theorem echoes_emitMatchCases (result : Option MatchResult)
    (scrutinee tag : Value) (noMatch endBlock : BlockId)
    (placed : List PlacedArm) :
    Echoes move id
      (emitMatchCases emit result scrutinee tag noMatch endBlock placed)
      (emitMatchCases emit result scrutinee tag noMatch endBlock
        (placed.map (PlacedArm.moved move))) := by
  induction placed with
  | nil => exact .pure []
  | cons entry rest ih =>
      unfold emitMatchCases
      rw [List.map_cons]
      dsimp only
      rw [firstArmTest_moved]
      refine .build fun _ => .step (fun _ _ => rfl) fun expected => ?_
      refine .build fun hit => .build fun _ => .build fun _ => ?_
      refine .bind (repeats_bindPayload scrutinee _) fun outcome => ?_
      have others (_ : Unit) : Echoes move id (do
          let edges ← emitMatchArm emit result endBlock entry.tagged.arm
          let later ←
            emitMatchCases emit result scrutinee tag noMatch endBlock rest
          pure (edges ++ later)) (do
          let edges ← emitMatchArm emit result endBlock
            (entry.tagged.arm.moved move)
          let later ← emitMatchCases emit result scrutinee tag noMatch
            endBlock (rest.map (PlacedArm.moved move))
          pure (edges ++ later)) := by
        refine .step (echoes_emitMatchArm oblivious _ _ _) fun edges => ?_
        exact .step ih fun later => .pure _
      cases outcome with
      | ok _ => exact others ()
      | error cause => exact .step (echoes_report _ cause) others

omit oblivious in
theorem echoes_appendNumbered (stem : String) (count number : Nat) :
    Echoes move id (appendNumbered stem count number)
      (appendNumbered stem count number) := by
  unfold appendNumbered
  induction List.range count with
  | nil => exact .pure []
  | cons index indices ih =>
      rw [List.mapM_cons]
      exact .build fun _ => .step ih fun _ => .pure _

omit oblivious in
theorem echoes_placeArms (arms : List TaggedArm) (number : Nat) :
    Echoes move (List.map (PlacedArm.moved move)) (placeArms arms number)
      (placeArms (arms.map (TaggedArm.moved move)) number) := by
  unfold placeArms
  rw [List.length_map]
  refine .step (echoes_appendNumbered _ _ number) fun tests => ?_
  refine .step (echoes_appendNumbered _ _ number) fun bodies => ?_
  rw [List.zip_map_left, List.map_map]
  refine (congrArg (Echoes _ _ _ <| pure ·) ?_).mp (.pure _)
  rw [List.map_map]
  rfl

theorem echoes_emitMatchBlocks (result : Option MatchResult)
    (scrutinee tag : Value) (arms : List TaggedArm) (default : Option Arm) :
    Echoes move id (emitMatchBlocks emit result scrutinee tag arms default)
      (emitMatchBlocks emit result scrutinee tag
        (arms.map (TaggedArm.moved move)) (default.map (Arm.moved move))) := by
  refine .step echoes_freshId fun number => ?_
  refine .bind (echoes_placeArms arms number) fun placed => ?_
  refine .step (fun _ _ => rfl) fun start => ?_
  simp only [firstArmTest_moved]
  cases default with
  | some arm =>
      refine .build fun defaultBlock => .build fun endBlock => ?_
      refine .build fun _ => ?_
      refine .step (echoes_emitMatchCases oblivious _ _ _ _ _ placed)
        fun edges => .build fun _ => ?_
      refine .step (echoes_emitMatchArm oblivious _ _ arm) fun last => ?_
      exact .build fun _ => .pure _
  | none =>
      refine .build fun endBlock => .build fun _ => ?_
      refine .step (echoes_emitMatchCases oblivious _ _ _ _ _ placed)
        fun edges => .build fun _ => ?_
      have unmatched : (placed.map (PlacedArm.moved move)).getLast?.map
          PlacedArm.testBlock = placed.getLast?.map PlacedArm.testBlock := by
        rw [List.getLast?_map, Option.map_map]
        rfl
      rw [unmatched]
      split
      · exact .build fun undefined => .step (fun _ _ => rfl) fun _ => .pure _
      · exact .pure _

theorem oblivious_emitMatch : Oblivious move (emitMatch emit) := by
  intro items
  refine .bind (repeats_readResult items) fun (result, rest) => ?_
  refine .symbol fun sum => .orFail _ List.getElem?_map
    fun scrutineeForm => ?_
  simp only [← List.map_drop, KeywordArguments.ofItems_moved,
    vectorOf_moved, KeywordArguments.get?_moved]
  refine .environment fun environment => .found _ fun layout => ?_
  refine .bind (repeats_readCases layout sum _) fun arms => ?_
  refine .bind (repeats_default _) fun default => ?_
  refine .step (repeats_sumOperand scrutineeForm layout _)
    fun scrutinee => ?_
  refine .build fun _ => .found _ fun tagAddress => ?_
  refine .build fun _ => .found _ fun tag => ?_
  refine .step (.lift (echoes_emitMatchBlocks oblivious result scrutinee tag
    arms default)) fun (endBlock, incoming) => ?_
  cases result with
  | none => exact .pure ()
  | some result =>
      refine .step (.lift (echoes_placePhi _ _ _ _)) fun phi => ?_
      exact .step (fun _ _ => rfl) fun _ => repeats_define _ phi _

end Constructs

/-! ## Forms -/

section Forms

variable {move : Move}

theorem oblivious_dispatch {emit : FormEmitter}
    (oblivious : ∀ form, Echoes move id (emit form) (emit (form.moved move)))
    (opcode : Opcode) : Oblivious move (dispatch emit opcode) := by
  cases opcode with
  | conditional => exact oblivious_emitConditional oblivious
  | whileLoop => exact oblivious_emitWhile oblivious
  | forLoop => exact oblivious_emitFor oblivious
  | switch => exact oblivious_emitSwitch oblivious
  | sumMatch => exact oblivious_emitMatch oblivious
  | breakLoop => exact oblivious_emitBreak
  | continueLoop => exact oblivious_emitContinue
  | block => exact oblivious_emitBlock oblivious
  | phi => exact oblivious_emitPhi
  | ret => exact oblivious_emitReturn
  | panic => exact fun _ => repeats_emitPanic
  | tryCatch => exact oblivious_emitTry oblivious
  | constant => exact oblivious_emitConstant
  | binary operator => exact oblivious_emitBinary operator
  | comparison comparison => exact oblivious_emitComparison comparison
  | compareInt => exact oblivious_emitCompareInt
  | compareFloat => exact oblivious_emitCompareFloat
  | cast operator => exact oblivious_emitCast operator
  | pointerAdd => exact oblivious_emitPointerOffset false
  | pointerSub => exact oblivious_emitPointerOffset true
  | pointerDiff => exact oblivious_emitPointerDiff
  | localVariable => exact oblivious_emitVariable
  | assign => exact oblivious_emitAssign
  | alloca => exact oblivious_emitAlloca
  | load => exact oblivious_emitLoad
  | store => exact oblivious_emitStore
  | loadGlobal => exact oblivious_emitLoadGlobal
  | storeGlobal => exact oblivious_emitStoreGlobal
  | index => exact oblivious_emitIndex
  | arrayLiteral => exact oblivious_emitArrayLiteral
  | structLiteral => exact oblivious_emitStructLiteral
  | member => exact oblivious_emitMember
  | memberAddress => exact oblivious_emitMemberAddress
  | unionMember => exact oblivious_emitUnionMember
  | address => exact oblivious_emitAddress
  | dereference => exact oblivious_emitDereference
  | functionPointer => exact oblivious_emitFunctionPointer
  | call => exact oblivious_emitCall
  | callIndirect => exact oblivious_emitCallIndirect
  | vaStart => exact oblivious_emitVaStart
  | vaArg => exact oblivious_emitVaArg
  | vaEnd => exact oblivious_emitVaEnd
  | textLiteral => exact oblivious_emitTextLiteral
  | bytesLiteral => exact oblivious_emitBytesLiteral
  | closure => exact oblivious_emitClosure
  | makeClosure => exact oblivious_emitMakeClosure
  | callClosure => exact oblivious_emitCallClosure
  | coroutine step => exact oblivious_emitCoroutineStep step
  | sumNew => exact oblivious_emitSumNew
  | sumIs => exact oblivious_emitSumIs
  | sumGet => exact oblivious_emitSumGet

theorem echoes_atPlaceOf (form : Form) {first second : Emission Unit}
    (echoes : Echoes move id first second) :
    Echoes move id (atPlaceOf form first)
      (atPlaceOf (form.moved move) second) := by
  unfold atPlaceOf
  refine .state fun state => ?_
  refine .step (fun _ state => ?_) fun _ =>
    .step echoes fun _ => fun _ _ => rfl
  exact congrArg (fun span => ((), ({ state.moved move with
    span := span } : EmitState))) (form.place_or_span? _).symm

theorem echoes_emitList {emit : FormEmitter}
    (oblivious : ∀ form, Echoes move id (emit form) (emit (form.moved move)))
    (form : Form) (items : List Form) :
    Echoes move id (emitList emit form items)
      (emitList emit (form.moved move) (items.map (Form.moved move))) := by
  refine echoes_atPlaceOf form ?_
  rw [Form.head?_moved]
  refine .bind (show Repeats move id _ _ from ?_) fun outcome => ?_
  · split
    · exact oblivious_dispatch oblivious _ items
    · exact .throw _
  cases outcome with
  | ok _ => exact .pure ()
  | error cause => exact echoes_report _ cause

/-- A moved form does elsewhere what the form does. -/
theorem echoes_emitWithin (depth : Nat) (form : Form) :
    Echoes move id (emitWithin depth form)
      (emitWithin depth (form.moved move)) := by
  induction depth generalizing form with
  | zero =>
      unfold emitWithin
      rw [Form.kindName_moved]
      exact echoes_report _ _
  | succ depth ih =>
      unfold emitWithin
      rw [Form.list?_moved, Form.kindName_moved]
      cases form.list? with
      | none => exact echoes_report _ _
      | some items => exact echoes_emitList ih form items

theorem echoes_emitForm (form : Form) :
    Echoes move id (emitForm form) (emitForm (form.moved move)) := by
  unfold emitForm
  rw [Form.height_moved]
  exact echoes_emitWithin form.height form

end Forms

/-! ## Functions -/

section Functions

variable {move : Move}

theorem repeats_edgeValue (pending : PendingPhi) (source : EdgeSource)
    (block : BlockId) :
    Repeats move id (edgeValue pending source block)
      (edgeValue pending source block) := by
  have checked (value : Value) : Repeats move id (do
      let destination := pending.destination
      expectType s!"phi `{destination}`" pending.type value.type
      pure value) (do
      let destination := pending.destination
      expectType s!"phi `{destination}`" pending.type value.type
      pure value) :=
    .step (repeats_expectType _ _ _) fun _ => .pure value
  unfold edgeValue
  cases source with
  | value value => exact .step (.pure value) checked
  | named name =>
      refine .build fun point => .build fun _ => ?_
      refine .step (.lift (echoes_getValue name)) fun value => ?_
      exact .build fun _ => .step (.given _ _) checked

theorem echoes_addEdge (pending : PendingPhi) (edge : EdgeSource × String) :
    Echoes move id (addEdge pending edge) (addEdge pending edge) := by
  refine .state fun state => ?_
  have same : (state.moved move).builder = state.builder := rfl
  rw [same]
  cases state.builder.findBlock? edge.2 with
  | none => exact .pure ()
  | some block =>
      refine .bind (repeats_edgeValue pending edge.1 block) fun outcome => ?_
      cases outcome with
      | ok value => exact .step (.pure value) fun _ => echoes_onBuilder _
      | error cause =>
          refine .step (echoes_report _ cause) fun _ => ?_
          exact .build fun _ => echoes_onBuilder _

theorem echoes_completePhis : Echoes move id completePhis completePhis := by
  refine .state fun state => .step (fun _ _ => rfl) fun _ => ?_
  exact .forM fun phi => .forM fun edge => echoes_addEdge phi edge

theorem repeats_bindParameters (function : FunctionId) (name : String)
    (index : Nat) (parameters : List (String × TypeId)) :
    Repeats move id (bindParameters function name index parameters)
      (bindParameters function name index parameters) := by
  induction parameters generalizing index with
  | nil => exact .pure ()
  | cons parameter parameters ih =>
      obtain ⟨parameter, type⟩ := parameter
      refine .step (fun _ _ => rfl) fun _ => ?_
      refine .step (fun _ _ => rfl) fun module => ?_
      dsimp only
      split
      · exact .throw _
      · refine .step (.lift (.modifyContext fun _ => rfl)) fun _ => ?_
        refine .context fun context => ?_
        rw [FunctionContext.isMutable_moved]
        refine .ite ?_ (ih (index + 1))
        exact .step (.lift (echoes_ensureSlot _ _ _)) fun _ => ih (index + 1)

theorem echoes_markPersonality (function : FunctionId) :
    Echoes move id (markPersonality function) (markPersonality function) := by
  refine .step (fun _ _ => rfl) fun personality => ?_
  cases personality with
  | none => exact .pure ()
  | some personality =>
      refine .step (fun _ _ => rfl) fun routine => ?_
      exact .step (fun _ _ => rfl) fun _ => fun _ _ => rfl

theorem repeats_emitBody (function : FunctionId) (header : FunctionHeader)
    (body : List Form) :
    Repeats move id (emitBody function header body)
      (emitBody function (header.moved move) (body.map (Form.moved move))) := by
  refine .step (.lift (echoes_markPersonality function)) fun _ => ?_
  refine .build fun entry => .build fun _ => ?_
  refine .step (repeats_bindParameters function _ 0 _) fun _ => ?_
  refine .step (.lift (echoes_emitSequence echoes_emitForm body)) fun _ => ?_
  refine .step (fun _ _ => rfl) fun ended => ?_
  have finished (_ : Unit) : Repeats move id (do
      completePhis
      let detached := (← get).builder.detached
      if 0 < detached then
        throw (EmitError.noInsertionPoint header.name detached)) (do
      completePhis
      let detached := (← get).builder.detached
      if 0 < detached then
        throw (EmitError.noInsertionPoint (header.moved move).name detached)) :=
    .step (.lift echoes_completePhis) fun _ => .state fun state =>
      .ite (.throw _) (.pure ())
  refine .ite ?_ (finished ())
  refine .step (fun _ _ => rfl) fun type => ?_
  exact .step (.lift (echoes_buildDefaultReturn type)) finished

end Functions

/-! ## Modules -/

/-- The state elsewhere. -/
def ModuleState.moved (move : Move) (state : ModuleState) : ModuleState :=
  { state with
    headers := state.headers.map (FunctionHeader.moved move)
    problems := move.earlier ++ state.problems.map (Problem.moved move) }

section Modules

variable {move : Move}

theorem ModuleState.moved_addProblem (nowhere : move.KeepsNowhere)
    (state : ModuleState) (operation : String) (span : Option Span)
    (cause : ProblemCause) :
    (state.addProblem operation span cause).moved move =
      (state.moved move).addProblem operation (move.place span) cause := by
  unfold addProblem moved
  rw [List.map_append, ← List.append_assoc, ←
    moved_moduleProblem nowhere operation span cause]
  rfl

/-- The second does elsewhere what the first does. -/
def Retells (move : Move) {Result : Type} (strip : Result → Result)
    (first second : ModuleEmission Result) : Prop :=
  ∀ state, second (state.moved move) =
    (strip (first state).1, (first state).2.moved move)

namespace Retells

variable {Result Part : Type} {strip : Part → Part}
  {last : Result → Result} {first second : ModuleEmission Part}
  {next other : Part → ModuleEmission Result}

theorem pure (part : Part) :
    Retells move strip (Pure.pure part) (Pure.pure (strip part)) :=
  fun _ => rfl

theorem bind (retells : Retells move strip first second)
    (rest : ∀ part, Retells move last (next part) (other (strip part))) :
    Retells move last (first >>= next) (second >>= other) := by
  intro state
  show other (second (state.moved move)).1 (second (state.moved move)).2 = _
  rw [retells]
  exact rest _ _

theorem step (retells : Retells move id first second)
    (rest : ∀ part, Retells move last (next part) (other part)) :
    Retells move last (first >>= next) (second >>= other) :=
  retells.bind rest

theorem lift {first second : ModuleEmission Part}
    (retells : Retells move id first second) :
    Retells move id (liftM first : ModuleHandler Part).run
      (liftM second : ModuleHandler Part).run := by
  intro state
  show (Except.ok (second (state.moved move)).1,
    (second (state.moved move)).2) = _
  rw [retells]
  rfl

/-- Handlers in sequence. -/
theorem handle {first second : ModuleHandler Part}
    {next other : Part → ModuleHandler Result}
    (retells : Retells move id first.run second.run)
    (rest : ∀ part, Retells move id (next part).run (other part).run) :
    Retells move id (first >>= next).run (second >>= other).run := by
  rw [ExceptT.run_bind, ExceptT.run_bind]
  refine step retells fun outcome => ?_
  cases outcome with
  | error error => exact pure _
  | ok part => exact rest part

/-- Looking at the state. -/
theorem look {next other : ModuleState → ModuleHandler Result}
    (rest : ∀ state,
      Retells move id (next state).run (other (state.moved move)).run) :
    Retells move id (get >>= next).run (get >>= other).run :=
  fun state => rest state state

end Retells

section

variable (nowhere : move.KeepsNowhere)

include nowhere

theorem retells_addProblem (operation : String) (span : Option Span)
    (cause : ProblemCause) :
    Retells move id (modify (·.addProblem operation span cause))
      (modify (·.addProblem operation (move.place span) cause)) := by
  intro state
  exact congrArg (Prod.mk ())
    (ModuleState.moved_addProblem nowhere state operation span cause).symm

theorem retells_reading {Result : Type} {strip : Result → Result}
    {reader other : TypeReader Result} (same : other = strip <$> reader)
    (operation : String) (span : Option Span) :
    Retells move (Option.map strip) (reading operation span reader)
      (reading operation (move.place span) other) := by
  subst same
  have read : Retells move (Except.map strip)
      (onModule (Module.withTypes reader.run))
      (onModule (Module.withTypes (strip <$> reader).run)) := by
    rw [ExceptT.run_map]
    exact fun _ => rfl
  refine .bind read fun outcome => ?_
  cases outcome with
  | ok result => exact .pure (some result)
  | error cause =>
      exact .step (retells_addProblem nowhere operation span cause) fun _ =>
        .pure none

theorem retells_declareGlobal (form : Form) :
    Retells move id (declareGlobal form) (declareGlobal (form.moved move)) := by
  unfold declareGlobal
  rw [KeywordArguments.ofForm_moved, Form.span?_moved nowhere]
  generalize KeywordArguments.ofForm form = arguments
  simp only [KeywordArguments.symbol?_moved, KeywordArguments.get?_moved,
    KeywordArguments.flag_moved, globalInitializer_moved]
  cases arguments.symbol? "name" with
  | none => exact retells_addProblem nowhere _ _ _
  | some name =>
      cases arguments.get? "type" with
      | none => exact retells_addProblem nowhere _ _ _
      | some typeForm =>
          have same : readType (typeForm.moved move) =
              id <$> readType typeForm := by
            rw [readType_moved, id_map]
          refine .bind (retells_reading nowhere same "global" form.span?)
            fun found => ?_
          cases found with
          | none => exact .pure ()
          | some type => exact fun _ => rfl

theorem retells_declareHeader (form : Form) :
    Retells move id (declareHeader form) (declareHeader (form.moved move)) := by
  unfold declareHeader
  rw [Form.span?_moved nowhere]
  refine .bind (retells_reading nowhere (readHeader_moved form) "fn" form.span?)
    fun found => ?_
  cases found with
  | none => exact .pure ()
  | some header =>
      refine .step (fun _ => rfl) fun _ => fun state => ?_
      have added : (state.moved move).headers ++ [header.moved move] =
          (state.headers ++ [header]).map (FunctionHeader.moved move) := by
        rw [List.map_append]
        rfl
      exact congrArg (fun headers => ((), ({ state.moved move with
        headers := headers } : ModuleState))) added

theorem retells_declare (form : Form) :
    Retells move id (declare form) (declare (form.moved move)) := by
  unfold declare
  rw [Form.head?_moved, Form.span?_moved nowhere]
  split
  · exact retells_declareGlobal nowhere form
  · exact retells_declareHeader nowhere form
  · split
    · exact .pure ()
    · exact retells_addProblem nowhere _ _ _

theorem retells_declarations (forms : List Form) :
    Retells move id
      (forms.forM fun form => (declare form : ModuleHandler Unit)).run
      ((forms.map (Form.moved move)).forM fun form =>
        (declare form : ModuleHandler Unit)).run := by
  induction forms with
  | nil => exact .pure _
  | cons form forms ih =>
      rw [List.map_cons, List.forM_eq_forM, List.forM_cons, List.forM_cons]
      exact .handle (.lift (retells_declare nowhere form)) fun _ => ih

theorem retells_layOutModule (forms : List Form) :
    Retells move id (layOutModule forms)
      (layOutModule (forms.map (Form.moved move))) := by
  intro state
  have laidOut : layOut (forms.map (Form.moved move))
      (state.moved move).module.types =
      (layOut forms state.module.types).moved move :=
    layOut_moved nowhere forms state.module.types
  have run (forms : List Form) (state : ModuleState) :
      layOutModule forms state = ((), { state with
        module := { state.module with
          types := (layOut forms state.module.types).table }
        layouts := (layOut forms state.module.types).layouts
        problems := state.problems ++
          (layOut forms state.module.types).problems }) := rfl
  rw [run, run, laidOut]
  simp only [ModuleState.moved, LayoutState.moved, List.map_append,
    List.append_assoc, id]

section

variable (named : move.name = id)

include named

theorem retells_emitFunction (configuration : Configuration)
    (header : FunctionHeader) (body : List Form) :
    Retells move id (emitFunction configuration header body).run
      (emitFunction configuration (header.moved move)
        (body.map (Form.moved move))).run := by
  intro state
  rw [run_emitFunction, run_emitFunction]
  have declared : (state.moved move).module.function?
      (header.moved move).name = state.module.function? header.name := rfl
  rw [declared]
  cases state.module.function? header.name with
  | none => rfl
  | some function =>
      have entered : (state.moved move).entering function (header.moved move)
          (body.map (Form.moved move)) =
          (state.entering function header body).moved move := by
        unfold ModuleState.entering
        rw [mutableNames_moved]
        unfold EmitState.moved
        rw [nowhere.place]
        rfl
      have repeats : Repeats move id (emitBody function header body)
          (emitBody function (header.moved move)
            (body.map (Form.moved move))) :=
        repeats_emitBody function header body
      have emitted := repeats (state.around configuration function)
        (state.entering function header body)
      have unchanged (outcome : Except EmitError Unit) :
          outcome.map id = outcome := by
        cases outcome <;> rfl
      have around : (state.around configuration function).moved move =
          state.around configuration function := by
        unfold Environment.moved
        rw [named]
        rfl
      rw [unchanged, around] at emitted
      dsimp only
      rw [entered]
      exact congrArg (fun outcome : Except EmitError Unit × EmitState =>
        (outcome.1, (state.moved move).leaving outcome.2)) emitted

theorem retells_emitFunctions (configuration : Configuration)
    (headers : List FunctionHeader) :
    Retells move id (emitFunctions configuration headers).run
      (emitFunctions configuration
        (headers.map (FunctionHeader.moved move))).run := by
  induction headers with
  | nil => exact .pure _
  | cons header headers ih =>
      rw [List.map_cons]
      unfold emitFunctions
      obtain ⟨name, type, parameters, body⟩ := header
      cases body with
      | none => exact ih
      | some body =>
          exact .handle
            (retells_emitFunction nowhere named configuration _ body)
            fun _ => ih

theorem retells_emitModule (configuration : Configuration) (form : Form) :
    Retells move id (emitModule configuration form).run
      (emitModule configuration (form.moved move)).run := by
  have items : ((form.moved move).list?.getD []).tail =
      (form.list?.getD []).tail.map (Form.moved move) := by
    rw [Form.list?_moved]
    cases form.list? <;> simp
  unfold emitModule
  rw [Form.head?_moved, Form.kindName_moved, items, splitModule_moved]
  generalize splitModule (form.list?.getD []).tail = split
  obtain ⟨parts, error⟩ := split
  dsimp only
  split
  · exact fun _ => rfl
  · simp only [applySettings_moved]
    refine .handle (fun _ => rfl) fun _ => ?_
    cases error with
    | some error => exact fun _ => rfl
    | none =>
        refine .handle (.lift (retells_layOutModule nowhere _)) fun _ => ?_
        refine .handle (retells_declarations nowhere _) fun _ => ?_
        refine .look fun state => ?_
        have bodies : ((state.moved move).headers.any fun header =>
            header.body.isSome) =
            state.headers.any fun header => header.body.isSome := by
          show (state.headers.map (FunctionHeader.moved move)).any _ = _
          rw [List.any_map]
          simp [Function.comp_def, FunctionHeader.moved]
        have functions := retells_emitFunctions nowhere named configuration
          state.headers
        rw [bodies]
        cases configuration.personality with
        | none => exact functions
        | some personality =>
            dsimp only
            split
            · exact .handle (fun _ => rfl) fun _ => functions
            · exact functions

/-- What is left elsewhere. -/
def Emitted.moved (move : Move) (emitted : Emitted) : Emitted :=
  { emitted with state := emitted.state.moved move }

theorem emitted_moved (alone : move.earlier = [])
    (configuration : Configuration) (form : Form) :
    emitted configuration (form.moved move) =
      (emitted configuration form).moved move := by
  have retold := retells_emitModule nowhere named configuration form
    (ModuleState.ofConfiguration configuration)
  have fresh : (ModuleState.ofConfiguration configuration).moved move =
      ModuleState.ofConfiguration configuration := by
    unfold ModuleState.moved
    rw [alone]
    rfl
  rw [fresh] at retold
  unfold emitted
  rw [retold]
  rfl

end

end

end Modules

/-- Where a module form stands in its source has no influence on what is
emitted: two forms of one datum fail alike or not at all, and give the same
module and the same problems but for their places. -/
theorem emitted_of_datum_eq (configuration : Configuration)
    (left right : Form) (same : left.datum = right.datum) :
    let first := emitted configuration left
    let second := emitted configuration right
    first.error = second.error ∧
      first.state.module = second.state.module ∧
      first.state.problems.map Problem.unplaced =
        second.state.problems.map Problem.unplaced := by
  intro first second
  have moved (form : Form) : emitted configuration (form.moved .away) =
      (emitted configuration form).moved .away :=
    emitted_moved (show Move.KeepsNowhere .away from ⟨rfl, rfl⟩) rfl rfl
      configuration form
  have away : first.moved .away = second.moved .away := by
    rw [← moved left, ← moved right, Form.moved_away_eq_of_datum_eq same]
  have error : (first.moved .away).error = (second.moved .away).error := by
    rw [away]
  have module : (first.moved .away).state.module =
      (second.moved .away).state.module := by
    rw [away]
  have problems : (first.moved .away).state.problems =
      (second.moved .away).state.problems := by
    rw [away]
  exact ⟨error, module, problems⟩

/-- `(module (fn :name f :ret i32 :body [(jump)]))` with an instruction that
there is none of, and the metadata of the instruction. -/
def jumpingModule (metadata : Metadata) : Form :=
  Form.list [Form.symbol "module",
    Form.keywordCall "fn" [("name", Form.symbol "f"),
      ("ret", Form.symbol "i32"),
      ("body", Form.vector [.group metadata .list [Form.symbol "jump"]])]]

/-- The problem is at another place and nothing else differs. -/
theorem emitted_of_datum_eq_jumpingModule :
    let placed := jumpingModule (.ofSpan ⟨⟨1, 35⟩, ⟨1, 41⟩⟩)
    let unplaced := jumpingModule .empty
    (emitted {} placed).state.problems ≠
        (emitted {} unplaced).state.problems ∧
      (emitted {} placed).error = (emitted {} unplaced).error ∧
      (emitted {} placed).state.module = (emitted {} unplaced).state.module ∧
      (emitted {} placed).state.problems.map Problem.unplaced =
        (emitted {} unplaced).state.problems.map Problem.unplaced := by
  intro placed unplaced
  have same : placed.datum = unplaced.datum := rfl
  exact ⟨by decide +kernel, emitted_of_datum_eq {} placed unplaced same⟩

end FormCompiler
