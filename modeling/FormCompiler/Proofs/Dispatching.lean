import FormCompiler.Proofs.MatchCoverage
import FormCompiler.Proofs.MemoryTraces
import FormCompiler.Proofs.ReturnedValues

/-!
# Switches and matches dispatch to the first equal case

Control is followed through the blocks that test a value, given what the
registers of these blocks hold.  Each test leads on where its number is not the
value, so control comes to the body of the first case that is for the value,
and to the default or the end of the construct where there is none.

Nothing that is emitted later changes this: blocks keep their instructions and
their ends.
-/

namespace FormCompiler

open Ir

open EmitState (Stage IsTarget)

/-! ## Following control -/

namespace Ir

/-- What an operand of an integer type stands for, given what registers and
arguments hold. -/
def Operand.word (valuation : Operand → Int) (bits : Nat) :
    Operand → BitVec bits
  | .int _ value => .ofInt bits value
  | operand => .ofInt bits (valuation operand)

/-- Whether a comparison of words comes out true. -/
def IntPredicate.holds {bits : Nat} (left right : BitVec bits) :
    IntPredicate → Bool
  | .eq => left == right
  | .ne => left != right
  | .ugt => right.ult left
  | .uge => right.ule left
  | .ult => left.ult right
  | .ule => left.ule right
  | .sgt => right.slt left
  | .sge => right.sle left
  | .slt => left.slt right
  | .sle => left.sle right

/-- The registers of a block's comparisons hold how these come out. -/
def Block.Computes (block : Block) (valuation : Operand → Int) : Prop :=
  ∀ instruction ∈ block.instructions, ∀ predicate left right bits,
    instruction.operation = .compareInt predicate left right →
    right.type = .int bits →
    (Operand.register instruction.register (.int 1)).word valuation 1 =
      .ofBool (predicate.holds (left.word valuation bits)
        (right.word valuation bits))

namespace Module

variable {module : Module} {valuation : Operand → Int} {scrutinee : Operand}
  {bits : Nat} {noMatch : BlockId}

/-- The block that control passes to at the end of a block. -/
def successor? (module : Module) (valuation : Operand → Int) (id : BlockId) :
    Option BlockId :=
  match module.terminator? id with
  | some (.branch target) => some target
  | some (.branchIf condition thenTarget elseTarget) =>
      some (if condition.word valuation 1 = 1 then thenTarget else elseTarget)
  | _ => none

/-- Control passes from a block through some others, one by one, to a last
one. -/
def Follows (module : Module) (valuation : Operand → Int) (start : BlockId)
    (passed : List BlockId) (target : BlockId) : Prop :=
  List.IsChain (fun id next => module.successor? valuation id = some next)
    (start :: (passed ++ [target]))

/-- The comparisons of the blocks that test for some cases are computed. -/
def ComputesTests (module : Module) (valuation : Operand → Int)
    (routes : List Route) : Prop :=
  ∀ route ∈ routes, ∀ block, module.block? route.testBlock = some block →
    block.Computes valuation

end Module

theorem Operand.word_ofInt (valuation : Operand → Int) (bits : Nat)
    (number : Int) :
    (Operand.ofInt bits number).word valuation bits = .ofInt bits number := by
  apply BitVec.eq_of_toInt_eq
  rw [ofInt, word, BitVec.toInt_ofInt, BitVec.toInt_ofInt]
  exact Int.bmod_bmod

end Ir

/-- The body of the first case that is for a word. -/
def Route.target {bits : Nat} (word : BitVec bits) (noMatch : BlockId)
    (routes : List Route) : BlockId :=
  ((routes.find? fun route => BitVec.ofInt bits route.number = word).map
    Route.bodyBlock).getD noMatch

namespace Ir.Module

variable {module : Module} {valuation : Operand → Int} {scrutinee : Operand}
  {bits : Nat} {noMatch : BlockId}

/-- Where a test leads. -/
theorem Tests.successor? {route : Route} {next : BlockId}
    (tests : module.Tests scrutinee bits route next)
    (computes : ∀ block, module.block? route.testBlock = some block →
      block.Computes valuation) :
    module.successor? valuation route.testBlock =
      some (if BitVec.ofInt bits route.number =
          scrutinee.word valuation bits then
        route.bodyBlock else next) := by
  obtain ⟨register, ⟨block, found, instruction, member, rfl, operation⟩,
    ends⟩ := tests
  have outcome := computes block found instruction member .eq scrutinee
    (.ofInt bits route.number) bits operation rfl
  rw [Operand.word_ofInt] at outcome
  rw [Module.successor?, ends]
  dsimp only
  rw [outcome]
  congr 1
  by_cases same : BitVec.ofInt bits route.number =
      scrutinee.word valuation bits
  · rw [if_pos same, if_pos]
    simp [IntPredicate.holds, same]
  · rw [if_neg same, if_neg]
    simp [IntPredicate.holds, beq_eq_false_iff_ne.mpr (Ne.symm same)]

/-- Control that comes to a chain of tests leaves it at the first case that is
for the value. -/
theorem Chains.follows {routes : List Route}
    (chains : module.Chains scrutinee bits noMatch routes)
    (computes : module.ComputesTests valuation routes) {start : BlockId}
    (starts : module.successor? valuation start =
      some (Route.first noMatch routes)) :
    ∃ passed, passed <+: routes.map Route.testBlock ∧
      module.Follows valuation start passed
        (Route.target (scrutinee.word valuation bits) noMatch routes) := by
  induction routes generalizing start with
  | nil => exact ⟨[], List.nil_prefix, .cons_cons starts (.singleton _)⟩
  | cons route rest ih =>
      obtain ⟨own, others⟩ := List.forall_mem_cons.mp computes
      have leads := chains.1.successor? own
      unfold Route.target
      rw [List.find?_cons]
      by_cases same : BitVec.ofInt bits route.number =
          scrutinee.word valuation bits
      · rw [decide_eq_true same]
        rw [if_pos same] at leads
        exact ⟨[route.testBlock], ⟨_, rfl⟩,
          .cons_cons starts (.cons_cons leads (.singleton _))⟩
      · rw [decide_eq_false same]
        rw [if_neg same] at leads
        obtain ⟨passed, within, follows⟩ := ih chains.2 others leads
        exact ⟨route.testBlock :: passed,
          List.prefix_cons_inj route.testBlock |>.mpr within,
          .cons_cons starts follows⟩

end Ir.Module

/-- Control comes to the body of the first of some cases that is for the value
of an operand, to the default where there is none and to the end where there is
no default either.  Each body stands in a block of its own, and where it does
not end otherwise, it goes on at the end. -/
def DispatchesFirst (scene : Scene) (start : BlockId) (scrutinee : Operand)
    (bits : Nat) (cases : List (Int × Emission Unit))
    (default : Option (Emission Unit)) (endBlock : BlockId)
    (module : Module) : Prop :=
  ∃ (placed : List (Route × Emission Unit))
    (otherwise : Option (BlockId × Emission Unit)),
    (placed.map fun entry => (entry.1.number, entry.2)) = cases ∧
    otherwise.map Prod.snd = default ∧
    (start :: (placed.map Prod.fst).flatMap Route.blocks ++
      (otherwise.map Prod.fst).toList ++ [endBlock]).Nodup ∧
    (∀ valuation, module.ComputesTests valuation (placed.map Prod.fst) →
      ∃ passed, passed <+: (placed.map Prod.fst).map Route.testBlock ∧
        module.Follows valuation start passed
          (Route.target (scrutinee.word valuation bits)
            ((otherwise.map Prod.fst).getD endBlock)
            (placed.map Prod.fst))) ∧
    (∀ entry ∈ placed,
      HasBody scene entry.2 entry.1.bodyBlock endBlock module) ∧
    ∀ entry ∈ otherwise, HasBody scene entry.2 entry.1 endBlock module

theorem Dispatches.first {scene : Scene} {start : BlockId}
    {scrutinee : Operand} {bits : Nat} {cases : List (Int × Emission Unit)}
    {default : Option (Emission Unit)} {endBlock : BlockId} {module : Module}
    (dispatches : Dispatches scene start scrutinee bits cases default endBlock
      module) :
    DispatchesFirst scene start scrutinee bits cases default endBlock
      module := by
  obtain ⟨placed, otherwise, numbers, bodies, dispatched⟩ := dispatches
  refine ⟨placed, otherwise, numbers, bodies, dispatched.distinct, ?_,
    dispatched.bodies, dispatched.defaults⟩
  intro valuation computes
  refine dispatched.chains.follows computes ?_
  rw [Module.successor?, dispatched.starts]

/-! ## Handlers that succeed -/

/-- A handler can give a result. -/
def CanGive {Result : Type} (scene : Scene) (handler : Handler Result)
    (result : Result) : Prop :=
  ∃ state, (handler.run scene.environment state).1 = .ok result

variable {scene : Scene} {origin state : EmitState} {owed : List BlockId}
  {known : EmitState → Prop} {emit : FormEmitter} {start : BlockId}
  {Result Other : Type}

/-- A quiet handler first. -/
theorem Achieves.quietAt [Lasting known] {handler : Handler Result}
    {next : Result → Handler Other} {after : Other → EmitState → Prop}
    {enough : TypeTable → Prop} {gives : TypeTable → Result → Prop}
    (handles : Handles scene enough handler gives)
    (implies : ∀ state, known state → enough state.table)
    (rest : ∀ result, CanGive scene handler result → Achieves scene
      (fun state => Writing scene origin owed (fun state =>
          known state ∧ gives state.table result) state ∧
        state.builder.block = some start) (next result) after) :
    Achieves scene
      (fun state => Writing scene origin owed known state ∧
        state.builder.block = some start) (handler >>= next) after := by
  have first : Achieves scene
      (fun state => Writing scene origin owed known state ∧
        state.builder.block = some start) handler fun result state =>
        CanGive scene handler result ∧
          Writing scene origin owed (fun state =>
            known state ∧ gives state.table result) state ∧
          state.builder.block = some start := by
    intro state both result ok
    obtain ⟨writing, current⟩ := Proceeds.quietAt handles implies state both
    exact ⟨⟨state, ok⟩, writing.imp fun holds =>
      ⟨holds.1, holds.2 result ok⟩, current⟩
  refine .bind first fun result => .assume (fun _ both => both.1) fun gives =>
    (rest result gives).given fun _ both => both.2

/-- A handler that is quiet in any case first. -/
theorem Achieves.quietlyAt [Lasting known] {handler : Handler Result}
    {next : Result → Handler Other} {after : Other → EmitState → Prop}
    {gives : TypeTable → Result → Prop}
    (handles : Handles scene (fun _ => True) handler gives)
    (rest : ∀ result, CanGive scene handler result → Achieves scene
      (fun state => Writing scene origin owed (fun state =>
          known state ∧ gives state.table result) state ∧
        state.builder.block = some start) (next result) after) :
    Achieves scene
      (fun state => Writing scene origin owed known state ∧
        state.builder.block = some start) (handler >>= next) after :=
  .quietAt handles (fun _ _ => trivial) rest

/-! ## Switches -/

/-- The keyword arguments of a switch. -/
def switchArguments (items : List Form) : KeywordArguments :=
  .ofItems (items.drop 2)

/-- The cases of a switch, in order. -/
def switchCases? (items : List Form) : Option (List (Int64 × List Form)) :=
  ((switchArguments items).vector? "cases").bind (·.mapM switchCase?)

/-- What a switch leaves, with the value that it is on. -/
def SwitchDispatches (scene : Scene) (emit : FormEmitter) (start : BlockId)
    (items : List Form) (scrutinee : Value) (state : EmitState) : Prop :=
  ∃ bits cases endBlock,
    state.table.kind scrutinee.type = .int bits ∧
    switchCases? items = some cases ∧
    state.builder.block = some endBlock ∧
    Dispatches scene start scrutinee.operand bits
      (cases.map (switchArm emit))
      (((switchArguments items).vector? "default").map (emitSequence emit))
      endBlock state.builder.module

theorem getElem?_of_itemAt {items : List Form} {index : Nat} {shape : String}
    {form : Form} (found : itemAt items index shape = .ok form) :
    items[index]? = some form := by
  unfold itemAt at found
  split at found
  · next same => cases found; exact same
  · cases found

theorem achieves_emitSwitch (advances : ∀ form, Advances scene (emit form))
    (items : List Form) :
    Achieves scene
      (fun state => Writing scene origin owed (fun _ => True) state ∧
        state.builder.block = some start) (emitSwitch emit items)
      fun _ state => ∃ form scrutinee, items[1]? = some form ∧
        CanGive scene (valueOf form) scrutinee ∧
        SwitchDispatches scene emit start items scrutinee state := by
  unfold emitSwitch
  refine .ite (fun _ => .throw_bind _) fun _ => ?_
  refine .parse fun arguments following => ?_
  obtain rfl := KeywordArguments.follow_eq_ok following
  refine .orFail_step _ fun caseForms listed => ?_
  refine .orFail_step _ fun cases read => ?_
  refine .parse fun form second => ?_
  refine .quietlyAt (handles_valueOf form) fun scrutinee given => ?_
  refine .look (fun _ => rfl) fun table => ?_
  refine .ite (fun _ => ?_) fun isInt => ?_
  · exact .look (fun _ => rfl) fun _ => .throw_bind _
  rw [Bool.not_eq_true, Bool.not_eq_false'] at isInt
  obtain ⟨bits, width⟩ := Option.isSome_iff_exists.mp isInt
  refine .lift ?_
  rintro state ⟨⟨writing, current⟩, rfl⟩
  obtain ⟨endBlock, later, ends⟩ := proceeds_emitSwitchBlocks advances
    scrutinee bits start cases _ state ⟨writing.imp fun holds =>
      ⟨holds.2.has, TypeTable.kind_of_intWidth? width⟩, current⟩
  exact ⟨form, scrutinee, getElem?_of_itemAt second, given, bits, cases,
    endBlock, later.holds.1,
    Option.bind_eq_some_iff.mpr ⟨caseForms, listed, read⟩, ends,
    later.holds.2⟩

/-! ## Matches -/

/-- The tag and the instructions of a case of a match, unless the sum has no
such variant. -/
def caseArm? (layout : SumLayout) (form : Form) :
    Option (Nat × List Form) := do
  let variant ← layout.variant? (← caseName? form)
  let (_, body, _) ← caseParts ((← form.list?).drop 2)
  pure (variant.tag, body)

/-- The instructions of a default. -/
def defaultBody? (form : Form) : Option (List Form) :=
  match form.vector? with
  | some items => some (bodyAndValue items).1
  | none =>
      if form.head? = some "default" then
        some (keyedBody (.ofForm form)).1
      else none

theorem gives_caseArm (layout : SumLayout) (sum : String) (form : Form) :
    Gives (readCase layout sum form) fun arm =>
      (arm.map fun tagged => (tagged.tag, tagged.arm.body)) =
        caseArm? layout form := by
  unfold readCase
  refine .ite (fun _ => .bind (.throw _) fun _ => False.elim) fun headed => ?_
  refine .orFail_step _ fun items listed => .parse fun name found => ?_
  have named : caseName? form = some name := by
    unfold caseName?
    rw [if_pos (not_not.mp headed), listed, Option.bind_some]
    unfold symbolAt at found
    split at found
    · next same => cases found; exact same
    · cases found
  unfold caseArm?
  rw [named, listed]
  split
  · next missing =>
      refine .skip fun _ => .pure ?_
      simp [missing]
  · next variant known =>
      refine .parse fun rest read => ?_
      refine .orFail_step _ fun (bindForms, body, value) parts => ?_
      refine .skip fun bindings => .pure ?_
      rw [itemsFrom_eq_ok read] at parts
      simp [known, parts]

theorem gives_caseArms (layout : SumLayout) (sum : String)
    (forms : List Form) :
    Gives (readCases layout sum forms) fun arms =>
      (arms.map fun tagged => (tagged.tag, tagged.arm.body)) =
        forms.filterMap (caseArm? layout) := by
  induction forms with
  | nil => exact .pure rfl
  | cons form forms ih =>
      refine .bind (gives_caseArm layout sum form) fun arm same => ?_
      refine .bind ih fun arms others => .pure ?_
      rw [List.map_append, others, List.filterMap_cons, ← same]
      cases arm <;> rfl

theorem gives_defaultBody (found : Option Form) :
    Gives (found.mapM readDefault) fun default =>
      default.map Arm.body = found.bind defaultBody? := by
  cases found with
  | none => exact .pure rfl
  | some form =>
      have reads : Gives (readDefault form) fun arm =>
          some arm.body = defaultBody? form := by
        unfold readDefault defaultBody?
        cases form.vector? with
        | some items => exact .pure rfl
        | none =>
            refine .ite (fun _ => .bind (.throw _) fun _ => False.elim)
              fun headed => .pure ?_
            dsimp only
            rw [if_pos (not_not.mp headed)]
            rfl
      exact .bind reads fun arm same => .pure same

/-- A value is what is loaded from the first field of a sum. -/
def LoadsTag (scene : Scene) (sum tag : Value) : Prop :=
  ∃ address, CanGive scene
      (liftM (Builder.fieldPointer sum 0 "match.tag.addr")) (some address) ∧
    CanGive scene (liftM (Builder.load address "match.tag")) (some tag)

/-- What a match leaves, with the items that it has after its result. -/
def MatchDispatches (scene : Scene) (emit : FormEmitter) (start : BlockId)
    (rest : List Form) (state : EmitState) : Prop :=
  ∃ (name : String) (layout : SumLayout) (form : Form)
    (scrutinee tag : Value) (arms : List TaggedArm) (default : Option Arm)
    (endBlock : BlockId),
    rest[0]?.bind Tree.name? = some name ∧
    scene.environment.layouts.sums.find? name = some layout ∧
    rest[1]? = some form ∧
    CanGive scene (sumOperand form layout "match scrutinee") scrutinee ∧
    LoadsTag scene scrutinee tag ∧
    (arms.map fun tagged => (tagged.tag, tagged.arm.body)) =
      (((KeywordArguments.ofItems (rest.drop 2)).vector? "cases").getD
        []).filterMap (caseArm? layout) ∧
    default.map Arm.body =
      ((KeywordArguments.ofItems (rest.drop 2)).get? "default").bind
        defaultBody? ∧
    state.builder.block = some endBlock ∧
    Dispatches scene start tag.operand 32
      (arms.map (matchArm emit scrutinee))
      (default.map fun arm => emitSequence emit arm.body) endBlock
      state.builder.module

/-- The layout of a sum, whose types are of the table. -/
theorem Achieves.sumLayoutAt (name : String)
    {next : SumLayout → Handler Result} {after : Result → EmitState → Prop}
    (rest : ∀ layout,
      scene.environment.layouts.sums.find? name = some layout →
      Achieves scene
        (fun state => Writing scene origin owed (fun state => known state ∧
            layout.Known state.table) state ∧
          state.builder.block = some start) (next layout) after) :
    Achieves scene
      (fun state => Writing scene origin owed known state ∧
        state.builder.block = some start)
      (do
        let layout ← orFail (.unknownLayout name)
          ((← read).layouts.sums.find? name)
        next layout) after := by
  intro state both
  have run : Achieves scene
      (fun state => Writing scene origin owed known state ∧
        state.builder.block = some start)
      (orFail (.unknownLayout name)
        (scene.environment.layouts.sums.find? name) >>= next) after := by
    refine .orFail_step _ fun layout found => ?_
    refine (rest layout found).given fun state both => ?_
    exact ⟨⟨both.1.stage, both.1.cursor, both.1.holds,
      both.1.ready.sumLayout found⟩, both.2⟩
  exact run state both

theorem achieves_emitMatch (advances : ∀ form, Advances scene (emit form))
    (items : List Form) :
    Achieves scene
      (fun state => Writing scene origin owed (fun _ => True) state ∧
        state.builder.block = some start) (emitMatch emit items)
      fun _ state => ∃ result rest,
        CanGive scene (readResult items) (result, rest) ∧
        MatchDispatches scene emit start rest state := by
  unfold emitMatch
  refine .quietlyAt (handles_readResult items) fun ⟨result, rest⟩ read => ?_
  refine .parse fun name named => ?_
  refine .orFail_step _ fun form second => ?_
  refine .sumLayoutAt name fun layout found => ?_
  refine .quietAt (handles_readCases layout name _) (fun _ holds => holds.2)
    fun arms readArms => ?_
  refine .quietlyAt (handles_readDefault? _) fun default readDefault => ?_
  refine .quietAt (handles_sumOperand form layout _)
    (fun _ holds => holds.1.1.2) fun scrutinee given => ?_
  refine .quietlyAt (.lift (emits_fieldPointer scrutinee 0 _))
    fun address addressed => ?_
  refine .orFail_step _ fun tagAddress same => ?_
  subst same
  refine .quietlyAt (.lift (emits_load tagAddress _)) fun loaded loads => ?_
  refine .orFail_step _ fun tag same => ?_
  subst same
  refine .bind (.lift (proceeds_emitMatchBlocks advances scrutinee tag arms
    default ?_)) fun ⟨endBlock, incoming⟩ => ?_
  · exact fun state holds => ⟨holds.1.1.1.1.2, holds.1.1.1.1.1.1.2⟩
  have first : rest[0]?.bind Tree.name? = some name := by
    unfold symbolAt at named
    split at named
    · next same => cases named; exact same
    · cases named
  obtain ⟨_, ok⟩ := readArms
  have numbered := gives_caseArms layout name _ _ _ _ ok
  obtain ⟨_, ok⟩ := readDefault
  have defaults := gives_defaultBody _ _ _ _ ok
  have done {state : EmitState}
      (current : state.builder.block = some endBlock)
      (dispatches : Dispatches scene start tag.operand 32
        (arms.map (matchArm emit scrutinee))
        (default.map fun arm => emitSequence emit arm.body) endBlock
        state.builder.module) : ∃ result rest,
        CanGive scene (readResult items) (result, rest) ∧
        MatchDispatches scene emit start rest state :=
    ⟨result, rest, read, name, layout, form, scrutinee, tag, arms, default,
      endBlock, first, found, second, given,
      ⟨tagAddress, addressed, loads⟩, numbered, defaults, current, dispatches⟩
  cases result with
  | none =>
      exact .pure fun state arrived =>
        done arrived.current arrived.writing.holds.1.2
  | some entry =>
      refine .bind (.lift (proceeds_placeResult entry fun state holds =>
        holds.1.1.1.1.1.1.1.2 entry rfl)) fun phi => ?_
      refine .bind (.lift (proceeds_recordMatchEnd entry fun state holds =>
        ⟨holds.1.1.1.1.1.1.1.2 entry rfl, holds.2⟩)) fun _ => ?_
      intro state both _ _
      obtain ⟨later, current⟩ := Proceeds.quietAt
        (handles_define entry.destination phi entry.type)
        (fun _ holds => holds.2) state both
      exact done current later.holds.1.1

/-! ## Dispatch -/

/-- The body of the only function of a module starts with one open block. -/
theorem EmitState.writing_opening {module : Module} {function : FunctionId}
    (sound : module.Sound) (declared : function < module.functions.length)
    (inhabited : 0 < module.types.kinds.length)
    (empty : ∀ id, module.block? id = none) (configuration : Configuration)
    (name : String) :
    Writing ⟨⟨configuration, {}, name⟩, function⟩ (.opening module function)
      [] (fun _ => True) (.opening module function) := by
  have ready := EmitState.ready_opening sound declared inhabited
    configuration name
  let builder : Builder := { module, function }
  have appended := Builder.appended_appendBlock
    (show builder.module.Sound from sound) declared
    (show nameBeforeNul "entry" ≠ "" by decide)
  obtain ⟨-, isOpen⟩ := appended.ready inhabited rfl
  refine ⟨⟨ready.toSound, ready.builder.toPlaced, rfl, rfl,
    EmitState.Precedes.refl _, Module.WorksIn.refl _ _, List.nodup_nil, ?_,
    nofun⟩, isOpen, trivial⟩
  intro id
  refine ⟨nofun, ?_⟩
  rintro ⟨⟨known, -⟩, elsewhere⟩
  have other : id ≠ (Builder.appendBlock "entry" builder).1 := by
    rintro rfl
    exact elsewhere rfl
  have none : (EmitState.opening module function).builder.module.block? id =
      none := (appended.others id other).trans (empty id)
  rw [none] at known
  cases known

theorem block?_wordModule (id : BlockId) : wordModule.block? id = none := by
  by_contra found
  obtain ⟨block, found⟩ := Option.ne_none_iff_exists'.mp found
  have inside := Module.lt_of_block? found
  have only : id.function = 0 := by
    have one : wordModule.functions.length = 1 := by decide +kernel
    exact Nat.lt_one_iff.mp (one ▸ inside)
  have none : (wordModule.function 0).blocks.isEmpty = true := by
    decide +kernel
  rw [Module.block?, only, List.isEmpty_iff.mp none] at found
  cases found

/-- A switch on a word with two cases for the same number. -/
def wordSwitch : List Form :=
  let number : Form := .atom .empty (.int 5)
  [Form.symbol "switch", Form.symbol "%x", Form.keyword "cases",
    Form.vector [
      Form.list [Form.symbol "case", number, Form.vector []],
      Form.list [Form.symbol "case", number, Form.vector []]]]

theorem writing_afterWord :
    Writing wordScene (.opening wordModule 0) [] (fun _ => True)
      afterWord := by
  have opening : Writing wordScene (.opening wordModule 0) []
      (fun _ => True) (.opening wordModule 0) :=
    EmitState.writing_opening sound_wordModule
      (by decide +kernel : 0 < wordModule.functions.length)
      (by decide +kernel) block?_wordModule {} "f"
  have quiet := isQuiet_emitConstant [Form.symbol "const", Form.symbol "%x",
    Form.symbol "i32", .atom .empty (.int 5)] wordScene
  exact (Proceeds.quiet quiet (fun _ _ => trivial) _ opening).imp
    fun _ => trivial

end FormCompiler
