import FormCompiler.Proofs.StatementRuns

/-!
# Emitting bodies that run

A block opens a scope, in which its locals hold something undefined, and leaves
it again unless its body returns.  Statements follow each other until one of
them returns.  So a body that is emitted without a problem does what the
interpreter does with it, by induction on its statements.
-/

namespace FormCompiler

open Ir

section Bodies

variable {isVariable : String → Bool} {arguments : List Quantity}
  {machine last : Machine} {scopes : Scopes} {environment : Environment}
  {state middle later : EmitState} {name : String} {type : TypeId}
  {irType : IrType} {value slot : Value} {quantity : Quantity}
  {constants scope : NameMap Quantity} {outer : List (NameMap Quantity)}

/-! ## Locals -/

/-- A local of the innermost scope holds something undefined. -/
theorem Tracks.declareLocal
    (tracks : Tracks isVariable arguments machine ⟨constants, scope :: outer⟩
      state)
    (unwritten : ∀ other quantity, scope.find? other = some quantity →
      quantity = .undefined)
    (varying : isVariable name = true)
    (represents : Represents state.table type irType)
    (run : FormCompiler.declareSlot name type environment state =
      (slot, later)) :
    ∃ after, Reaches isVariable arguments ⟨constants, after :: outer⟩ state
        later ∧
      ∀ other, after.find? other =
        if other = name then some .undefined else scope.find? other := by
  rcases declareSlot_cases run with
    ⟨rfl, entry, rest, innermost, depth, -, -⟩ | ⟨_, rfl, rfl, rfl⟩
  · refine ⟨scope, ⟨⟨machine, tracks⟩, .refl _, rfl⟩, fun other => ?_⟩
    split
    · next same =>
        subst same
        have stacked := tracks.mirrors.stacked other
        have frames := tracks.mirrors.depth
        rw [innermost] at stacked
        have length : entry.depth = outer.length := by
          rw [depth]
          simpa using frames.symm
        obtain ⟨held, found⟩ := stacked.find?_of_own length
        rw [found, unwritten other held found]
    · rfl
  · obtain ⟨last, pushed, -, remains, -⟩ :=
      tracks.pushSlot varying represents s!"{name}.slot"
    refine ⟨scope.insert name .undefined, ⟨⟨last, pushed, ?_⟩, remains, rfl⟩,
      fun other => NameMap.find?_insert ..⟩
    intro other otherVaries empty
    dsimp only at empty ⊢
    rw [FunctionContext.stack_pushSlot] at empty
    split at empty
    · cases empty
    · exact tracks.unbound other otherVaries empty

/-- A name of a type that was read. -/
def IsLocal (isVariable : String → Bool) (table : TypeTable) (name : String)
    (pair : String × TypeId) : Prop :=
  pair.1 = name ∧ isVariable name = true ∧
    ∃ irType, Represents table pair.2 irType

theorem IsLocal.mono {table later : TypeTable} {pair : String × TypeId}
    (isLocal : IsLocal isVariable table name pair) (closed : table.Closed)
    (grows : table.Grows later) : IsLocal isVariable later name pair := by
  obtain ⟨same, varying, irType, represents⟩ := isLocal
  exact ⟨same, varying, irType, represents.mono closed grows⟩

theorem Tracks.declareLocals {locals : List String}
    {declared : List (String × TypeId)}
    (tracks : Tracks isVariable arguments machine ⟨constants, scope :: outer⟩
      state)
    (unwritten : ∀ other quantity, scope.find? other = some quantity →
      quantity = .undefined)
    (each : List.Forall₂ (IsLocal isVariable state.table) locals declared)
    {visit : String × TypeId → Emission Unit}
    (visits : ∀ pair, visit pair = do
      let _ ← FormCompiler.declareSlot pair.1 pair.2)
    (run : declared.forM visit environment state = ((), later)) :
    ∃ after, Reaches isVariable arguments ⟨constants, after :: outer⟩ state
        later ∧
      ∀ other, after.find? other =
        if other ∈ locals then some .undefined else scope.find? other := by
  induction locals generalizing declared machine scope state with
  | nil =>
      cases each
      cases run
      exact ⟨scope, ⟨⟨machine, tracks⟩, .refl _, rfl⟩, by simp⟩
  | cons name locals ih =>
      obtain _ | ⟨first, rest⟩ := each
      next pair declared =>
      obtain ⟨localName, type⟩ := pair
      obtain ⟨rfl, varying, irType, represents⟩ := first
      rw [List.forM_eq_forM, List.forM_cons, reader_bind_apply, visits,
        reader_bind_apply] at run
      dsimp only at run varying represents ⊢
      generalize declares : FormCompiler.declareSlot localName type
        environment state = outcome at run
      obtain ⟨slot, middle⟩ := outcome
      obtain ⟨after, ⟨⟨last, reached⟩, remains, depth⟩, found⟩ :=
        tracks.declareLocal unwritten varying represents declares
      have stillUnwritten : ∀ other quantity,
          after.find? other = some quantity → quantity = .undefined := by
        intro other quantity known
        rw [found] at known
        split at known
        · exact (Option.some.inj known).symm
        · exact unwritten other quantity known
      have kept := rest.imp fun name pair isLocal =>
        isLocal.mono tracks.closed remains.types
      obtain ⟨final, reaches, all⟩ := ih reached stillUnwritten kept run
      refine ⟨final, reaches.after remains depth, fun other => ?_⟩
      rw [all, found]
      by_cases isFirst : other = localName
      · simp [isFirst]
      · simp [isFirst]

theorem Tracks.readLocal
    (tracks : Tracks isVariable arguments machine scopes state) {form : Form}
    (written : LocalWritten name form) (varying : isVariable name = true)
    {shape : String} {pair : String × TypeId}
    (run : (readLocal shape form).run environment state = (.ok pair, later)) :
    Tracks isVariable arguments machine scopes later ∧
      IsLocal isVariable later.table name pair ∧
      state.builder.Remains later.builder ∧
      later.context = state.context := by
  obtain ⟨typeForm, nameForm, irType, heads, isType, named⟩ := written
  obtain ⟨note, headNote, rfl⟩ := heads
  have reads : (FormCompiler.readLocal shape (.group note .list
      [.atom headNote (.symbol "local"), typeForm, nameForm])).run environment
        state =
      (orFail (.malformed shape) (localName? nameForm) >>= fun name => do
        pure (name, ← FormCompiler.typeOf typeForm)).run environment
          state := rfl
  rw [reads, named] at run
  obtain ⟨_, _, given, run⟩ := run_bind_eq_ok run
  cases given
  obtain ⟨type, middle, read, ends⟩ := run_bind_eq_ok run
  cases ends
  obtain ⟨tracks, represents, remains, context, -⟩ :=
    tracks.typeOf isType read
  exact ⟨tracks, ⟨rfl, varying, irType, represents⟩, remains, context⟩

theorem Tracks.readLocals {locals : List String} {forms : List Form}
    (tracks : Tracks isVariable arguments machine scopes state)
    (written : List.Forall₂ LocalWritten locals forms)
    (varying : ∀ name ∈ locals, isVariable name = true) {shape : String}
    {declared : List (String × TypeId)}
    (run : (forms.mapM (FormCompiler.readLocal shape)).run environment state =
      (.ok declared, later)) :
    Tracks isVariable arguments machine scopes later ∧
      List.Forall₂ (IsLocal isVariable later.table) locals declared ∧
      state.builder.Remains later.builder ∧
      later.context = state.context := by
  induction written generalizing declared state with
  | nil =>
      cases run
      exact ⟨tracks, .nil, .refl _, rfl⟩
  | cons first _ ih =>
      rw [List.forall_mem_cons] at varying
      rw [List.mapM_cons] at run
      obtain ⟨pair, middle, read, run⟩ := run_bind_eq_ok run
      obtain ⟨pairs, last, reads, ends⟩ := run_bind_eq_ok run
      cases ends
      obtain ⟨tracks, isLocal, remains, context⟩ :=
        tracks.readLocal first varying.1 read
      obtain ⟨reached, rest, further, same⟩ := ih tracks varying.2 reads
      exact ⟨reached, .cons (isLocal.mono tracks.closed further.types) rest,
        remains.trans further, same.trans context⟩

/-! ## Blocks -/

theorem BlockItems.blockParts {items locals body : List Form}
    (parts : BlockItems items locals body) (head : Form) (shape : String) :
    blockParts (head :: items) shape = .ok (locals, body) := by
  have keyed {pairs : List (String × Form)}
      (read : KeywordArguments.readPairs items = pairs)
      (isBody : (pairs.lookup "body").bind Tree.vector? = some body)
      (areLocals : ((pairs.lookup "locals").bind Tree.vector?).getD [] =
        locals) : keyedBlockParts (head :: items) shape =
          .ok (locals, body) := by
    subst read areLocals
    have follows : KeywordArguments.follow (head :: items) 1 shape =
        .ok ⟨KeywordArguments.readPairs items⟩ := by
      simp [KeywordArguments.follow, itemsFrom, KeywordArguments.ofItems,
        Except.map]
    have found : KeywordArguments.vector?
        ⟨KeywordArguments.readPairs items⟩ "body" = some body := isBody
    unfold keyedBlockParts
    rw [follows]
    simp only [bind, Except.bind, found]
    rfl
  cases parts with
  | plain isBody =>
      unfold FormCompiler.blockParts
      dsimp only
      rw [isBody]
  | body key isBody =>
      exact keyed (by simp [KeywordArguments.readPairs, key]; rfl)
        (by simpa using isBody) rfl
  | localsFirst localsKey areLocals bodyKey isBody =>
      exact keyed (by
        simp [KeywordArguments.readPairs, localsKey, bodyKey]
        rfl)
        (by simpa [List.lookup_cons] using isBody) (by simp [areLocals])
  | bodyFirst bodyKey isBody localsKey areLocals =>
      exact keyed (by
        simp [KeywordArguments.readPairs, localsKey, bodyKey]
        rfl)
        (by simpa using isBody) (by simp [List.lookup_cons, areLocals])

/-- Emission did what the interpreter does. -/
inductive Follows (isVariable : String → Bool) (arguments : List Quantity)
    (state later : EmitState) : Progress Scopes → Prop
  | goesOn {scopes : Scopes} :
      Reaches isVariable arguments scopes state later →
      Follows isVariable arguments state later (.goesOn scopes)
  | returns {value : Option Quantity} :
      later.builder.Returns arguments value → later.pendingPhis = [] →
      Follows isVariable arguments state later (.returns value)

/-- What goes on leaves a scope. -/
def Ir.Progress.leave : Progress Scopes → Progress Scopes
  | .goesOn scopes => .goesOn scopes.leave
  | ended => ended

theorem Statement.run_block (fallback : Option Quantity)
    (locals : List String) (body : List Statement) (scopes : Scopes) :
    (Statement.block locals body).run isVariable fallback scopes =
      (runAll isVariable fallback body (scopes.enter locals)).leave := by
  rw [run]
  cases runAll isVariable fallback body (scopes.enter locals) <;> rfl

/-- Problems that are the same in the end were the same on the way. -/
theorem problems_between {first middle : List Problem}
    (before : first <+: middle) (after : middle <+: first) :
    middle = first :=
  (before.eq_of_length_le after.length_le).symm

theorem find?_undefined (locals : List String) (name : String) :
    NameMap.find? ⟨locals.map fun name => (name, Quantity.undefined)⟩ name =
      if name ∈ locals then some .undefined else none := by
  induction locals with
  | nil => rfl
  | cons first locals ih =>
      unfold NameMap.find? at ih ⊢
      rw [List.map_cons, List.lookup_cons, ih]
      by_cases same : name = first
      · simp [same]
      · have apart : (name == first) = false := by simpa using same
        simp [same, apart]

/-- A scope is opened for the locals of a block. -/
theorem Tracks.enter
    (tracks : Tracks isVariable arguments machine scopes state)
    {locals : List String} {declared : List (String × TypeId)}
    (each : List.Forall₂ (IsLocal isVariable state.table) locals declared)
    {visit : String × TypeId → Emission Unit}
    (visits : ∀ pair, visit pair = do
      let _ ← FormCompiler.declareSlot pair.1 pair.2)
    (run : declared.forM visit environment
      { state with context := state.context.enterScope } = ((), later)) :
    ∃ last, Tracks isVariable arguments last (scopes.enter locals) later ∧
      state.builder.Remains later.builder ∧
      later.context.depth = state.context.depth + 1 := by
  have entered : Tracks isVariable arguments machine
      ⟨scopes.constants, {} :: scopes.frames⟩
      { state with context := state.context.enterScope } :=
    ⟨⟨tracks.runs, tracks.mirrors.enter, tracks.pending⟩, tracks.unbound⟩
  obtain ⟨after, ⟨⟨last, reached⟩, remains, depth⟩, found⟩ :=
    entered.declareLocals nofun each visits run
  refine ⟨last, ⟨⟨reached.runs, reached.mirrors.congr (.cons ?_ ?_),
    reached.pending⟩, reached.unbound⟩, remains, depth⟩
  · intro name
    rw [found, find?_undefined]
    rfl
  · exact List.forall₂_same.mpr fun _ _ _ => rfl

/-- A body runs in a scope of its own, after the locals of the scope are
declared. -/
theorem Tracks.inScope {emit : FormEmitter} {bodyForms : List Form}
    {locals : List String} {declared : List (String × TypeId)}
    {outcome : Progress Scopes}
    (tracks : Tracks isVariable arguments machine scopes state)
    (each : List.Forall₂ (IsLocal isVariable state.table) locals declared)
    {visit : String × TypeId → Emission Unit}
    (visits : ∀ pair, visit pair = do
      let _ ← FormCompiler.declareSlot pair.1 pair.2)
    (emits : ∀ form ∈ bodyForms, Collects AnyProblem (emit form))
    (inner : ∀ machine entered,
      Tracks isVariable arguments machine (scopes.enter locals) entered →
      state.builder.Remains entered.builder →
      let ended := (emitSequence emit bodyForms environment entered).2
      ended.problems = entered.problems →
      Follows isVariable arguments entered ended outcome) :
    let scoping := FormCompiler.inScope (do
      declared.forM visit
      emitSequence emit bodyForms)
    let later := (scoping environment state).2
    later.problems = state.problems →
      Follows isVariable arguments state later outcome.leave := by
  intro scoping later kept
  have declares : Collects AnyProblem (declared.forM visit) := by
    refine .each fun pair _ => ?_
    rw [visits]
    exact .step (collects_declareSlot _ _) fun _ => .pure ()
  have toEntered := (declares environment
    { state with context := state.context.enterScope }).isPrefix
  generalize entering : declared.forM visit environment
    { state with context := state.context.enterScope } = ran at toEntered
  obtain ⟨_, entered⟩ := ran
  obtain ⟨last, enteredTracks, remains, depth⟩ :=
    tracks.enter each visits entering
  have toEnded := (collects_emitSequence emits environment entered).isPrefix
  have bodyRuns := inner last entered enteredTracks remains
  have same : later =
      let ended := (emitSequence emit bodyForms environment entered).2
      { ended with
        context := ended.context.unwindTo state.context.depth } := by
    show (let middle := (declared.forM visit environment
        { state with context := state.context.enterScope }).2
      let ended := (emitSequence emit bodyForms environment middle).2
      ({ ended with
        context := ended.context.unwindTo state.context.depth } :
        EmitState)) = _
    rw [entering]
  generalize (emitSequence emit bodyForms environment entered).2 = ended at *
  have keptInside : ended.problems = state.problems := by
    rw [← kept, same]
  have allEntered : entered.problems = state.problems :=
    problems_between toEntered (keptInside ▸ toEnded)
  have allEnded : ended.problems = entered.problems :=
    keptInside.trans allEntered.symm
  rw [same]
  cases bodyRuns allEnded with
  | goesOn reaches =>
      obtain ⟨⟨final, reached⟩, further, inside⟩ := reaches
      refine .goesOn ⟨⟨final, ⟨reached.runs, reached.mirrors.leave
        (inside.trans depth), reached.pending⟩, reached.unbound.leave _⟩,
        remains.trans further, rfl⟩
  | returns returned noPhis => exact .returns returned noPhis

theorem Tracks.emitBlock {emit : FormEmitter} {head : Form}
    {items localForms bodyForms : List Form} {locals : List String}
    {outcome : Progress Scopes}
    (tracks : Tracks isVariable arguments machine scopes state)
    (parts : BlockItems items localForms bodyForms)
    (written : List.Forall₂ LocalWritten locals localForms)
    (varying : ∀ name ∈ locals, isVariable name = true)
    (emits : ∀ form ∈ bodyForms, Collects AnyProblem (emit form))
    (inner : ∀ machine entered,
      Tracks isVariable arguments machine (scopes.enter locals) entered →
      state.builder.Remains entered.builder →
      let ended := (emitSequence emit bodyForms environment entered).2
      ended.problems = entered.problems →
      Follows isVariable arguments entered ended outcome)
    (run : (FormCompiler.emitBlock emit (head :: items)).run environment
      state = (.ok (), later))
    (kept : later.problems = state.problems) :
    Follows isVariable arguments state later outcome.leave := by
  unfold FormCompiler.emitBlock at run
  dsimp only at run
  obtain ⟨_, parsed, run⟩ := run_parse_bind_eq_ok run
  cases (parts.blockParts head _).symm.trans parsed
  obtain ⟨declared, readState, read, run⟩ := run_bind_eq_ok run
  have reads (shape : String) :
      CollectsAnyhow AnyProblem
        (localForms.mapM (FormCompiler.readLocal shape)) :=
    .mapM fun form _ => collects_readLocal shape form
  have before : state.problems <+: readState.problems := by
    rw [← show _ = readState from congrArg Prod.snd read]
    exact (reads _ environment state).isPrefix
  obtain ⟨readTracks, each, remains, context⟩ :=
    tracks.readLocals written varying read
  have declares (pair : String × TypeId) : Collects AnyProblem (do
      let _ ← FormCompiler.declareSlot pair.1 pair.2) :=
    .step (collects_declareSlot _ _) fun _ => .pure ()
  have after : readState.problems <+: later.problems := by
    rw [← show _ = later from congrArg Prod.snd run]
    exact (collects_inScope (.step (.each fun pair _ => declares pair)
      fun _ => collects_emitSequence emits) environment readState).isPrefix
  have same := problems_between before (kept ▸ after)
  have follows : Follows isVariable arguments readState later
      outcome.leave := by
    rw [← show _ = later from congrArg Prod.snd run]
    exact readTracks.inScope each (fun _ => rfl) emits
      (fun machine entered tracks further =>
        inner machine entered tracks (remains.trans further))
      (((congrArg (fun ran => ran.2.problems) run).trans kept).trans
        same.symm)
  cases outcome with
  | goesOn inside =>
      cases follows with
      | goesOn reaches =>
          exact .goesOn (reaches.after remains
            (congrArg FunctionContext.depth context))
  | returns value =>
      cases follows with
      | returns returned noPhis => exact .returns returned noPhis
  | stuck => cases follows

/-! ## Statements -/

/-- The opcode of a statement. -/
def Statement.opcode : Statement → Opcode
  | .constant .. => .constant
  | .compute operator .. => .binary operator.operator
  | .declare .. => .localVariable
  | .assign .. => .assign
  | .block .. => .block
  | .ret .. => .ret
  | .leave => .ret

/-- A statement is a list with the name of its opcode in front. -/
theorem Statement.Written.heads {statement : Statement} {form : Form}
    (written : statement.Written form) :
    ∃ head items, form.Heads head items ∧
      Opcode.ofHead? head = some statement.opcode := by
  cases written with
  | compute heads => exact ⟨_, _, heads, mnemonic_ofHead? _⟩
  | constant heads => exact ⟨_, _, heads, rfl⟩
  | declare heads => exact ⟨_, _, heads, rfl⟩
  | assign heads => exact ⟨_, _, heads, rfl⟩
  | block heads => exact ⟨_, _, heads, rfl⟩
  | ret heads => exact ⟨_, _, heads, rfl⟩
  | leave heads => exact ⟨_, _, heads, rfl⟩
  | leaveTyped heads => exact ⟨_, _, heads, rfl⟩

/-- How a statement is emitted. -/
theorem Statement.Written.handled {statement : Statement} {form : Form}
    (written : statement.Written form) (depth : Nat)
    (environment : Environment) (state : EmitState) :
    ∃ items, form.list? = some items ∧
      Handled (dispatch (emitWithin depth) statement.opcode items) environment
        form state (emitWithin (depth + 1) form environment state).2 := by
  obtain ⟨head, items, heads, known⟩ := written.heads
  have found := heads.head?_eq
  obtain ⟨note, headNote, rfl⟩ := heads
  exact ⟨_, rfl, handled_emitWithin depth rfl found known environment state⟩

/-- An emitter forgets no problem when it emits statements. -/
def FormEmitter.Collects (emit : FormEmitter) : Prop :=
  ∀ {statement : Statement} {form : Form}, statement.Written form →
    FormCompiler.Collects AnyProblem (emit form)

theorem collects_all {emit : FormEmitter} (emits : emit.Collects)
    {body : List Statement} {forms : List Form}
    (written : List.Forall₂ Statement.Written body forms) :
    ∀ form ∈ forms, Collects AnyProblem (emit form) := by
  induction written with
  | nil => exact List.forall_mem_nil _
  | cons first _ ih => exact List.forall_mem_cons.mpr ⟨emits first, ih⟩

theorem collects_dispatch {emit : FormEmitter} (emits : emit.Collects)
    {statement : Statement} {form : Form} (written : statement.Written form)
    {items : List Form} (list : form.list? = some items) :
    CollectsAnyhow AnyProblem (dispatch emit statement.opcode items) := by
  cases written with
  | constant => exact collects_emitConstant _
  | compute => exact collects_emitBinary _ _
  | declare => exact collects_emitVariable _
  | assign => exact collects_emitAssign _
  | block heads parts _ inner =>
      obtain ⟨note, headNote, rfl⟩ := heads
      cases list
      refine collects_emitBlock fun shape localForms body found => ?_
      rw [parts.blockParts] at found
      cases found
      exact collects_all emits inner
  | ret => exact collects_emitReturn _
  | leave => exact collects_emitReturn _
  | leaveTyped => exact collects_emitReturn _

theorem collects_emitWithin (depth : Nat) : (emitWithin depth).Collects := by
  induction depth with
  | zero => exact fun _ => collects_report fun _ _ => trivial
  | succ depth ih =>
      intro statement form written environment state
      obtain ⟨items, list, handled⟩ := written.handled depth environment state
      exact handled.collects (collects_dispatch ih written list)

theorem Tracks.atSpan
    (tracks : Tracks isVariable arguments machine scopes state)
    (span : Option Span) :
    Tracks isVariable arguments machine scopes { state with span } :=
  ⟨⟨tracks.runs, tracks.mirrors, tracks.pending⟩, tracks.unbound⟩

/-- It does not matter where in the text emission is. -/
theorem Follows.atSpans {outcome : Progress Scopes} (before : Option Span)
    (follows : Follows isVariable arguments { state with span := before }
      later outcome) (after : Option Span) :
    Follows isVariable arguments state { later with span := after }
      outcome := by
  cases follows with
  | goesOn reaches =>
      obtain ⟨⟨machine, tracks⟩, remains, depth⟩ := reaches
      exact .goesOn ⟨⟨machine, tracks.atSpan after⟩, remains, depth⟩
  | returns returned noPhis => exact .returns returned noPhis

/-- An emitter does with statements what the interpreter does with them, where
it reports no problem. -/
def FormEmitter.Interprets (emit : FormEmitter) (isVariable : String → Bool)
    (arguments : List Quantity) (fallback : Option Quantity)
    (environment : Environment) : Prop :=
  ∀ {statement : Statement} {form : Form} {machine : Machine}
      {scopes : Scopes} {state : EmitState},
    statement.Written form →
    Tracks isVariable arguments machine scopes state →
    GivesBack state.builder fallback →
    (∀ name ∈ statement.written, isVariable name = true) →
    let later := (emit form environment state).2
    later.problems = state.problems →
      Follows isVariable arguments state later
        (statement.run isVariable fallback scopes)

/-- Nothing more is emitted where a body has returned. -/
theorem emitSequence_of_isTerminated {emit : FormEmitter}
    (terminated : state.builder.isTerminated = true) (forms : List Form) :
    (emitSequence emit forms environment state).2 = state := by
  cases forms with
  | nil => rfl
  | cons form forms =>
      rw [emitSequence, reader_bind_apply]
      show ((if state.builder.isTerminated then pure () else _ :
        Emission Unit) environment state).2 = state
      rw [if_pos terminated]
      rfl

/-- Statements in order. -/
theorem FormEmitter.Interprets.sequence {emit : FormEmitter}
    {fallback : Option Quantity}
    (interprets : emit.Interprets isVariable arguments fallback environment)
    (emits : emit.Collects) {body : List Statement} {forms : List Form}
    (written : List.Forall₂ Statement.Written body forms)
    (tracks : Tracks isVariable arguments machine scopes state)
    (gives : GivesBack state.builder fallback)
    (varying : ∀ name ∈ Statement.writtenAll body, isVariable name = true) :
    let later := (emitSequence emit forms environment state).2
    later.problems = state.problems →
      Follows isVariable arguments state later
        (Statement.runAll isVariable fallback body scopes) := by
  induction written generalizing machine scopes state with
  | nil =>
      intro later kept
      rw [Statement.runAll]
      exact .goesOn ⟨⟨machine, tracks⟩, .refl _, rfl⟩
  | @cons statement form body forms first rest ih =>
      intro later kept
      rw [Statement.writtenAll] at varying
      have goesOn : later = (emitSequence emit forms environment
          (emit form environment state).2).2 := by
        show (emitSequence emit (form :: forms) environment state).2 = _
        rw [emitSequence, reader_bind_apply]
        show ((if state.builder.isTerminated then pure () else _ :
          Emission Unit) environment state).2 = _
        rw [tracks.runs.isTerminated, if_neg Bool.false_ne_true]
        rfl
      have before : state.problems <+: _ :=
        (emits first environment state).isPrefix
      have after : _ <+: EmitState.problems _ :=
        (collects_emitSequence (collects_all emits rest) environment
          (emit form environment state).2).isPrefix
      rw [← goesOn, kept] at after
      have same := problems_between before after
      have here := interprets first tracks gives (fun name member =>
        varying name (List.mem_append_left _ member)) same
      generalize (emit form environment state).2 = middle at *
      rw [Statement.runAll, goesOn]
      have closed := tracks.closed
      generalize statement.run isVariable fallback scopes = outcome at here
      cases here with
      | goesOn reaches =>
          obtain ⟨⟨last, tracks⟩, remains, depth⟩ := reaches
          have there := ih tracks (gives.mono closed remains)
            (fun name member => varying name (List.mem_append_right _ member))
            (by rw [← goesOn, kept, same])
          dsimp only at there ⊢
          generalize Statement.runAll isVariable fallback body _ = final at *
          cases there with
          | goesOn reaches => exact .goesOn (reaches.after remains depth)
          | returns returned noPhis => exact .returns returned noPhis
      | returns returned noPhis =>
          rw [emitSequence_of_isTerminated returned.isTerminated]
          exact .returns returned noPhis

theorem interprets_emitWithin (fallback : Option Quantity) (depth : Nat) :
    (emitWithin depth).Interprets isVariable arguments fallback
      environment := by
  induction depth with
  | zero =>
      intro statement form machine scopes state _ _ _ _ later kept
      have longer := congrArg List.length kept
      have grown : later.problems.length = state.problems.length + 1 :=
        List.length_append
      omega
  | succ depth ih =>
      intro statement form machine scopes state written tracks gives varying
        later kept
      obtain ⟨items, list, handled⟩ := written.handled depth environment state
      obtain ⟨middle, run, same, ends⟩ := handled.of_kept
        (collects_dispatch (collects_emitWithin depth) written list) kept
      rw [show later = _ from ends]
      refine Follows.atSpans (form.span?.or state.span) ?_ _
      replace tracks := tracks.atSpan (form.span?.or state.span)
      cases written with
      | constant heads named isType literal =>
          obtain ⟨note, headNote, rfl⟩ := heads
          cases list
          rw [Statement.opcode, dispatch] at run
          rw [Statement.run]
          exact .goesOn (tracks.emitConstant named isType literal run)
      | compute heads named isType left right =>
          obtain ⟨note, headNote, rfl⟩ := heads
          cases list
          rw [Statement.opcode, dispatch] at run
          obtain ⟨first, second, knownLeft, knownRight, reaches⟩ :=
            tracks.emitBinary named isType left right run
          rw [Statement.run, knownLeft, knownRight]
          exact .goesOn reaches
      | declare heads named isType literal =>
          obtain ⟨note, headNote, rfl⟩ := heads
          cases list
          rw [Statement.opcode, dispatch] at run
          rw [Statement.run]
          exact .goesOn (tracks.emitVariable named
            (varying _ (by simp [Statement.written])) isType literal run)
      | assign heads named read =>
          obtain ⟨note, headNote, rfl⟩ := heads
          cases list
          rw [Statement.opcode, dispatch] at run
          obtain ⟨quantity, known, reaches⟩ := tracks.emitAssign named
            (varying _ (by simp [Statement.written])) read run
          rw [Statement.run, known]
          exact .goesOn reaches
      | block heads parts localsWritten inner =>
          obtain ⟨note, headNote, rfl⟩ := heads
          cases list
          rw [Statement.opcode, dispatch] at run
          rw [Statement.run_block]
          rw [Statement.written, List.forall_mem_append] at varying
          refine tracks.emitBlock parts localsWritten varying.1
            (collects_all (collects_emitWithin depth) inner) ?_ run same
          intro machine entered entering remains
          exact ih.sequence (collects_emitWithin depth) inner entering
            (gives.mono tracks.closed remains) varying.2
      | ret heads isType argument =>
          obtain ⟨note, headNote, rfl⟩ := heads
          cases list
          rw [Statement.opcode, dispatch] at run
          obtain ⟨quantity, known, returned, noPhis⟩ :=
            tracks.emitReturn_value isType argument run
          rw [Statement.run, known]
          exact .returns returned noPhis
      | leave heads =>
          obtain ⟨note, headNote, rfl⟩ := heads
          cases list
          rw [Statement.opcode, dispatch] at run
          obtain ⟨returned, noPhis⟩ :=
            tracks.emitReturn_bare gives (.inl ⟨_, rfl⟩) run
          rw [Statement.run]
          exact .returns returned noPhis
      | leaveTyped heads =>
          obtain ⟨note, headNote, rfl⟩ := heads
          cases list
          rw [Statement.opcode, dispatch] at run
          obtain ⟨returned, noPhis⟩ :=
            tracks.emitReturn_bare gives (.inr ⟨_, _, rfl⟩) run
          rw [Statement.run]
          exact .returns returned noPhis

theorem interprets_emitForm (fallback : Option Quantity) :
    emitForm.Interprets isVariable arguments fallback environment :=
  fun {_ form} => interprets_emitWithin fallback form.height

end Bodies

end FormCompiler
