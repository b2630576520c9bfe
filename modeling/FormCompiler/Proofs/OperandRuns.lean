import FormCompiler.Proofs.ScopeMirrors
import FormCompiler.Proofs.SlotAuthority

/-!
# Emitting operands that run

The code that was emitted takes the machine to a state that mirrors the scopes
of the interpreter.  An operand is read as the interpreter reads it: a literal
is a constant, a name with a slot is loaded from it, and any other name is the
value that was bound to it.
-/

namespace FormCompiler

open Ir

/-! ## Types -/

theorem NamesType.firstClass {levels : Nat} {form : Form} {irType : IrType}
    (names : NamesType levels form irType) : irType.isFirstClass = true := by
  cases names with
  | symbol found notVoid =>
      unfold symbolIrType
      split <;> rfl
  | _ => rfl

/-- A scalar type. -/
theorem yields_scalar {table : TypeTable} (closed : table.Closed)
    {kind : TypeKind} {irType : IrType} (atomic : kind.parts = [])
    (lowers : ∀ (later : TypeTable) (type : TypeId) (levels : Nat),
      later.kind type = kind → lowered later (levels + 1) type = irType)
    (levels : Nat) :
    TypeTable.Yields table (TypeTable.intern kind) fun later type =>
      later.Has type ∧ lowered later (levels + 1) type = irType :=
  (TypeTable.yields_atomic closed atomic).weaken fun later type found =>
    ⟨found.1, lowers later type levels found.2⟩

theorem yields_symbol {table : TypeTable} (closed : table.Closed)
    {name : String} (notVoid : name ≠ "void") (levels : Nat) :
    TypeTable.Yields table (symbolType name) fun later type =>
      later.Has type ∧
        lowered later (levels + 1) type = symbolIrType name := by
  unfold symbolType
  split
  · exact absurd rfl notVoid
  all_goals try
    exact yields_scalar closed rfl (fun _ _ _ kind => by
      simp only [lowered, kind]; rfl) levels
  · have same : symbolIrType name =
        .named (nameBeforeNul (structTypeName name)) := by
      unfold symbolIrType
      split <;> first | rfl | contradiction
    rw [same]
    exact yields_scalar closed rfl (fun _ _ _ kind => by
      simp only [lowered, kind]) levels

theorem yields_pointed {table : TypeTable} (closed : table.Closed)
    {pointee : TypeId} (has : table.Has pointee) (levels : Nat) :
    TypeTable.Yields table (pointerTo pointee) fun later type =>
      later.Has type ∧ lowered later (levels + 1) type = .pointer := by
  unfold pointerTo
  apply Preserves.get_bind
  split
  · refine (TypeTable.yields_bytes closed).weaken ?_
    rintro later type ⟨byte, has, kind, -⟩
    exact ⟨has, by simp only [lowered, kind]⟩
  · refine (TypeTable.yields_pointer closed has).weaken ?_
    rintro later type ⟨has, kind⟩
    exact ⟨has, by simp only [lowered, kind]⟩

theorem reads_names {levels : Nat} {form : Form} {irType : IrType}
    (names : NamesType levels form irType) (depth : Nat) (table : TypeTable)
    (closed : table.Closed) :
    Reads table (readTypeWithin depth form) fun later type =>
      later.Has type ∧ lowered later levels type = irType := by
  induction names generalizing depth table with
  | symbol found notVoid =>
      cases depth with
      | zero => exact Attempts.throw closed _
      | succ depth =>
          unfold readTypeWithin
          rw [found]
          exact Attempts.lift (yields_symbol closed notVoid _)
  | @pointer levels _ items heads _ =>
      obtain ⟨note, headNote, rfl⟩ := heads
      cases depth with
      | zero => exact Attempts.throw closed _
      | succ depth =>
          have pointer (target : Form) (later : TypeTable)
              (laterClosed : later.Closed) :
              Reads later (do pointerTo (← readTypeWithin depth target))
                fun last type => last.Has type ∧
                  lowered last (levels + 1) type = .pointer := by
            refine (reads_typeWithin depth target later laterClosed).bind ?_
            intro last pointee lastClosed _ has
            exact Attempts.lift (yields_pointed lastClosed has _)
          refine (reads_typePart closed _ _).bind ?_
          rintro later _ laterClosed - ⟨⟩
          -- The target is the only item, or stands under its keyword.
          cases items with
          | nil => exact Attempts.throw laterClosed _
          | cons first items =>
              cases items with
              | nil => exact pointer first later laterClosed
              | cons second items =>
                  refine (reads_typePart laterClosed _ _).bind ?_
                  intro last target lastClosed _ _
                  exact pointer target last lastClosed
  | struct heads named =>
      obtain ⟨note, headNote, rfl⟩ := heads
      cases depth with
      | zero => exact Attempts.throw closed _
      | succ depth =>
          refine (reads_typePart closed _ _).bind ?_
          rintro later _ laterClosed - ⟨⟩
          refine (reads_typePart laterClosed _ _).bind ?_
          intro middle name middleClosed _ found
          cases named.symm.trans found
          exact Attempts.lift (yields_scalar middleClosed rfl
            (fun _ _ _ kind => by simp only [lowered, kind]) _)
  | @array levels length _ element items _ heads _ isElement names isSize ih =>
      obtain ⟨note, headNote, rfl⟩ := heads
      cases depth with
      | zero => exact Attempts.throw closed _
      | succ depth =>
          refine (reads_typePart closed _ _).bind ?_
          rintro later _ laterClosed - ⟨⟩
          refine (reads_typePart laterClosed _ _).bind ?_
          intro table target closed _ found
          cases isElement.symm.trans found
          refine (ih depth table closed).bind ?_
          rintro middle elementType middleClosed _ ⟨has, lowers⟩
          refine (reads_typePart middleClosed _ _).bind ?_
          intro last count lastClosed grows found
          cases isSize.symm.trans found
          refine Attempts.lift ((TypeTable.yields_array lastClosed
            (has.mono grows) length).imp ?_)
          rintro after type - afterGrows ⟨afterHas, kind⟩
          refine ⟨afterHas, ?_⟩
          have element : lowered after levels elementType = _ :=
            (lowered_eq middleClosed (grows.trans afterGrows) has
              levels).trans lowers
          simp only [lowered, kind, element, names.firstClass, if_true]

/-! ## States that run -/

/-- The code that was emitted runs to a state of the machine that mirrors the
scopes of the interpreter. -/
structure Mimics (isVariable : String → Bool) (arguments : List Quantity)
    (machine : Machine) (scopes : Scopes) (state : EmitState) : Prop where
  runs : state.builder.Runs arguments machine
  mirrors : Mirrors isVariable arguments machine state.table scopes
    state.context
  pending : state.pendingPhis = []

/-- No instruction is halfway done. -/
structure Tracks (isVariable : String → Bool) (arguments : List Quantity)
    (machine : Machine) (scopes : Scopes) (state : EmitState) : Prop
    extends Mimics isVariable arguments machine scopes state where
  unbound : state.context.Unbound isVariable

/-- A value was computed without touching names. -/
structure Evaluated (isVariable : String → Bool) (arguments : List Quantity)
    (machine : Machine) (scopes : Scopes) (state : EmitState) (value : Value)
    (quantity : Quantity) (last : Machine) (later : EmitState) : Prop where
  tracks : Tracks isVariable arguments last scopes later
  denotes : value.Denotes arguments last later.table quantity
  extends_ : machine.Extends last
  remains : state.builder.Remains later.builder
  context : later.context = state.context

section Steps

variable {isVariable : String → Bool} {arguments : List Quantity}
  {machine last : Machine} {scopes : Scopes} {environment : Environment}
  {state middle later : EmitState} {name : String} {type : TypeId}
  {irType : IrType} {value : Value} {quantity : Quantity} {Result : Type}

theorem Mimics.closed
    (mimics : Mimics isVariable arguments machine scopes state) :
    state.table.Closed := mimics.runs.closed

theorem Mimics.idles (mimics : Mimics isVariable arguments machine scopes
      state) {operation : Build Result} {good : Builder → Result → Prop}
    (idles : Builder.Idles state.builder operation good) :
    Mimics isVariable arguments machine scopes
      { state with builder := (operation state.builder).2 } :=
  ⟨mimics.runs.idles idles, mimics.mirrors.mono mimics.closed
    idles.follows.types (Machine.Extends.refl machine) fun _ _ => rfl,
    mimics.pending⟩

/-- A constant is a value. -/
theorem Tracks.constant
    (tracks : Tracks isVariable arguments machine scopes state)
    {operation : Build Value}
    (idles : Builder.Idles state.builder operation fun later value =>
      value.type = type ∧
        value.Denotes arguments machine later.module.types quantity) :
    (operation state.builder).1.type = type ∧
      Evaluated isVariable arguments machine scopes state
        (operation state.builder).1 quantity machine
        { state with builder := (operation state.builder).2 } :=
  ⟨idles.good.1, ⟨tracks.idles idles, tracks.unbound⟩, idles.good.2,
    Machine.Extends.refl machine, idles.follows.remains, rfl⟩

/-- An instruction gives a value. -/
theorem Mimics.computed
    (mimics : Mimics isVariable arguments machine scopes state)
    {builder : Builder}
    (computed : Builder.Computed arguments machine state.builder type
      quantity value builder) :
    ∃ last, Mimics isVariable arguments last scopes { state with builder } ∧
      value.Denotes arguments last builder.module.types quantity ∧
      machine.Extends last := by
  have extends_ := Machine.extends_fill mimics.runs.next_unused.1 quantity
  exact ⟨_, ⟨computed.runs, mimics.mirrors.mono mimics.closed
    computed.remains.types extends_ fun _ _ => rfl, mimics.pending⟩, computed.denotes, extends_⟩

theorem Tracks.computed
    (tracks : Tracks isVariable arguments machine scopes state)
    {builder : Builder}
    (computed : Builder.Computed arguments machine state.builder type
      quantity value builder) :
    ∃ last, Evaluated isVariable arguments machine scopes state value
      quantity last { state with builder } := by
  obtain ⟨last, mimics, denotes, extends_⟩ := tracks.toMimics.computed computed
  exact ⟨last, ⟨mimics, tracks.unbound⟩, denotes, extends_,
    computed.remains, rfl⟩

theorem Tracks.typeOf
    (tracks : Tracks isVariable arguments machine scopes state) {form : Form}
    (isType : IsType form irType)
    (run : (typeOf form).run environment state = (.ok type, later)) :
    Tracks isVariable arguments machine scopes later ∧
      Represents later.table type irType ∧
      state.builder.Remains later.builder ∧
      later.context = state.context ∧ later.problems = state.problems := by
  have reads := reads_names isType form.height state.table tracks.closed
  have idles : Builder.Idles state.builder
      (Builder.onTypes (readType form).run) _ := Builder.idles_onTypes reads
  have same : later = { state with
      builder := (Builder.onTypes (readType form).run state.builder).2 } :=
    (congrArg Prod.snd run).symm
  have read : (Builder.onTypes (readType form).run state.builder).1 =
      .ok type := congrArg Prod.fst run
  subst same
  obtain ⟨has, lowers⟩ := idles.good type read
  exact ⟨⟨tracks.idles idles, tracks.unbound⟩,
    ⟨has, lowers, isType.firstClass⟩,
    idles.follows.remains, rfl, rfl⟩

/-- What a builder operation gives. -/
theorem run_build_eq_ok {operation : Build Result} {result : Result}
    (run : (liftM operation : Handler Result).run environment state =
      (.ok result, later)) :
    result = (operation state.builder).1 ∧
      later = { state with builder := (operation state.builder).2 } := by
  cases run
  exact ⟨rfl, rfl⟩

/-! ## Reading names -/

theorem orElseFind_of_some {first second : Emission (Option Result)}
    {result : Result}
    (found : first environment state = (some result, later)) :
    orElseFind first second environment state = (some result, later) := by
  unfold orElseFind
  rw [reader_bind_apply, found]
  rfl

theorem orElseFind_of_none {first second : Emission (Option Result)}
    (missing : first environment state = (none, state)) :
    orElseFind first second environment state =
      second environment state := by
  unfold orElseFind
  rw [reader_bind_apply, missing]

theorem context_apply :
    FormCompiler.context environment state = (state.context, state) := rfl

theorem types_apply :
    FormCompiler.types environment state = (state.table, state) := rfl

/-- A name without a slot or an alias is the last value bound to it. -/
theorem getValue_of_bound (noSlot : state.context.slot? name = none)
    (unaliased : ∀ name, state.context.alias? name = none) :
    getValue name environment state =
      (state.context.value? name, state) := by
  have slot : loadSlot name environment state = (none, state) := by
    unfold loadSlot
    rw [reader_bind_apply, context_apply]
    dsimp only
    rw [noSlot]
    rfl
  have aliased (initial : String) :
      readAliased initial environment state = (none, state) := by
    unfold readAliased
    rw [reader_bind_apply, context_apply]
    dsimp only
    rw [unaliased]
    rfl
  unfold FormCompiler.getValue
  rw [orElseFind_of_none slot, orElseFind_of_none (aliased name),
    orElseFind_of_none]
  · rfl
  · cases temporaryBase? name with
    | some base => exact aliased base
    | none => rfl

/-- A name is read as the interpreter reads it. -/
theorem Tracks.getValue
    (tracks : Tracks isVariable arguments machine scopes state)
    (run : getValue name environment state = (some value, later)) :
    ∃ quantity last, scopes.read? name = some quantity ∧
      Evaluated isVariable arguments machine scopes state value quantity last
        later := by
  cases found : state.context.slot? name with
  | none =>
      rw [getValue_of_bound found tracks.mirrors.unaliased] at run
      obtain ⟨known, rfl⟩ := Prod.mk.inj run
      obtain ⟨quantity, read, denotes⟩ :=
        tracks.mirrors.read_value tracks.unbound found known
      exact ⟨quantity, machine, read, tracks, denotes,
        Machine.Extends.refl machine, .refl _, rfl⟩
  | some slot =>
      obtain ⟨quantity, register, type, read, points⟩ :=
        tracks.mirrors.read_slot found
      obtain ⟨loaded, loads, computed⟩ := tracks.runs.load points name
      have slotted : loadSlot name environment state = (some loaded,
          { state with builder := (Builder.load slot name
            state.builder).2 }) := by
        unfold loadSlot
        rw [reader_bind_apply, context_apply]
        dsimp only
        rw [found, ← loads]
        rfl
      unfold FormCompiler.getValue at run
      rw [orElseFind_of_some slotted] at run
      cases run
      obtain ⟨last, evaluated⟩ := tracks.computed computed
      exact ⟨quantity, last, read, evaluated⟩

theorem Tracks.valueOf
    (tracks : Tracks isVariable arguments machine scopes state) {form : Form}
    (named : localName? form = some name)
    (run : (valueOf form).run environment state = (.ok value, later)) :
    ∃ quantity last, scopes.read? name = some quantity ∧
      Evaluated isVariable arguments machine scopes state value quantity last
        later := by
  unfold FormCompiler.valueOf at run
  obtain ⟨read, middle, here, run⟩ := run_bind_eq_ok run
  rw [named] at here
  cases here
  rw [run_lift_bind] at run
  cases found : (FormCompiler.getValue name environment state).1 with
  | none =>
      rw [found] at run
      cases run
  | some result =>
      rw [found] at run
      cases run
      exact tracks.getValue (Prod.ext found rfl)

theorem operand_of_name {form : Form} (named : localName? form = some name)
    (type : TypeId) :
    operand form type = (liftM types : Handler TypeTable) >>= fun _ =>
      FormCompiler.valueOf form := by
  unfold FormCompiler.operand
  obtain ⟨written, found, -⟩ := Option.bind_eq_some_iff.mp named
  unfold Tree.name? at found
  split at found <;> first | rfl | cases found

/-- A literal is a constant. -/
theorem Tracks.numeral
    (tracks : Tracks isVariable arguments machine scopes state)
    {literal : IntLiteral} {form : Form} (written : literal.Written form)
    (represents : Represents state.table type irType)
    (run : (FormCompiler.operand form type).run environment state =
      (.ok value, later)) :
    value.type = type ∧ Evaluated isVariable arguments machine scopes state
      value (literal.at irType) machine later := by
  cases written with
  | @int _ number found =>
      unfold Tree.int? at found
      split at found <;> cases found
      unfold FormCompiler.operand at run
      rw [run_lift_bind] at run
      dsimp only at run
      rw [types_apply, represents.isFloat] at run
      change value.type = type ∧ Evaluated _ _ _ _ _ _
        (if irType.isFloat = true then _ else _) _ _
      split at run <;> obtain ⟨rfl, rfl⟩ := run_build_eq_ok run
      · next float =>
          rw [if_pos float]
          exact tracks.constant (Builder.idles_constantFloat tracks.closed
            represents float _)
      · next notFloat =>
          rw [if_neg notFloat]
          exact tracks.constant (Builder.idles_constantInt tracks.closed
            represents _)
  | @bool _ truth found =>
      unfold Tree.bool? at found
      split at found <;> cases found
      unfold FormCompiler.operand at run
      rw [run_lift_bind] at run
      obtain ⟨rfl, rfl⟩ := run_build_eq_ok run
      exact tracks.constant (Builder.idles_constantInt tracks.closed
        represents _)

/-- An operand is what the interpreter takes it for. -/
theorem Tracks.operand
    (tracks : Tracks isVariable arguments machine scopes state)
    {argument : Argument} {form : Form} (written : argument.Written form)
    (represents : Represents state.table type irType)
    (run : (operand form type).run environment state = (.ok value, later)) :
    ∃ quantity last, scopes.value? irType argument = some quantity ∧
      Evaluated isVariable arguments machine scopes state value quantity last
        later := by
  cases written with
  | name named =>
      rw [operand_of_name named, run_lift_bind] at run
      exact tracks.valueOf named run
  | numeral written =>
      exact ⟨_, machine, rfl, (tracks.numeral written represents run).2⟩

end Steps

end FormCompiler
