import FormCompiler.Proofs.Lowering

/-!
# Types that are read again

A type form that was read once is read for good: every table that goes on from
the one that reading left gives the same type for it and is not extended any
more.  Until then reading adds types at the end and touches no body, also
where it fails on the way.

What is shown of a type is shown for all tables that go on, because the
readers of larger forms look at the types of their parts in later tables.
-/

namespace FormCompiler

open Ir

namespace TypeTable

variable {table later last : TypeTable}

/-- A later table has more types and the same bodies. -/
structure Extends (table later : TypeTable) : Prop where
  holds : table.Holds later
  bodies : later.bodies = table.bodies

instance : Std.Refl Extends := ⟨fun table => ⟨.refl table, rfl⟩⟩

instance : Trans Extends Extends Extends :=
  ⟨fun first second =>
    ⟨first.holds.trans second.holds, second.bodies.trans first.bodies⟩⟩

/-- Types that were there have the fields they had. -/
theorem Extends.fields?_eq (grows : table.Extends later) {type : TypeId}
    (has : table.Has type) : later.fields? type = table.fields? type := by
  unfold fields?
  rw [has.kind_kept grows.holds, grows.bodies]

/-- The place of a kind stays the first one. -/
theorem Holds.find?_eq (holds : table.Holds later) {kind : TypeKind}
    {type : TypeId} (found : table.find? kind = some type) :
    later.find? kind = some type := by
  obtain ⟨added, same⟩ := holds
  unfold find? at found ⊢
  obtain ⟨index, isIndex, rfl⟩ := Option.map_eq_some_iff.mp found
  rw [← same, List.idxOf?, List.findIdx?_append]
  rw [List.idxOf?] at isIndex
  rw [isIndex]
  rfl

theorem has_of_find? {kind : TypeKind} {type : TypeId}
    (found : table.find? kind = some type) :
    table.Has type ∧ table.kind type = kind := by
  obtain ⟨index, isIndex, rfl⟩ := Option.map_eq_some_iff.mp found
  obtain ⟨inside, same, -⟩ := List.idxOf?_eq_some_iff.mp isIndex
  refine ⟨inside, ?_⟩
  rw [TypeTable.kind, List.getElem?_eq_getElem inside, Option.getD_some, same]

/-- The kind that was asked for is in the table then. -/
theorem find?_intern (table : TypeTable) (kind : TypeKind) :
    (intern kind table).2.find? kind = some (intern kind table).1 := by
  unfold intern
  cases found : table.find? kind with
  | some type => exact found
  | none =>
      unfold find? at found ⊢
      rw [Option.map_eq_none_iff, List.idxOf?] at found
      rw [List.idxOf?, List.findIdx?_append, found]
      simp

theorem extends_intern (table : TypeTable) (kind : TypeKind) :
    table.Extends (intern kind table).2 := by
  unfold intern
  split
  · exact Std.Refl.refl table
  · exact ⟨List.prefix_append _ _, rfl⟩

theorem intern_of_find? {kind : TypeKind} {type : TypeId}
    (found : table.find? kind = some type) :
    intern kind table = (type, table) := by
  unfold intern
  rw [found]

/-- An operation has nothing more to do: every table that goes on from this
one gives the same result and is left alone. -/
def Settles {Result : Type} (table : TypeTable)
    (operation : StateM TypeTable Result) (result : Result) : Prop :=
  ∀ later, table.Holds later → operation later = (result, later)

end TypeTable

/-! ## Readers -/

/-- A reader extends the table.  Where it gives a result, it is settled with
it, and the result is good in all tables that go on. -/
def Steady {Result : Type} (table : TypeTable) (reader : TypeReader Result)
    (good : TypeTable → Result → Prop) : Prop :=
  Attempts (fun _ => True) TypeTable.Extends table reader
    fun later result => (∀ last, later.Holds last → good last result) ∧
      later.Settles reader.run (.ok result)

namespace Steady

variable {Result Other Item : Type} {table : TypeTable}
  {reader other : TypeReader Result} {good : TypeTable → Result → Prop}
  {goodLater : TypeTable → Other → Prop}

theorem weaken {goodToo : TypeTable → Result → Prop}
    (steady : Steady table reader good)
    (implies : ∀ later result, good later result → goodToo later result) :
    Steady table reader goodToo :=
  Attempts.weaken steady fun _ _ ⟨isGood, settled⟩ =>
    ⟨fun last holds => implies _ _ (isGood last holds), settled⟩

theorem pure {result : Result}
    (isGood : ∀ later, table.Holds later → good later result) :
    Steady table (Pure.pure result) good :=
  Attempts.pure trivial ⟨isGood, fun _ _ => rfl⟩

theorem throw (cause : ProblemCause) : Steady table (throw cause) good :=
  Attempts.throw trivial cause

theorem part (form : Form) (part : Option Result) :
    Steady table (typePart form part) fun _ found => part = some found := by
  cases part with
  | some part => exact .pure fun _ _ => rfl
  | none => exact .throw _

/-- A reader that does the same from here on. -/
theorem congr (steady : Steady table other good)
    (same : ∀ later, table.Holds later → reader.run later = other.run later) :
    Steady table reader good := by
  unfold Steady Attempts at steady ⊢
  obtain ⟨-, grows, valid⟩ := steady
  have now := same table (.refl table)
  refine ⟨trivial, now ▸ grows, fun result isResult => ?_⟩
  rw [now] at isResult ⊢
  obtain ⟨isGood, settled⟩ := valid result isResult
  refine ⟨isGood, fun later holds => ?_⟩
  rw [same later (grows.holds.trans holds)]
  exact settled later holds

theorem bind {next : Result → TypeReader Other}
    (first : Steady table reader good)
    (second : ∀ later result, table.Holds later →
      (∀ last, later.Holds last → good last result) →
        Steady later (next result) goodLater) :
    Steady table (reader >>= next) goodLater := by
  refine Attempts.bind first fun later result _ grows found => ?_
  obtain ⟨isGood, settled⟩ := found
  refine Preserves.imp (second later result grows.holds isGood)
    fun last outcome _ grows valid final isFinal => ?_
  obtain ⟨finalGood, finalSettled⟩ := valid final isFinal
  refine ⟨finalGood, fun beyond holds => ?_⟩
  rw [ExceptT.run_bind, stateM_bind_apply,
    settled beyond (grows.holds.trans holds)]
  exact finalSettled beyond holds

theorem mapM {read : Item → TypeReader Result}
    (each : ∀ later item, Steady later (read item) good) (items : List Item) :
    Steady table (items.mapM read) fun later results =>
      ∀ result ∈ results, good later result := by
  induction items generalizing table with
  | nil => exact .pure fun _ _ => List.forall_mem_nil _
  | cons item items ih =>
      rw [List.mapM_cons]
      refine (each table item).bind fun later result _ isGood => ?_
      refine ih.bind fun last results holds allGood => ?_
      refine .pure fun beyond more => List.forall_mem_cons.mpr ?_
      exact ⟨isGood beyond (holds.trans more), allGood beyond more⟩

/-- What two operations do alike they do alike as readers. -/
theorem run_lift {operation also : StateM TypeTable Result}
    (same : operation table = also table) :
    (liftM operation : TypeReader Result).run table =
      (liftM also : TypeReader Result).run table := by
  show (Except.ok (operation table).1, (operation table).2) = _
  rw [same]
  rfl

theorem intern (kind : TypeKind) :
    Steady table (liftM (TypeTable.intern kind)) fun later type =>
      later.Has type ∧ later.kind type = kind := by
  refine Attempts.lift ⟨trivial, TypeTable.extends_intern table kind, ?_⟩
  have found := TypeTable.find?_intern table kind
  refine ⟨fun last holds => TypeTable.has_of_find? (holds.find?_eq found),
    fun last holds => ?_⟩
  have again := TypeTable.intern_of_find? (holds.find?_eq found)
  rw [ExceptT.run_liftM]
  show (Except.ok (TypeTable.intern kind last).1,
    (TypeTable.intern kind last).2) = _
  rw [again]

theorem bytePointer :
    Steady table (liftM TypeTable.bytePointer) TypeTable.Has := by
  have inSteps : Steady table
      (do
        let byte ← (liftM (TypeTable.int 8) : TypeReader TypeId)
        liftM (TypeTable.pointer byte))
      TypeTable.Has :=
    (intern _).bind fun later byte _ _ =>
      (intern _).weaken fun _ _ found => found.1
  exact inSteps.congr fun _ _ => rfl

theorem symbolType (name : String) :
    Steady table (liftM (symbolType name)) TypeTable.Has := by
  have scalar (kind : TypeKind) :
      Steady table (liftM (TypeTable.intern kind)) TypeTable.Has :=
    (intern kind).weaken fun _ _ found => found.1
  unfold FormCompiler.symbolType
  split <;> exact scalar _

/-- Whether a type is `void` does not change, so the same pointer is made. -/
theorem pointerTo {pointee : TypeId} (has : table.Has pointee) :
    Steady table (liftM (pointerTo pointee)) TypeTable.Has := by
  have run (later : TypeTable) (holds : table.Holds later) :
      FormCompiler.pointerTo pointee later =
        (if table.isVoid pointee then TypeTable.bytePointer
          else TypeTable.pointer pointee) later := by
    have same : later.isVoid pointee = table.isVoid pointee := by
      rw [TypeTable.isVoid, TypeTable.isVoid, has.kind_kept holds]
    rw [FormCompiler.pointerTo, stateM_get_bind, same]
  refine congr ?_ fun later holds => run_lift (run later holds)
  split
  · exact bytePointer
  · exact (intern _).weaken fun _ _ found => found.1

/-- Reading a type form that nests at most some levels. -/
theorem typeWithin (depth : Nat) (form : Form) :
    Steady table (readTypeWithin depth form) TypeTable.Has := by
  induction depth generalizing form table with
  | zero => exact .throw _
  | succ depth ih =>
      have pointer (target : Form) (later : TypeTable) :
          Steady later
            (do FormCompiler.pointerTo (← readTypeWithin depth target))
            TypeTable.Has :=
        (ih target).bind fun last pointee _ has =>
          pointerTo (has last (.refl last))
      have function (result : TypeId) (parameters : List Form)
          (variadic : Bool) (later : TypeTable) :
          Steady later
            (do
              let parameters ← parameters.mapM (readTypeWithin depth)
              TypeTable.function result parameters variadic)
            TypeTable.Has :=
        (mapM (fun _ form => ih form) parameters).bind
          fun last parameters _ _ => (intern _).weaken fun _ _ found => found.1
      unfold readTypeWithin
      split
      · exact symbolType _
      · refine (part form _).bind fun later items _ _ => ?_
        simp only
        split
        · split
          · exact pointer _ _
          · exact (part form _).bind fun last target _ _ => pointer target last
        · refine (part form _).bind fun last name _ _ => ?_
          exact (intern _).weaken fun _ _ found => found.1
        · refine (part form _).bind fun later target _ _ => ?_
          refine (ih target).bind fun later element _ _ => ?_
          refine (part form _).bind fun later length _ _ => ?_
          exact (intern _).weaken fun _ _ found => found.1
        · split
          · exact (ih _).bind fun last result _ _ => function result _ _ last
          · exact (intern _).bind fun last result _ _ =>
              function result _ _ last
        · exact .throw _

end Steady

/-- Once a type form is read, it stands for the same type later on. -/
theorem readType_again (form : Form) (table : TypeTable) :
    let outcome := (readType form).run table
    ∀ type, outcome.1 = .ok type → outcome.2.Has type ∧
      ∀ later, outcome.2.Holds later →
        (readType form).run later = (.ok type, later) := by
  obtain ⟨-, -, valid⟩ : Steady table (readType form) TypeTable.Has :=
    .typeWithin form.height form
  intro outcome type isType
  obtain ⟨has, settled⟩ := valid type isType
  exact ⟨has _ (.refl _), settled⟩

/-- Reading a type form keeps every type, with its kind and its fields, and
every body, whether or not it succeeds.  Where it gives a type, the table
holds that type, and in every table that goes on from there reading the form
again gives the same type and adds none. -/
theorem readType_settles (form : Form) (table : TypeTable) :
    let outcome := (readType form).run table
    (table.Extends outcome.2 ∧ ∀ type, table.Has type →
      outcome.2.Has type ∧ outcome.2.kind type = table.kind type ∧
        outcome.2.fields? type = table.fields? type) ∧
    ∀ type, outcome.1 = .ok type → outcome.2.Has type ∧
      ∀ later, outcome.2.Holds later →
        (readType form).run later = (.ok type, later) := by
  obtain ⟨-, grows, -⟩ : Steady table (readType form) TypeTable.Has :=
    .typeWithin form.height form
  exact ⟨⟨grows, fun type has => ⟨has.kept grows.holds,
    has.kind_kept grows.holds, grows.fields?_eq has⟩⟩,
    readType_again form table⟩

/-- Three pointers to a struct. -/
def rowOfPointers : Form :=
  Form.keywordCall "array"
    [("elem", Form.list [Form.symbol "ptr", Form.symbol "node"]),
      ("size", .atom .empty (.int 3))]

/-- The struct gets a body that holds the row, and a row of rows is added. -/
theorem readType_settles_rowOfPointers :
    let later : TypeTable := ⟨[.named "struct.node", .pointer ⟨0⟩,
      .array ⟨1⟩ 3, .array ⟨2⟩ 3], [(⟨0⟩, [⟨2⟩])]⟩
    ((readType rowOfPointers).run {}).1 = .ok ⟨2⟩ ∧
      ((readType rowOfPointers).run {}).2.Holds later ∧
      (readType rowOfPointers).run later = (.ok ⟨2⟩, later) := by
  have isType : ((readType rowOfPointers).run {}).1 = .ok ⟨2⟩ := by
    decide +kernel
  have kinds : ((readType rowOfPointers).run {}).2.kinds =
      [.named "struct.node", .pointer ⟨0⟩, .array ⟨1⟩ 3] := by
    decide +kernel
  have holds : ((readType rowOfPointers).run {}).2.Holds
      ⟨[.named "struct.node", .pointer ⟨0⟩, .array ⟨1⟩ 3, .array ⟨2⟩ 3],
        [(⟨0⟩, [⟨2⟩])]⟩ :=
    ⟨[.array ⟨2⟩ 3], by rw [kinds]; rfl⟩
  have settled := (readType_settles rowOfPointers {}).2 ⟨2⟩ isType
  exact ⟨isType, holds, settled.2 _ holds⟩

end FormCompiler
