import Mathlib.Data.List.Forall2
import FormCompiler.Emit.Layout
import FormCompiler.Ir.Module
import FormCompiler.Proofs.StatefulRuns

/-!
# Growing type tables

A type table is only ever extended, and every type in it is made of types in
it.  So what a type stands for never changes once the table holds it: neither
its kind nor the instruction type that it is lowered to.

Reading type forms and laying out aggregates keep a table closed and give
types that it holds.
-/

namespace FormCompiler

/-- The types that a kind is made of. -/
def TypeKind.parts : TypeKind → List TypeId
  | .pointer pointee => [pointee]
  | .array element _ => [element]
  | .struct fields => fields
  | .function result parameters _ => result :: parameters
  | .void | .int _ | .float | .double | .named _ | .label | .token => []

namespace TypeTable

def Has (table : TypeTable) (type : TypeId) : Prop :=
  type.index < table.kinds.length

/-- Every type is made of types in the table. -/
structure Closed (table : TypeTable) : Prop where
  parts : ∀ kind ∈ table.kinds, ∀ part ∈ kind.parts, table.Has part
  bodies : ∀ body ∈ table.bodies, ∀ field ∈ body.2, table.Has field

/-- A later table holds every type where it was. -/
def Holds (table later : TypeTable) : Prop := table.kinds <+: later.kinds

/-- A later table holds every type where it was, with the body it has. -/
structure Grows (table later : TypeTable) : Prop where
  holds : table.Holds later
  bodies : ∀ type fields, table.bodies.lookup type = some fields →
    later.bodies.lookup type = some fields

variable {table later last : TypeTable} {type : TypeId}

theorem Holds.refl (table : TypeTable) : table.Holds table :=
  List.prefix_refl _

theorem Holds.trans (first : table.Holds later) (second : later.Holds last) :
    table.Holds last :=
  List.IsPrefix.trans first second

theorem Grows.refl (table : TypeTable) : table.Grows table :=
  ⟨.refl table, fun _ _ found => found⟩

theorem Grows.trans (first : table.Grows later) (second : later.Grows last) :
    table.Grows last :=
  ⟨first.holds.trans second.holds,
    fun type fields found => second.bodies type fields
      (first.bodies type fields found)⟩

theorem Grows.length_le (grows : table.Grows later) :
    table.kinds.length ≤ later.kinds.length :=
  List.IsPrefix.length_le grows.holds

theorem Has.kept (has : table.Has type) (holds : table.Holds later) :
    later.Has type :=
  Nat.lt_of_lt_of_le has (List.IsPrefix.length_le holds)

theorem Has.mono (has : table.Has type) (grows : table.Grows later) :
    later.Has type :=
  has.kept grows.holds

theorem Has.kind_kept (has : table.Has type) (holds : table.Holds later) :
    later.kind type = table.kind type := by
  obtain ⟨added, same⟩ := holds
  rw [kind, kind, ← same, List.getElem?_append_left has]

theorem Has.kind_eq (has : table.Has type) (grows : table.Grows later) :
    later.kind type = table.kind type :=
  has.kind_kept grows.holds

/-- Only types in the table have a kind other than `void`. -/
theorem has_of_kind (notVoid : table.kind type ≠ .void) : table.Has type := by
  by_contra outside
  apply notVoid
  rw [kind, List.getElem?_eq_none (Nat.le_of_not_lt outside),
    Option.getD_none]

/-- A struct has the fields it had. -/
theorem Grows.fields? (grows : table.Grows later) {fields : List TypeId}
    (found : table.fields? type = some fields) :
    later.fields? type = some fields := by
  have notVoid : table.kind type ≠ .void := by
    intro void
    simp [TypeTable.fields?, void] at found
  unfold TypeTable.fields? at found ⊢
  rw [(has_of_kind notVoid).kind_eq grows]
  split at found
  · exact found
  · exact grows.bodies type fields found
  · cases found

theorem Has.kind_mem (has : table.Has type) :
    table.kind type ∈ table.kinds := by
  rw [kind, List.getElem?_eq_getElem has, Option.getD_some]
  exact List.getElem_mem has

theorem Grows.element? (grows : table.Grows later) {index : Nat}
    {element : TypeId} (found : table.element? type index = some element) :
    later.element? type index = some element := by
  have notVoid : table.kind type ≠ .void := by
    intro void
    simp [TypeTable.element?, TypeTable.fields?, void] at found
  unfold TypeTable.element? at found ⊢
  rw [(has_of_kind notVoid).kind_eq grows]
  split at found
  · exact found
  · obtain ⟨fields, fieldsFound, position⟩ := Option.bind_eq_some_iff.mp found
    rw [grows.fields? fieldsFound]
    exact position

namespace Closed

theorem part (closed : table.Closed) (type : TypeId) {part : TypeId}
    (member : part ∈ (table.kind type).parts) : table.Has part := by
  have notVoid : table.kind type ≠ .void := by
    intro void
    simp [void, TypeKind.parts] at member
  exact closed.parts _ (has_of_kind notVoid).kind_mem part member

theorem pointee (closed : table.Closed) {pointee : TypeId}
    (found : table.pointee? type = some pointee) : table.Has pointee := by
  apply closed.part type
  unfold pointee? at found
  split at found <;> cases found
  next same => simp [same, TypeKind.parts]

theorem signature (closed : table.Closed) {signature : Signature}
    (found : table.signature? type = some signature) :
    table.Has signature.result ∧
      ∀ parameter ∈ signature.parameters, table.Has parameter := by
  unfold signature? at found
  split at found <;> cases found
  next same =>
    constructor
    · exact closed.part type (by simp [same, TypeKind.parts])
    · intro parameter member
      exact closed.part type (by simp [same, TypeKind.parts, member])

theorem fields (closed : table.Closed) {fields : List TypeId}
    (found : table.fields? type = some fields) :
    ∀ field ∈ fields, table.Has field := by
  intro field member
  unfold fields? at found
  split at found
  · next same =>
      cases found
      exact closed.part type (by simpa [same, TypeKind.parts])
  · have entry := List.lookup_eq_some_iff.mp found
    obtain ⟨before, after, same, -⟩ := entry
    apply closed.bodies (type, fields) _ field member
    rw [same]
    simp
  · cases found

theorem element (closed : table.Closed) {index : Nat} {element : TypeId}
    (found : table.element? type index = some element) :
    table.Has element := by
  unfold element? at found
  split at found
  · next same =>
      cases found
      exact closed.part type (by simp [same, TypeKind.parts])
  · obtain ⟨fields, fieldsFound, position⟩ := Option.bind_eq_some_iff.mp found
    exact closed.fields fieldsFound element (List.mem_of_getElem? position)

end Closed

theorem has_of_signature {signature : Signature}
    (found : table.signature? type = some signature) : table.Has type := by
  apply has_of_kind
  intro void
  simp [signature?, void] at found

theorem Has.signature_eq (has : table.Has type) (grows : table.Grows later) :
    later.signature? type = table.signature? type := by
  rw [signature?, signature?, has.kind_eq grows]

theorem Has.pointee_eq (has : table.Has type) (grows : table.Grows later) :
    later.pointee? type = table.pointee? type := by
  rw [pointee?, pointee?, has.kind_eq grows]

/-! ## Operations on tables -/

instance : Std.Refl Holds := ⟨Holds.refl⟩

instance : Trans Holds Holds Holds := ⟨Holds.trans⟩

instance : Std.Refl Grows := ⟨Grows.refl⟩

instance : Trans Grows Grows Grows := ⟨Grows.trans⟩

/-- An operation keeps a closed table closed, only extends it, and gives a
result that is good for the table it leaves. -/
abbrev Yields {Result : Type} (table : TypeTable)
    (operation : StateM TypeTable Result)
    (good : TypeTable → Result → Prop) : Prop :=
  Preserves Closed Grows table operation good

/-- A kind gets the one type that stands for it. -/
theorem yields_intern (closed : table.Closed) {kind : TypeKind}
    (parts : ∀ part ∈ kind.parts, table.Has part) :
    Yields table (intern kind) fun later type =>
      later.Has type ∧ later.kind type = kind := by
  unfold intern
  cases found : table.find? kind with
  | some type =>
      obtain ⟨index, position, rfl⟩ := Option.map_eq_some_iff.mp found
      obtain ⟨inside, same⟩ := List.idxOf?_eq_some_iff.mp position
      refine ⟨?_, ?_, ?_⟩ <;> simp only [found]
      · exact closed
      · exact Grows.refl table
      · refine ⟨inside, ?_⟩
        rw [TypeTable.kind, List.getElem?_eq_getElem inside, Option.getD_some]
        exact same.1
  | none =>
      have grows : table.Grows { table with kinds := table.kinds ++ [kind] } :=
        ⟨List.prefix_append _ _, fun _ _ found => found⟩
      refine ⟨?_, ?_, ?_⟩ <;> simp only [found]
      · constructor
        · intro other member part partMember
          rcases List.mem_append.mp member with old | new
          · exact (closed.parts other old part partMember).mono grows
          · rw [List.mem_singleton.mp new] at partMember
            exact (parts part partMember).mono grows
        · intro body member field fieldMember
          exact (closed.bodies body member field fieldMember).mono grows
      · exact grows
      · simp [Has, TypeTable.kind]

theorem yields_atomic (closed : table.Closed) {kind : TypeKind}
    (atomic : kind.parts = []) :
    Yields table (intern kind) fun later type =>
      later.Has type ∧ later.kind type = kind :=
  yields_intern closed (by simp [atomic])

theorem yields_pointer (closed : table.Closed) {pointee : TypeId}
    (has : table.Has pointee) :
    Yields table (pointer pointee) fun later type =>
      later.Has type ∧ later.kind type = .pointer pointee :=
  yields_intern closed (by simpa [TypeKind.parts] using has)

theorem yields_bytes (closed : table.Closed) :
    Yields table bytePointer fun later type => ∃ byte, later.Has type ∧
      later.kind type = .pointer byte ∧ later.kind byte = .int 8 := by
  apply (yields_atomic closed rfl).bind
  intro later byte laterClosed _ found
  apply (yields_pointer laterClosed found.1).imp
  intro last type _ grows result
  exact ⟨byte, result.1, result.2, (found.1.kind_eq grows).trans found.2⟩

theorem yields_bytePointer (closed : table.Closed) :
    Yields table bytePointer fun later type =>
      later.Has type ∧ later.isPointer type = true := by
  refine (yields_bytes closed).weaken fun later type found => ?_
  obtain ⟨byte, has, kind, -⟩ := found
  exact ⟨has, by simp [isPointer, pointee?, kind]⟩

theorem yields_array (closed : table.Closed) {element : TypeId}
    (has : table.Has element) (length : Nat) :
    Yields table (array element length) fun later type =>
      later.Has type ∧ later.kind type = .array element length :=
  yields_intern closed (by simpa [TypeKind.parts] using has)

theorem yields_function (closed : table.Closed) {result : TypeId}
    {parameters : List TypeId} (hasResult : table.Has result)
    (hasParameters : ∀ parameter ∈ parameters, table.Has parameter)
    (variadic : Bool) :
    Yields table (function result parameters variadic) fun later type =>
      later.Has type ∧
        later.kind type = .function result parameters variadic := by
  apply yields_intern closed
  simpa [TypeKind.parts] using ⟨hasResult, hasParameters⟩

theorem Closed.setBody (closed : table.Closed) (type : TypeId)
    {fields : List TypeId} (has : ∀ field ∈ fields, table.Has field) :
    (TypeTable.setBody type fields table).2.Closed := by
  refine ⟨closed.parts, ?_⟩
  intro body member
  rcases List.mem_cons.mp member with rfl | old
  · exact has
  · exact closed.bodies body old

/-- A named struct has the body that it was given last. -/
theorem fields?_setBody {name : String} (isNamed : table.kind type = .named name)
    (fields : List TypeId) :
    (setBody type fields table).2.fields? type = some fields := by
  have same : (setBody type fields table).2.kind type = .named name := isNamed
  rw [fields?, same]
  exact List.lookup_cons_self

/-- The struct of a sum: a tag and a payload of bytes. -/
def IsTagged (table : TypeTable) (type : TypeId) : Prop :=
  ∃ tag payload byte size, table.fields? type = some [tag, payload] ∧
    table.kind tag = .int 32 ∧ table.kind payload = .array byte size ∧
    table.kind byte = .int 8

/-- A struct that has no body yet gets one. -/
theorem yields_setBody (closed : table.Closed) {type : TypeId}
    (missing : table.bodies.lookup type = none)
    {fields : List TypeId} (has : ∀ field ∈ fields, table.Has field) :
    Yields table (setBody type fields) fun _ _ => True := by
  refine ⟨closed.setBody type has, ⟨Holds.refl table, ?_⟩, trivial⟩
  intro other body found
  have different : (other == type) = false := by
    rw [beq_eq_false_iff_ne]
    rintro rfl
    cases missing.symm.trans found
  simp only [setBody, List.lookup_cons, different, found]

end TypeTable

/-! ## Reading types -/

/-- A reader keeps a closed table closed, only extends it, and gives a good
result unless it fails. -/
abbrev Reads {Result : Type} (table : TypeTable) (reader : TypeReader Result)
    (good : TypeTable → Result → Prop) : Prop :=
  Attempts TypeTable.Closed TypeTable.Grows table reader good

theorem reads_typePart {table : TypeTable} (closed : table.Closed)
    {Part : Type} (form : Form) (part : Option Part) :
    Reads table (typePart form part) fun _ found => part = some found := by
  cases part with
  | some part => exact Attempts.pure closed rfl
  | none => exact Attempts.throw closed _

theorem yields_symbolType {table : TypeTable} (closed : table.Closed)
    (name : String) :
    TypeTable.Yields table (symbolType name) TypeTable.Has := by
  have atomic {kind : TypeKind} (parts : kind.parts = []) :
      TypeTable.Yields table (TypeTable.intern kind) TypeTable.Has :=
    (TypeTable.yields_atomic closed parts).weaken fun _ _ found => found.1
  unfold symbolType
  split <;> exact atomic rfl

theorem yields_pointerTo {table : TypeTable} (closed : table.Closed)
    {pointee : TypeId} (has : table.Has pointee) :
    TypeTable.Yields table (pointerTo pointee) TypeTable.Has := by
  unfold pointerTo
  apply Preserves.get_bind
  split
  · exact (TypeTable.yields_bytePointer closed).weaken
      fun _ _ found => found.1
  · exact (TypeTable.yields_pointer closed has).weaken
      fun _ _ found => found.1

/-- Type forms are read into types of the table. -/
theorem reads_typeWithin (depth : Nat) (form : Form) (table : TypeTable)
    (closed : table.Closed) :
    Reads table (readTypeWithin depth form) TypeTable.Has := by
  induction depth generalizing form table with
  | zero => exact Attempts.throw closed _
  | succ depth ih =>
      unfold readTypeWithin
      split
      · exact Attempts.lift (yields_symbolType closed _)
      · apply (reads_typePart closed form _).bind
        intro table items closed _ _
        have pointer (target : Form) (later : TypeTable)
            (laterClosed : later.Closed) :
            Reads later (do pointerTo (← readTypeWithin depth target))
              TypeTable.Has := by
          apply (ih target later laterClosed).bind
          intro last pointee lastClosed _ has
          exact Attempts.lift (yields_pointerTo lastClosed has)
        have function {result : TypeId} (later : TypeTable)
            (laterClosed : later.Closed) (has : later.Has result)
            (parameters : List Form) (variadic : Bool) :
            Reads later
              (do
                let parameters ← parameters.mapM (readTypeWithin depth)
                TypeTable.function result parameters variadic)
              TypeTable.Has := by
          apply (Attempts.mapM laterClosed
            (fun _ _ _ _ grows has => has.mono grows)
            (fun form last lastClosed _ => ih form last lastClosed)
            parameters).bind
          intro last parameters lastClosed grows allHas
          apply Attempts.lift
          exact (TypeTable.yields_function lastClosed (has.mono grows) allHas
            variadic).weaken fun _ _ found => found.1
        simp only
        split
        · split
          · exact pointer _ _ closed
          · apply (reads_typePart closed form _).bind
            intro later target laterClosed _ _
            exact pointer target later laterClosed
        · apply (reads_typePart closed form _).bind
          intro later name laterClosed _ _
          apply Attempts.lift
          exact (TypeTable.yields_atomic laterClosed rfl).weaken
            fun _ _ found => found.1
        · apply (reads_typePart closed form _).bind
          intro table target closed _ _
          apply (ih target table closed).bind
          intro table element closed _ has
          apply (reads_typePart closed form _).bind
          intro table length closed grows _
          apply Attempts.lift
          exact (TypeTable.yields_array closed (has.mono grows) length).weaken
            fun _ _ found => found.1
        · split
          · apply (ih _ table closed).bind
            intro later result laterClosed _ has
            exact function later laterClosed has _ _
          · apply (Attempts.lift (TypeTable.yields_atomic closed rfl)).bind
            intro later result laterClosed _ found
            exact function later laterClosed found.1 _ _
        · exact Attempts.throw closed _

/-- A type form is read into a type of the table. -/
theorem reads_type {table : TypeTable} (closed : table.Closed) (form : Form) :
    Reads table (readType form) TypeTable.Has :=
  reads_typeWithin form.height form table closed

/-! ## Layouts -/

/-- Every type that a layout mentions is in the table. -/
structure Layouts.Known (table : TypeTable) (layouts : Layouts) : Prop where
  structs : ∀ name layout, layouts.structs.find? name = some layout →
    table.Has layout.type ∧ ∀ field ∈ layout.fields, table.Has field.type
  sums : ∀ name layout, layouts.sums.find? name = some layout →
    table.Has layout.type ∧
      ∀ variant ∈ layout.variants, ∀ field ∈ variant.fields, table.Has field
  unions : ∀ name layout, layouts.unions.find? name = some layout →
    table.Has layout.type ∧ ∀ field ∈ layout.fields, table.Has field.type

theorem Layouts.Known.kept {table later : TypeTable} {layouts : Layouts}
    (known : layouts.Known table) (holds : table.Holds later) :
    layouts.Known later := by
  refine ⟨?_, ?_, ?_⟩
  · intro name layout found
    obtain ⟨type, fields⟩ := known.structs name layout found
    exact ⟨type.kept holds,
      fun field member => (fields field member).kept holds⟩
  · intro name layout found
    obtain ⟨type, variants⟩ := known.sums name layout found
    refine ⟨type.kept holds, ?_⟩
    intro variant member field fieldMember
    exact (variants variant member field fieldMember).kept holds
  · intro name layout found
    obtain ⟨type, fields⟩ := known.unions name layout found
    exact ⟨type.kept holds,
      fun field member => (fields field member).kept holds⟩

theorem Layouts.Known.mono {table later : TypeTable} {layouts : Layouts}
    (known : layouts.Known table) (grows : table.Grows later) :
    layouts.Known later :=
  known.kept grows.holds

/-- A reader keeps a closed table closed and every type where it is, and gives
a good result unless it fails.  It may give a struct another body. -/
abbrev LaysOut {Result : Type} (table : TypeTable)
    (reader : TypeReader Result) (good : TypeTable → Result → Prop) : Prop :=
  Attempts TypeTable.Closed TypeTable.Holds table reader good

theorem Reads.laysOut {Result : Type} {table : TypeTable}
    {reader : TypeReader Result} {good : TypeTable → Result → Prop}
    (reads : Reads table reader good) : LaysOut table reader good :=
  ⟨reads.holds, reads.follows.holds, reads.good⟩

theorem TypeTable.Yields.laysOut {Result : Type} {table : TypeTable}
    {operation : StateM TypeTable Result}
    {good : TypeTable → Result → Prop} (yields : Yields table operation good) :
    LaysOut table (liftM operation) good :=
  Reads.laysOut (.lift yields)

theorem reads_shaped {table : TypeTable} (closed : table.Closed)
    {Part : Type} (shape : String) (part : Option Part) :
    Reads table (shaped shape part) fun _ found => part = some found := by
  cases part with
  | some part => exact Attempts.pure closed rfl
  | none => exact Attempts.throw closed _

theorem reads_field {table : TypeTable} (closed : table.Closed)
    (head : String) (form : Form) :
    Reads table (readField head form) fun later field =>
      later.Has field.type := by
  unfold readField
  apply (reads_shaped closed _ _).bind
  intro table arguments closed _ _
  apply (reads_shaped closed _ _).bind
  intro table name closed _ _
  apply (reads_shaped closed _ _).bind
  intro table typeForm closed _ _
  apply (reads_type closed typeForm).bind
  intro table type closed _ has
  exact Attempts.pure closed has

theorem reads_fields {table : TypeTable} (closed : table.Closed)
    (arguments : KeywordArguments) (head : String) :
    Reads table (readFields arguments head) fun later fields =>
      ∀ field ∈ fields, later.Has field.type :=
  Attempts.mapM closed (fun _ _ _ _ grows has => has.mono grows)
    (fun form _ closed _ => reads_field closed head form) _

theorem reads_variant {table : TypeTable} (closed : table.Closed) (tag : Nat)
    (form : Form) :
    Reads table (readVariant tag form) fun later variant =>
      ∀ field ∈ variant.fields, later.Has field := by
  unfold readVariant
  apply (reads_shaped closed _ _).bind
  intro table arguments closed _ _
  apply (reads_shaped closed _ _).bind
  intro table name closed _ _
  apply (Attempts.mapM closed (fun _ _ _ _ grows has => has.mono grows)
    (fun form _ closed _ => reads_type closed form) _).bind
  intro table fields closed _ has
  split
  · exact Attempts.pure closed has
  · exact Attempts.throw closed _

theorem reads_variants {table : TypeTable} (closed : table.Closed) (tag : Nat)
    (forms : List Form) :
    Reads table (readVariants tag forms) fun later variants =>
      ∀ variant ∈ variants, ∀ field ∈ variant.fields, later.Has field := by
  induction forms generalizing tag table with
  | nil => exact Attempts.pure closed (by simp)
  | cons form forms ih =>
      unfold readVariants
      apply (reads_variant closed tag form).bind
      intro table variant closed _ has
      apply (ih closed (tag + 1)).bind
      intro table variants closed grows allHave
      apply Attempts.pure closed
      intro other member field fieldMember
      rcases List.mem_cons.mp member with rfl | later
      · exact (has field fieldMember).mono grows
      · exact allHave other later field fieldMember

theorem laysOut_complete {table : TypeTable} (closed : table.Closed)
    (name : String) {body : List TypeId}
    (has : ∀ field ∈ body, table.Has field) :
    LaysOut table (liftM (complete name body)) fun later type =>
      later.Has type ∧ later.fields? type = some body := by
  have names : TypeTable.Yields table
      (TypeTable.named (structTypeName name)) fun later type =>
        later.Has type ∧ later.kind type = .named (structTypeName name) :=
    TypeTable.yields_atomic closed rfl
  obtain ⟨namedClosed, grows, found⟩ := names
  refine .lift ⟨namedClosed.setBody _ ?_, grows.holds, found.1, ?_⟩
  · exact fun field member => (has field member).mono grows
  · exact TypeTable.fields?_setBody found.2 body

theorem laysOut_struct {table : TypeTable} (closed : table.Closed)
    (declaration : Declaration) :
    LaysOut table (readStruct declaration) fun later layout =>
      later.Has layout.type ∧
        ∀ field ∈ layout.fields, later.Has field.type := by
  apply (reads_fields closed _ _).laysOut.bind
  intro table fields closed _ has
  have types : ∀ type ∈ fields.map Field.type, table.Has type := by
    simpa using has
  apply (laysOut_complete closed _ types).bind
  intro table type closed grows completed
  refine Attempts.pure closed ⟨completed.1, ?_⟩
  intro field member
  exact (has field member).kept grows

theorem laysOut_sum {table : TypeTable} (closed : table.Closed)
    (declaration : Declaration) :
    LaysOut table (readSum declaration) fun later layout =>
      (later.Has layout.type ∧ ∀ variant ∈ layout.variants,
        ∀ field ∈ variant.fields, later.Has field) ∧
      later.IsTagged layout.type := by
  unfold readSum
  apply (reads_variants closed _ _).laysOut.bind
  intro table variants closed _ has
  apply Attempts.get_bind
  apply (TypeTable.yields_atomic closed rfl).laysOut.bind
  intro later tag laterClosed grows tagFound
  apply (TypeTable.yields_atomic laterClosed rfl).laysOut.bind
  intro later byte laterClosed byteGrows byteFound
  apply (TypeTable.yields_array laterClosed byteFound.1 _).laysOut.bind
  intro later payload laterClosed payloadGrows payloadFound
  have tagHas := tagFound.1.kept (byteGrows.trans payloadGrows)
  have types : ∀ type ∈ [tag, payload], later.Has type := by
    simpa using ⟨tagHas, payloadFound.1⟩
  apply (laysOut_complete laterClosed _ types).bind
  intro last type lastClosed lastGrows completed
  have tagKind := tagFound.1.kind_kept
    ((byteGrows.trans payloadGrows).trans lastGrows)
  have byteKind := byteFound.1.kind_kept (payloadGrows.trans lastGrows)
  have payloadKind := payloadFound.1.kind_kept lastGrows
  refine Attempts.pure lastClosed ⟨⟨completed.1, ?_⟩, tag, payload, byte, _,
    completed.2, tagKind.trans tagFound.2, payloadKind.trans payloadFound.2,
    byteKind.trans byteFound.2⟩
  intro variant member field fieldMember
  exact (has variant member field fieldMember).kept
    (((grows.trans byteGrows).trans payloadGrows).trans lastGrows)

theorem laysOut_union {table : TypeTable} (closed : table.Closed)
    (declaration : Declaration) :
    LaysOut table (readUnion declaration) fun later layout =>
      later.Has layout.type ∧
        ∀ field ∈ layout.fields, later.Has field.type := by
  unfold readUnion
  apply (reads_fields closed _ _).laysOut.bind
  intro table fields closed _ has
  apply Attempts.get_bind
  apply (TypeTable.yields_atomic closed rfl).laysOut.bind
  intro later byte laterClosed grows byteFound
  apply (TypeTable.yields_array laterClosed byteFound.1 _).laysOut.bind
  intro later payload laterClosed payloadGrows payloadFound
  have types : ∀ type ∈ [payload], later.Has type := by
    simpa using payloadFound.1
  apply (laysOut_complete laterClosed _ types).bind
  intro last type lastClosed lastGrows completed
  refine Attempts.pure lastClosed ⟨completed.1, ?_⟩
  intro field member
  exact (has field member).kept ((grows.trans payloadGrows).trans lastGrows)

/-- The table of a layout state is closed and knows its layouts. -/
structure LayoutState.Known (table : TypeTable) (state : LayoutState) :
    Prop where
  closed : state.table.Closed
  holds : table.Holds state.table
  layouts : state.layouts.Known state.table

namespace LayoutState.Known

variable {table : TypeTable} {state : LayoutState}

/-- Entering a layout, or its problem, whatever kind of layout it is. -/
theorem enter {Layout : Type} (known : state.Known table)
    (declaration : Declaration) {reader : TypeReader Layout}
    {add : Layouts → Layout → Layouts} {good : TypeTable → Layout → Prop}
    (laysOut : LaysOut state.table reader good)
    (added : ∀ later layout, state.layouts.Known later → good later layout →
      (add state.layouts layout).Known later) :
    (state.enter declaration reader add).Known table := by
  obtain ⟨closed, holds, good⟩ := laysOut
  unfold LayoutState.enter
  rcases outcome : reader.run state.table with ⟨result, after⟩
  rw [outcome] at closed holds good
  have kept := known.layouts.kept holds
  cases result with
  | ok layout =>
      exact ⟨closed, known.holds.trans holds,
        added after layout kept (good layout rfl)⟩
  | error cause => exact ⟨closed, known.holds.trans holds, kept⟩

theorem enterStruct (known : state.Known table) (declaration : Declaration) :
    (state.enterStruct declaration).Known table := by
  unfold LayoutState.enterStruct
  split
  · apply known.enter declaration (laysOut_struct known.closed declaration)
    intro later layout old new
    refine ⟨?_, old.sums, old.unions⟩
    intro name other found
    rw [NameMap.find?_insert] at found
    split at found
    · cases found
      exact new
    · exact old.structs name other found
  · exact known
  · exact known

theorem enterTagged (known : state.Known table) (declaration : Declaration) :
    (state.enterTagged declaration).Known table := by
  unfold LayoutState.enterTagged
  split
  · exact known
  · apply known.enter declaration (laysOut_sum known.closed declaration)
    intro later layout old new
    refine ⟨old.structs, ?_, old.unions⟩
    intro name other found
    rw [NameMap.find?_insert] at found
    split at found
    · cases found
      exact new.1
    · exact old.sums name other found
  · apply known.enter declaration (laysOut_union known.closed declaration)
    intro later layout old new
    refine ⟨old.structs, old.sums, ?_⟩
    intro name other found
    rw [NameMap.find?_insert] at found
    split at found
    · cases found
      exact new
    · exact old.unions name other found

end LayoutState.Known

theorem yields_declareNames {table : TypeTable} (closed : table.Closed)
    (declarations : List Declaration) :
    TypeTable.Yields table (declareNames declarations) fun _ _ => True := by
  unfold declareNames
  induction declarations generalizing table with
  | nil => exact Preserves.pure closed trivial
  | cons declaration declarations ih =>
      rw [List.forM_eq_forM, List.forM_cons]
      have first : TypeTable.Yields table
          (do
            let _ ← TypeTable.named (structTypeName declaration.name))
          fun _ _ => True := by
        apply (TypeTable.yields_atomic closed rfl).bind
        intro table _ closed _ _
        exact Preserves.pure closed trivial
      apply first.bind
      intro later _ laterClosed _ _
      exact ih laterClosed

/-- Laying out a module leaves a closed table that knows its layouts. -/
theorem layOut_known {table : TypeTable} (closed : table.Closed)
    (forms : List Form) : (layOut forms table).Known table := by
  have fold (step : LayoutState → Declaration → LayoutState)
      (keeps : ∀ state declaration, state.Known table →
        (step state declaration).Known table)
      (declarations : List Declaration) (state : LayoutState)
      (known : state.Known table) :
      (declarations.foldl step state).Known table := by
    induction declarations generalizing state with
    | nil => exact known
    | cons declaration declarations ih =>
        exact ih _ (keeps state declaration known)
  unfold layOut
  simp only
  have names := yields_declareNames closed
  apply fold _ fun _ declaration known => known.enterTagged declaration
  apply fold _ fun _ declaration known => known.enterStruct declaration
  exact ⟨(names _).holds, (names _).follows.holds,
    ⟨by simp [NameMap.find?], by simp [NameMap.find?],
      by simp [NameMap.find?]⟩⟩

end FormCompiler
