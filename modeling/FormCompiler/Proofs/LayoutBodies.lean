import FormCompiler.Proofs.SettledTypes
import FormCompiler.Proofs.TypeHistories

/-!
# Layouts and bodies

A declaration that is read gives its struct a body, and a declaration that
fails leaves all bodies alone.  Structs are read first; so the body of a
struct is the list of the types of its fields, the body of a sum is a tag with
a payload of bytes, and the body of a union is a payload of bytes, unless a
name is declared as different kinds of aggregates.

There is one struct for each name.  Where a name is shared, the sum or the
union that was read last has given the struct its body, and the layouts that
were read before it stay as they were.
-/

namespace FormCompiler

open Ir

namespace TypeTable

variable {table later last : TypeTable} {type : TypeId} {name other : String}

/-- The struct of a union: a payload of bytes. -/
def IsPayload (table : TypeTable) (type : TypeId) : Prop :=
  ∃ payload byte size, table.fields? type = some [payload] ∧
    table.kind payload = .array byte size ∧ table.kind byte = .int 8

/-- The struct that declarations of a name give a body to. -/
def Names (table : TypeTable) (name : String) (type : TypeId) : Prop :=
  table.named? (structTypeName name) = some type

theorem Names.kept (names : table.Names name type)
    (holds : table.Holds later) : later.Names name type :=
  holds.find?_eq names

theorem Names.kind (names : table.Names name type) :
    table.kind type = .named (structTypeName name) :=
  (has_of_find? names).2

theorem structTypeName_inj (same : structTypeName name = structTypeName other) :
    name = other :=
  String.append_right_inj _ |>.mp same

theorem kind_kept {kind : TypeKind} (holds : table.Holds later)
    (notVoid : kind ≠ .void) (found : table.kind type = kind) :
    later.kind type = kind := by
  have has : table.Has type := has_of_kind fun void => notVoid (found ▸ void)
  rw [has.kind_kept holds, found]

theorem has_of_fields? {fields : List TypeId}
    (found : table.fields? type = some fields) : table.Has type := by
  refine has_of_kind fun void => ?_
  rw [TypeTable.fields?, void] at found
  cases found

/-- A tag with a payload stays one as long as its fields do. -/
theorem IsTagged.kept (tagged : table.IsTagged type)
    (holds : table.Holds later)
    (fields : ∀ fields, table.fields? type = some fields →
      later.fields? type = some fields) : later.IsTagged type := by
  obtain ⟨tag, payload, byte, size, found, isTag, isPayload, isByte⟩ := tagged
  exact ⟨tag, payload, byte, size, fields _ found,
    kind_kept holds (by simp) isTag, kind_kept holds (by simp) isPayload,
    kind_kept holds (by simp) isByte⟩

theorem IsPayload.kept (bytes : table.IsPayload type)
    (holds : table.Holds later)
    (fields : ∀ fields, table.fields? type = some fields →
      later.fields? type = some fields) : later.IsPayload type := by
  obtain ⟨payload, byte, size, found, isPayload, isByte⟩ := bytes
  exact ⟨payload, byte, size, fields _ found,
    kind_kept holds (by simp) isPayload, kind_kept holds (by simp) isByte⟩

/-- Types stay where they are, and all but the struct of a name keep their
fields. -/
structure Spares (name : String) (table later : TypeTable) : Prop where
  holds : table.Holds later
  fields : ∀ type fields, table.kind type ≠ .named (structTypeName name) →
    table.fields? type = some fields → later.fields? type = some fields

theorem Grows.spares (grows : table.Grows later) : table.Spares name later :=
  ⟨grows.holds, fun _ _ _ => grows.fields?⟩

theorem Spares.after (grows : table.Grows later)
    (spares : later.Spares name last) : table.Spares name last := by
  refine ⟨grows.holds.trans spares.holds, fun type fields apart found => ?_⟩
  refine spares.fields type fields ?_ (grows.fields? found)
  rwa [(has_of_fields? found).kind_eq grows]

/-- A body is given to the struct of the name, and to no other type. -/
theorem spares_complete (name : String) (body : List TypeId)
    (table : TypeTable) :
    let completed := complete name body table
    table.Spares name completed.2 ∧ completed.2.Names name completed.1 ∧
      completed.2.fields? completed.1 = some body := by
  let named := TypeTable.named (structTypeName name) table
  have grows : table.Extends named.2 := extends_intern table _
  have isNamed : named.2.kind named.1 = .named (structTypeName name) :=
    (has_of_find? (find?_intern table _)).2
  refine ⟨⟨grows.holds, fun type fields apart found => ?_⟩,
    find?_intern table _, fields?_setBody isNamed body⟩
  have has := has_of_fields? found
  by_contra changed
  have same : named.2.fields? type = some fields :=
    (grows.fields?_eq has).trans found
  have isType := (eq_of_fields?_setBody_ne
    (same.symm ▸ changed : (setBody named.1 body named.2).2.fields? type ≠
      named.2.fields? type)).1
  rw [← has.kind_kept grows.holds, isType] at apart
  exact apart isNamed

end TypeTable

/-! ## Reading declarations -/

/-- A reader that fails gives no type another body.  One that does not fail
gives a body to the struct of the name only, and a good layout. -/
structure Completes {Layout : Type} (name : String) (table : TypeTable)
    (reader : TypeReader Layout) (good : TypeTable → Layout → Prop) :
    Prop where
  fails : ∀ cause, (reader.run table).1 = .error cause →
    table.Grows (reader.run table).2
  ends : ∀ layout, (reader.run table).1 = .ok layout →
    table.Spares name (reader.run table).2 ∧ good (reader.run table).2 layout

namespace Completes

variable {Part Layout : Type} {name : String} {table : TypeTable}
  {good : TypeTable → Layout → Prop}

/-- Parts are read first. -/
theorem after {part : TypeReader Part} {isPart : TypeTable → Part → Prop}
    {next : Part → TypeReader Layout} (reads : Reads table part isPart)
    (rest : ∀ later part, later.Closed → table.Grows later →
      isPart later part → Completes name later (next part) good) :
    Completes name table (part >>= next) good := by
  obtain ⟨closed, grows, isGood⟩ := reads
  have run : (part >>= next).run table = match part.run table with
      | (.ok found, later) => (next found).run later
      | (.error cause, later) => (.error cause, later) := by
    rw [ExceptT.run_bind, stateM_bind_apply]
    rcases part.run table with ⟨outcome, later⟩
    cases outcome <;> rfl
  rcases outcome : part.run table with ⟨result, later⟩
  rw [outcome] at closed grows isGood run
  cases result with
  | error cause =>
      refine ⟨fun _ _ => run ▸ grows, fun layout isLayout => ?_⟩
      rw [run] at isLayout
      cases isLayout
  | ok found =>
      obtain ⟨fails, ends⟩ := rest later found closed grows (isGood found rfl)
      constructor <;> rw [run]
      · exact fun cause isCause => grows.trans (fails cause isCause)
      · exact fun layout isLayout =>
          ⟨.after grows (ends layout isLayout).1, (ends layout isLayout).2⟩

theorem look {next : TypeTable → TypeReader Layout}
    (rest : Completes name table (next table) good) :
    Completes name table (get >>= next) good :=
  ⟨rest.fails, rest.ends⟩

theorem complete {body : List TypeId} {make : TypeId → Layout}
    (isGood : ∀ later type, table.Holds later → later.Names name type →
      later.fields? type = some body → good later (make type)) :
    Completes name table
      (do return make (← FormCompiler.complete name body)) good := by
  obtain ⟨spares, names, fields⟩ :=
    TypeTable.spares_complete name body table
  refine ⟨nofun, fun layout isLayout => ⟨spares, ?_⟩⟩
  cases isLayout
  exact isGood _ _ spares.holds names fields

end Completes

theorem completes_struct {table : TypeTable} (closed : table.Closed)
    (declaration : Declaration) :
    Completes declaration.name table (readStruct declaration)
      fun later layout => later.Names declaration.name layout.type ∧
        later.fields? layout.type = some (layout.fields.map Field.type) := by
  refine .after (reads_fields closed _ _) fun later fields _ _ _ => ?_
  exact .complete fun last type _ names found => ⟨names, found⟩

theorem completes_sum {table : TypeTable} (closed : table.Closed)
    (declaration : Declaration) :
    Completes declaration.name table (readSum declaration)
      fun later layout => later.Names declaration.name layout.type ∧
        later.IsTagged layout.type := by
  refine .after (reads_variants closed _ _) fun table variants closed _ _ => ?_
  refine .look (.after (Attempts.lift (TypeTable.yields_atomic closed rfl))
    fun table tag closed _ isTag => ?_)
  refine .after (Attempts.lift (TypeTable.yields_atomic closed rfl))
    fun later byte closed grows isByte => ?_
  refine .after (Attempts.lift (TypeTable.yields_array closed isByte.1 _))
    fun last payload closed more isPayload => ?_
  refine .complete fun final type holds names fields => ⟨names, ?_⟩
  have fromByte := more.holds.trans holds
  exact ⟨tag, payload, byte, _, fields,
    (isTag.1.kind_kept (grows.holds.trans fromByte)).trans isTag.2,
    (isPayload.1.kind_kept holds).trans isPayload.2,
    (isByte.1.kind_kept fromByte).trans isByte.2⟩

theorem completes_union {table : TypeTable} (closed : table.Closed)
    (declaration : Declaration) :
    Completes declaration.name table (readUnion declaration)
      fun later layout => later.Names declaration.name layout.type ∧
        later.IsPayload layout.type := by
  refine .after (reads_fields closed _ _) fun table fields closed _ _ => ?_
  refine .look (.after (Attempts.lift (TypeTable.yields_atomic closed rfl))
    fun later byte closed _ isByte => ?_)
  refine .after (Attempts.lift (TypeTable.yields_array closed isByte.1 _))
    fun last payload closed more isPayload => ?_
  refine .complete fun final type holds names fields => ⟨names, ?_⟩
  exact ⟨payload, byte, _, fields,
    (isPayload.1.kind_kept holds).trans isPayload.2,
    (isByte.1.kind_kept (more.holds.trans holds)).trans isByte.2⟩

/-! ## Entering layouts -/

namespace Layouts

variable {table later : TypeTable} {layouts more : Layouts} {name : String}
  {type : TypeId}

/-- The struct of a name has the body of a sum or of a union that was entered
under the name. -/
def Retypes (layouts : Layouts) (table : TypeTable) (name : String)
    (type : TypeId) : Prop :=
  (layouts.sums.find? name).isSome ∧ table.IsTagged type ∨
    (layouts.unions.find? name).isSome ∧ table.IsPayload type

/-- The layouts of a name are about its struct.  Each has the body that the
layout says, unless one of another kind has replaced it. -/
structure AgreeAt (layouts : Layouts) (table : TypeTable) (name : String) :
    Prop where
  structs : ∀ layout, layouts.structs.find? name = some layout →
    table.Names name layout.type ∧
      (table.fields? layout.type = some (layout.fields.map Field.type) ∨
        layouts.Retypes table name layout.type)
  sums : ∀ layout, layouts.sums.find? name = some layout →
    table.Names name layout.type ∧ layouts.Retypes table name layout.type
  unions : ∀ layout, layouts.unions.find? name = some layout →
    table.Names name layout.type ∧ layouts.Retypes table name layout.type

/-- Layouts that stay the same agree as long as their struct has its
fields. -/
theorem AgreeAt.kept (agree : layouts.AgreeAt table name)
    (structs : more.structs.find? name = layouts.structs.find? name)
    (sums : more.sums.find? name = layouts.sums.find? name)
    (unions : more.unions.find? name = layouts.unions.find? name)
    (holds : table.Holds later)
    (fields : ∀ type fields, table.Names name type →
      table.fields? type = some fields → later.fields? type = some fields) :
    more.AgreeAt later name := by
  have retypes (type : TypeId) (names : table.Names name type)
      (before : layouts.Retypes table name type) :
      more.Retypes later name type := by
    have kept (body : List TypeId) := fields type body names
    unfold Retypes at before ⊢
    rw [sums, unions]
    exact before.imp (fun tagged => ⟨tagged.1, tagged.2.kept holds kept⟩)
      fun bytes => ⟨bytes.1, bytes.2.kept holds kept⟩
  refine ⟨fun layout found => ?_, fun layout found => ?_,
    fun layout found => ?_⟩
  · obtain ⟨names, body⟩ := agree.structs layout (structs ▸ found)
    exact ⟨names.kept holds, body.imp (fields _ _ names) (retypes _ names)⟩
  · obtain ⟨names, body⟩ := agree.sums layout (sums ▸ found)
    exact ⟨names.kept holds, retypes _ names body⟩
  · obtain ⟨names, body⟩ := agree.unions layout (unions ▸ found)
    exact ⟨names.kept holds, retypes _ names body⟩

/-- All layouts of a name share the struct that has got a body. -/
theorem AgreeAt.retyped (agree : layouts.AgreeAt table name)
    (holds : table.Holds later) (structs : more.structs = layouts.structs)
    (sums : ∀ layout, more.sums.find? name = some layout →
      layouts.sums.find? name = some layout ∨ layout.type = type)
    (unions : ∀ layout, more.unions.find? name = some layout →
      layouts.unions.find? name = some layout ∨ layout.type = type)
    (names : later.Names name type)
    (retypes : more.Retypes later name type) : more.AgreeAt later name := by
  have shared {other : TypeId} (otherNames : later.Names name other) :
      later.Names name other ∧ more.Retypes later name other :=
    ⟨otherNames, Option.some.inj (names.symm.trans otherNames) ▸ retypes⟩
  refine ⟨fun layout found => ?_, fun layout found => ?_,
    fun layout found => ?_⟩
  · have old := (agree.structs layout (structs ▸ found)).1
    exact ⟨old.kept holds, .inr (shared (old.kept holds)).2⟩
  · rcases sums layout found with old | same
    · exact shared ((agree.sums layout old).1.kept holds)
    · exact shared (same ▸ names)
  · rcases unions layout found with old | same
    · exact shared ((agree.unions layout old).1.kept holds)
    · exact shared (same ▸ names)

end Layouts

namespace LayoutState

variable {state : LayoutState} {declaration : Declaration}

/-- The layouts of all names agree with the table. -/
def Agrees (state : LayoutState) : Prop :=
  ∀ name, state.layouts.AgreeAt state.table name

/-- Entering a declaration that cannot be read changes no layout, and other
names are not touched by one that can. -/
theorem Agrees.enter {Layout : Type} (agrees : state.Agrees)
    {reader : TypeReader Layout} {add : Layouts → Layout → Layouts}
    {good : TypeTable → Layout → Prop}
    (completes : Completes declaration.name state.table reader good)
    (elsewhere : ∀ layout name, name ≠ declaration.name →
      (add state.layouts layout).structs.find? name =
          state.layouts.structs.find? name ∧
        (add state.layouts layout).sums.find? name =
          state.layouts.sums.find? name ∧
        (add state.layouts layout).unions.find? name =
          state.layouts.unions.find? name)
    (here : ∀ later layout, state.table.Holds later → good later layout →
      (add state.layouts layout).AgreeAt later declaration.name) :
    (state.enter declaration reader add).Agrees := by
  obtain ⟨fails, ends⟩ := completes
  unfold LayoutState.enter
  rcases outcome : reader.run state.table with ⟨result, later⟩
  rw [outcome] at fails ends
  cases result with
  | error cause =>
      have grows := fails cause rfl
      exact fun name => (agrees name).kept rfl rfl rfl grows.holds
        fun _ _ _ => grows.fields?
  | ok layout =>
      obtain ⟨spares, isGood⟩ := ends layout rfl
      intro name
      by_cases same : name = declaration.name
      · exact same ▸ here later layout spares.holds isGood
      · obtain ⟨structs, sums, unions⟩ := elsewhere layout name same
        refine (agrees name).kept structs sums unions spares.holds
          fun type fields names => spares.fields type fields ?_
        rw [names.kind]
        exact fun alike => same
          (TypeTable.structTypeName_inj (TypeKind.named.inj alike))

/-- Structs are entered while there are no sums and unions. -/
theorem Agrees.enterStruct (agrees : state.Agrees)
    (closed : state.table.Closed) (sums : state.layouts.sums = {})
    (unions : state.layouts.unions = {}) (declaration : Declaration) :
    (state.enterStruct declaration).Agrees := by
  unfold LayoutState.enterStruct
  split
  · refine agrees.enter (completes_struct closed declaration)
      (fun layout name apart => ?_) fun later layout _ body => ?_
    · refine ⟨?_, rfl, rfl⟩
      rw [NameMap.find?_insert, if_neg apart]
    · refine ⟨fun other found => ?_, ?_, ?_⟩
      · rw [NameMap.find?_insert, if_pos rfl] at found
        cases found
        exact ⟨body.1, .inl body.2⟩
      · rw [sums]
        nofun
      · rw [unions]
        nofun
  · exact agrees
  · exact agrees

theorem Agrees.enterTagged (agrees : state.Agrees)
    (closed : state.table.Closed) (declaration : Declaration) :
    (state.enterTagged declaration).Agrees := by
  unfold LayoutState.enterTagged
  split
  · exact agrees
  · refine agrees.enter (completes_sum closed declaration)
      (fun layout name apart => ?_) fun later layout holds body => ?_
    · refine ⟨rfl, ?_, rfl⟩
      rw [NameMap.find?_insert, if_neg apart]
    · refine (agrees declaration.name).retyped holds rfl (fun other found => ?_)
        (fun _ => .inl) body.1 (.inl ⟨?_, body.2⟩)
      · rw [NameMap.find?_insert, if_pos rfl] at found
        cases found
        exact .inr rfl
      · rw [NameMap.find?_insert, if_pos rfl, Option.isSome_some]
  · refine agrees.enter (completes_union closed declaration)
      (fun layout name apart => ?_) fun later layout holds body => ?_
    · refine ⟨rfl, rfl, ?_⟩
      rw [NameMap.find?_insert, if_neg apart]
    · refine (agrees declaration.name).retyped holds rfl (fun _ => .inl)
        (fun other found => ?_) body.1 (.inr ⟨?_, body.2⟩)
      · rw [NameMap.find?_insert, if_pos rfl] at found
        cases found
        exact .inr rfl
      · rw [NameMap.find?_insert, if_pos rfl, Option.isSome_some]

/-- Entering structs leaves the other layouts alone. -/
theorem enterStruct_layouts (state : LayoutState) (declaration : Declaration) :
    (state.enterStruct declaration).layouts.sums = state.layouts.sums ∧
      (state.enterStruct declaration).layouts.unions =
        state.layouts.unions := by
  unfold enterStruct enter
  split
  · rcases (readStruct declaration).run state.table with ⟨result, later⟩
    cases result <;> exact ⟨rfl, rfl⟩
  · exact ⟨rfl, rfl⟩
  · exact ⟨rfl, rfl⟩

end LayoutState

/-- All layouts of a module agree with the table they leave. -/
theorem agrees_layOut {table : TypeTable} (closed : table.Closed)
    (forms : List Form) : (layOut forms table).Agrees := by
  unfold layOut
  extract_lets found declarations problems
  obtain ⟨namedClosed, grows, -⟩ := yields_declareNames closed declarations
  let start : LayoutState :=
    { table := (declareNames declarations table).2, problems }
  have structs := List.foldlRecOn declarations LayoutState.enterStruct
    (motive := fun state : LayoutState => state.Known table ∧ state.Agrees ∧
      state.layouts.sums = {} ∧ state.layouts.unions = {})
    (b := start) ⟨⟨namedClosed, grows.holds, ⟨nofun, nofun, nofun⟩⟩,
      fun _ => ⟨nofun, nofun, nofun⟩, rfl, rfl⟩ ?_
  · refine (List.foldlRecOn declarations LayoutState.enterTagged
      (motive := fun state : LayoutState => state.Known table ∧ state.Agrees)
      ⟨structs.1, structs.2.1⟩ ?_).2
    rintro state ⟨known, agrees⟩ declaration -
    exact ⟨known.enterTagged declaration,
      agrees.enterTagged known.closed declaration⟩
  · rintro state ⟨known, agrees, sums, unions⟩ declaration -
    have same := state.enterStruct_layouts declaration
    exact ⟨known.enterStruct declaration,
      agrees.enterStruct known.closed sums unions declaration,
      same.1.trans sums, same.2.trans unions⟩

/-- After laying out any forms, all layouts of a name are about one struct,
which stands in the table under the name.  The struct of a struct layout has
the fields of the layout, the struct of a sum a tag of 32 bits and a payload
of bytes, and the struct of a union a payload of bytes, unless the name is
also that of a sum or a union of the other kind, which has given the struct
its own body. -/
theorem layOut_bodies {table : TypeTable} (closed : table.Closed)
    (forms : List Form) :
    let laidOut := layOut forms table
    (∀ name layout, laidOut.layouts.structs.find? name = some layout →
      laidOut.table.Names name layout.type ∧
        (laidOut.table.fields? layout.type =
            some (layout.fields.map Field.type) ∨
          laidOut.layouts.Retypes laidOut.table name layout.type)) ∧
    (∀ name layout, laidOut.layouts.sums.find? name = some layout →
      laidOut.table.Names name layout.type ∧
        (laidOut.table.IsTagged layout.type ∨
          (laidOut.layouts.unions.find? name).isSome ∧
            laidOut.table.IsPayload layout.type)) ∧
    (∀ name layout, laidOut.layouts.unions.find? name = some layout →
      laidOut.table.Names name layout.type ∧
        (laidOut.table.IsPayload layout.type ∨
          (laidOut.layouts.sums.find? name).isSome ∧
            laidOut.table.IsTagged layout.type)) := by
  have agrees := agrees_layOut closed forms
  refine ⟨fun name => (agrees name).structs, fun name layout found => ?_,
    fun name layout found => ?_⟩
  · obtain ⟨names, body⟩ := (agrees name).sums layout found
    exact ⟨names, body.imp And.right id⟩
  · obtain ⟨names, body⟩ := (agrees name).unions layout found
    exact ⟨names, body.symm.imp And.right id⟩

/-- A struct of one word, under a name. -/
def wordStruct (name : String) : Form :=
  Form.keywordCall "struct" [("name", Form.symbol name),
    ("fields", Form.vector [Form.keywordCall "field"
      [("name", Form.symbol "x"), ("type", Form.symbol "i64")]])]

/-- A sum without variants. -/
def emptySum (name : String) : Form :=
  Form.keywordCall "sum" [("name", Form.symbol name),
    ("variants", Form.vector [])]

theorem layOut_bodies_wordStruct :
    TypeTable.empty.Closed ∧
    let laidOut := layOut [emptySum "T", wordStruct "S"] .empty
    ∃ layout, laidOut.layouts.structs.find? "S" = some layout ∧
      laidOut.table.fields? layout.type = some [⟨2⟩] ∧
      laidOut.table.kind ⟨2⟩ = .int 64 := by
  have found : ∃ layout, (layOut [emptySum "T", wordStruct "S"]
      .empty).layouts.structs.find? "S" = some layout ∧
        layout.fields.map Field.type = [⟨2⟩] := ⟨_, rfl, by decide +kernel⟩
  obtain ⟨layout, found, fields⟩ := found
  have sums : (layOut [emptySum "T", wordStruct "S"]
      .empty).layouts.sums.find? "S" = none := by rfl
  have unions : (layOut [emptySum "T", wordStruct "S"]
      .empty).layouts.unions.find? "S" = none := by rfl
  have body := ((layOut_bodies TypeTable.closed_empty
    [emptySum "T", wordStruct "S"]).1 "S" layout found).2
  rw [Layouts.Retypes, sums, unions, fields] at body
  exact ⟨TypeTable.closed_empty, layout, found, by simpa using body,
    by decide +kernel⟩

/-- The sum gives the struct its own body, a tag and a byte, and the layout of
the struct still says that it holds a word. -/
theorem sharedName_replaces_body :
    let laidOut := layOut [wordStruct "S", emptySum "S"] .empty
    laidOut.problems.isEmpty = true ∧
    ((laidOut.layouts.structs.find? "S").map fun layout =>
      (layout.fields.map fun field => laidOut.table.kind field.type,
        (laidOut.table.fields? layout.type).map fun fields =>
          fields.map laidOut.table.kind)) =
      some ([.int 64], some [.int 32, .array ⟨3⟩ 1]) ∧
    laidOut.table.kind ⟨3⟩ = .int 8 := by
  decide +kernel

end FormCompiler
