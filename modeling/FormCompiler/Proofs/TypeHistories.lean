import Mathlib.Data.List.Nodup
import FormCompiler.Proofs.TypeSpellings

/-!
# Histories of type tables

A table is used by calls, each on types that the table holds by then: for the
type of some kind, for the pointer to bytes, or to give a body to a struct.
Whatever calls there were, the answers stay good: a type keeps its kind, two
types are equal where their kinds are, and a kind is made of earlier types.
The named structs of a table are the ones that were asked for, each once, in
the order in which they were asked for first.  A body changes the fields of
its struct only.
-/

namespace FormCompiler

namespace TypeTable

/-- What a type table is asked to do. -/
inductive Call where
  | make (kind : TypeKind)
  | makeBytePointer
  | complete (type : TypeId) (fields : List TypeId)
deriving DecidableEq, Repr

namespace Call

/-- The types that a call mentions. -/
def uses : Call → List TypeId
  | .make kind => kind.parts
  | .makeBytePointer => []
  | .complete type fields => type :: fields

/-- The type that a call is answered with, if it is one for a type. -/
def run : Call → StateM TypeTable (Option TypeId)
  | .make kind => some <$> intern kind
  | .makeBytePointer => some <$> bytePointer
  | .complete type fields => do
      setBody type fields
      return none

/-- What the answer to a call stands for in a table. -/
def Answered (table : TypeTable) (answer : Option TypeId) : Call → Prop
  | .make kind => ∃ type, answer = some type ∧ table.Has type ∧
      table.kind type = kind
  | .makeBytePointer => ∃ type byte, answer = some type ∧ table.Has type ∧
      table.kind type = .pointer byte ∧ table.Has byte ∧
      table.kind byte = .int 8
  | .complete _ _ => answer = none

end Call

/-- The calls that lead from a table to a later one, with their answers.  A
call mentions only types that the table holds. -/
inductive Run (table : TypeTable) :
    List (Call × Option TypeId) → TypeTable → Prop where
  | done : Run table [] table
  | call {past : List (Call × Option TypeId)} {middle : TypeTable}
      (call : Call) (before : Run table past middle)
      (known : ∀ type ∈ call.uses, middle.Has type) :
      Run table (past ++ [(call, (call.run middle).1)]) (call.run middle).2

variable {table later : TypeTable} {type : TypeId} {call : Call}
  {answer : Option TypeId} {past more : List (Call × Option TypeId)}

/-! ## Answers -/

theorem Call.Answered.kept (answered : call.Answered table answer)
    (holds : table.Holds later) : call.Answered later answer := by
  cases call with
  | make kind =>
      obtain ⟨type, isAnswer, has, isKind⟩ := answered
      exact ⟨type, isAnswer, has.kept holds,
        (has.kind_kept holds).trans isKind⟩
  | makeBytePointer =>
      obtain ⟨type, byte, isAnswer, has, isKind, hasByte, isByte⟩ := answered
      exact ⟨type, byte, isAnswer, has.kept holds,
        (has.kind_kept holds).trans isKind, hasByte.kept holds,
        (hasByte.kind_kept holds).trans isByte⟩
  | complete type fields => exact answered

/-- A call is answered, and every type stays where it is. -/
theorem Call.run_answered (closed : table.Closed)
    (known : ∀ type ∈ call.uses, table.Has type) :
    Preserves Closed Holds table call.run fun later answer =>
      call.Answered later answer := by
  cases call with
  | make kind =>
      obtain ⟨laterClosed, grows, has, isKind⟩ := yields_intern closed known
      exact ⟨laterClosed, grows.holds, _, rfl, has, isKind⟩
  | makeBytePointer =>
      obtain ⟨laterClosed, grows, byte, has, isKind, isByte⟩ :=
        yields_bytes closed
      have notVoid : table.bytePointer.2.kind byte ≠ .void := by
        rw [isByte]
        nofun
      exact ⟨laterClosed, grows.holds, _, byte, rfl, has, isKind,
        has_of_kind notVoid, isByte⟩
  | complete type fields =>
      have has := (List.forall_mem_cons.mp known).2
      exact ⟨closed.setBody type has, .refl table, rfl⟩

theorem Call.run_layered (closed : table.Closed) (layered : table.Layered)
    (known : ∀ type ∈ call.uses, table.Has type) :
    (call.run table).2.Layered := by
  cases call with
  | make kind => exact layered.intern known
  | makeBytePointer =>
      have hasByte : ((intern (.int 8) table).2).Has
          (intern (.int 8) table).1 := (yields_atomic closed rfl).good.1
      have withByte : ((intern (.int 8) table).2).Layered :=
        layered.intern nofun
      exact withByte.intern fun part member =>
        List.mem_singleton.mp member ▸ hasByte
  | complete type fields => exact ⟨layered.once, layered.below⟩

theorem closed_empty : empty.Closed := ⟨nofun, nofun⟩

theorem layered_empty : empty.Layered :=
  ⟨.nil, fun _ has => absurd has (Nat.not_lt_zero _)⟩

theorem Run.sound (run : Run table past later) (closed : table.Closed)
    (layered : table.Layered) :
    later.Closed ∧ later.Layered ∧ table.Holds later ∧
      ∀ entry ∈ past, entry.1.Answered later entry.2 := by
  induction run with
  | done => exact ⟨closed, layered, .refl table, List.forall_mem_nil _⟩
  | call call _ known ih =>
      obtain ⟨closed, layered, holds, answered⟩ := ih
      have step := call.run_answered closed known
      refine ⟨step.holds, call.run_layered closed layered known,
        holds.trans step.follows, ?_⟩
      rw [List.forall_mem_append, List.forall_mem_singleton]
      exact ⟨fun entry member => (answered entry member).kept step.follows,
        step.good⟩

/-! ## Named structs -/

theorem mem_namedStructs :
    type ∈ table.namedStructs ↔
      table.Has type ∧ ∃ name, table.kind type = .named name := by
  rw [namedStructs, List.mem_filter]
  refine and_congr ?_ ?_
  · constructor
    · rintro member
      obtain ⟨index, inside, rfl⟩ := List.mem_map.mp member
      exact List.mem_range.mp inside
    · exact fun has => List.mem_map.mpr ⟨type.index, List.mem_range.mpr has, rfl⟩
  · split
    · next name found => simp [found]
    · next other => simpa using fun name found => other name found

theorem nodup_namedStructs (table : TypeTable) : table.namedStructs.Nodup :=
  (List.nodup_range.map fun _ _ => TypeId.mk.inj).filter _

/-- A new kind adds a named struct if it is one. -/
theorem namedStructs_append (kinds : List TypeKind) (kind : TypeKind)
    (bodies : List (TypeId × List TypeId)) :
    namedStructs ⟨kinds ++ [kind], bodies⟩ = namedStructs ⟨kinds, bodies⟩ ++
      match kind with
      | .named _ => [⟨kinds.length⟩]
      | _ => [] := by
  have old (index : Nat) (inside : index < kinds.length) :
      TypeTable.kind ⟨kinds ++ [kind], bodies⟩ ⟨index⟩ =
        TypeTable.kind ⟨kinds, bodies⟩ ⟨index⟩ := by
    rw [TypeTable.kind, TypeTable.kind, List.getElem?_append_left inside]
  have new : TypeTable.kind ⟨kinds ++ [kind], bodies⟩ ⟨kinds.length⟩ =
      kind := by
    simp [TypeTable.kind]
  unfold namedStructs
  rw [List.length_append, List.length_singleton, List.range_succ,
    List.map_append, List.filter_append]
  congr 1
  · refine List.filter_congr fun type member => ?_
    obtain ⟨index, inside, rfl⟩ := List.mem_map.mp member
    rw [old index (List.mem_range.mp inside)]
  · rw [List.map_singleton, List.filter_singleton, new]
    cases kind <;> rfl

/-- The named structs that calls were answered with. -/
def namedAnswers (past : List (Call × Option TypeId)) : List TypeId :=
  past.filterMap fun entry =>
    match entry.1 with
    | .make (.named _) => entry.2
    | _ => none

theorem namedAnswers_append (past more : List (Call × Option TypeId)) :
    namedAnswers (past ++ more) = namedAnswers past ++ namedAnswers more :=
  List.filterMap_append

theorem namedStructs_intern {kind : TypeKind}
    (unnamed : ∀ name, kind ≠ .named name) :
    (intern kind table).2.namedStructs = table.namedStructs := by
  unfold intern
  split
  · rfl
  · refine (namedStructs_append _ _ _).trans ?_
    cases kind with
    | named name => exact absurd rfl (unnamed name)
    | _ => exact List.append_nil _

theorem namedStructs_intern_named (name : String) :
    (intern (.named name) table).2.namedStructs =
      table.namedStructs ++
        if (intern (.named name) table).1 ∈ table.namedStructs then []
        else [(intern (.named name) table).1] := by
  unfold intern
  split
  · next type found =>
      obtain ⟨index, position, rfl⟩ := Option.map_eq_some_iff.mp found
      obtain ⟨inside, same, -⟩ := List.idxOf?_eq_some_iff.mp position
      have member : ⟨index⟩ ∈ table.namedStructs := by
        refine mem_namedStructs.mpr ⟨inside, name, ?_⟩
        rw [kind, List.getElem?_eq_getElem inside, Option.getD_some, same]
      rw [if_pos member, List.append_nil]
  · have new : ⟨table.kinds.length⟩ ∉ table.namedStructs :=
      fun old => Nat.lt_irrefl _ (mem_namedStructs.mp old).1
    rw [if_neg new]
    exact namedStructs_append _ _ _

/-- Named structs stand in the order in which they were asked for first. -/
theorem Run.namedStructs_eq (run : Run empty past table) :
    table.namedStructs = (namedAnswers past).eraseDups := by
  induction run with
  | done => rfl
  | @call past middle call _ _ ih =>
      rw [namedAnswers_append, List.eraseDups_append, ← ih]
      have same (unnamed : namedAnswers [(call, (call.run middle).1)] = [])
          (kept : (call.run middle).2.namedStructs = middle.namedStructs) :
          (call.run middle).2.namedStructs = middle.namedStructs ++
            ((namedAnswers [(call, (call.run middle).1)]).removeAll
              (namedAnswers past)).eraseDups := by
        simp [unnamed, kept]
      cases call with
      | make kind =>
          by_cases named : ∃ name, kind = .named name
          · obtain ⟨name, rfl⟩ := named
            have asked : (intern (.named name) middle).1 ∈
                middle.namedStructs ↔
                  (intern (.named name) middle).1 ∈ namedAnswers past := by
              rw [ih, List.mem_eraseDups]
            refine (namedStructs_intern_named name).trans ?_
            congr 1
            show _ = ([(intern (.named name) middle).1].removeAll _).eraseDups
            by_cases old : (intern (.named name) middle).1 ∈
                middle.namedStructs
            · simp [old, asked.mp old, List.removeAll]
            · simp [old, mt asked.mpr old, List.removeAll, List.eraseDups_cons]
          · have unnamed : ∀ name, kind ≠ .named name :=
              fun name isNamed => named ⟨name, isNamed⟩
            refine same ?_ (namedStructs_intern unnamed)
            cases kind with
            | named name => exact absurd rfl (unnamed name)
            | _ => rfl
      | makeBytePointer =>
          have byte := @namedStructs_intern middle (.int 8) (by simp)
          have pointer (type : TypeId) := @namedStructs_intern
            (intern (.int 8) middle).2 (.pointer type) (by simp)
          exact same rfl ((pointer _).trans byte)
      | complete type fields => exact same rfl rfl

/-! ## Bodies -/

/-- A body shows in the fields of its struct only. -/
theorem eq_of_fields?_setBody_ne {other : TypeId} {fields : List TypeId}
    (changed : (setBody type fields table).2.fields? other ≠
      table.fields? other) :
    other = type ∧ ∃ name, table.kind type = .named name := by
  have same : (setBody type fields table).2.kind other = table.kind other :=
    rfl
  unfold fields? at changed
  rw [same] at changed
  split at changed
  · exact absurd rfl changed
  · next name isNamed =>
      by_cases isType : other = type
      · exact ⟨isType, name, isType ▸ isNamed⟩
      · have apart : (other == type) = false := by simpa using isType
        simp [setBody, List.lookup_cons, apart] at changed
  · exact absurd rfl changed

/-- Two structs that point to each other, and the first one again. -/
def linkedCalls : List Call :=
  [.make (.named "list"), .makeBytePointer, .make (.named "node"),
    .make (.pointer ⟨3⟩), .complete ⟨0⟩ [⟨2⟩, ⟨4⟩], .make (.named "list")]

end TypeTable

end FormCompiler
