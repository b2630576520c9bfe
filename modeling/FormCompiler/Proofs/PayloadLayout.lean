import Mathlib
import FormCompiler.Proofs.MatchCoverage
import FormCompiler.Proofs.TypeTables

/-!
# Layouts of payloads

The fields of a variant lie back to back in the payload of a sum.  Where a
field lies depends on the sizes of the fields ahead of it.  The size of a type
stays the same while the type table grows, as long as every struct inside the
type has its body; a struct without one counts as empty until it gets it.

A sum that was read is a tag and a payload of bytes, and its variants have
different tags.
-/

namespace FormCompiler

namespace TypeTable

/-! ## Sizes that are settled -/

/-- Whether every struct inside a type has its body, seen through at most
`depth` levels of containment. -/
def settledWithin (table : TypeTable) : (depth : Nat) → TypeId → Bool
  | 0, _ => false
  | depth + 1, type =>
      match table.kind type with
      | .array element _ => table.settledWithin depth element
      | .struct _ | .named _ =>
          (table.fields? type).any fun fields =>
            fields.all (table.settledWithin depth)
      | _ => true

/-- Whether the size of a type is known for good. -/
def settled (table : TypeTable) (type : TypeId) : Bool :=
  table.settledWithin table.levels type

variable {table later : TypeTable} {type : TypeId} {depth more : Nat}

theorem levels_le (holds : table.Holds later) :
    table.levels ≤ later.levels :=
  Nat.succ_le_succ ((holds.sublist.filter _).length_le)

theorem settled_fields
    (settled : (table.fields? type).any fun fields =>
      fields.all (table.settledWithin depth)) :
    ∃ fields, table.fields? type = some fields ∧
      ∀ field ∈ fields, table.settledWithin depth field = true := by
  cases found : table.fields? type with
  | none => simp [found] at settled
  | some fields => exact ⟨fields, rfl, by simpa [found] using settled⟩

/-- The alignment of a settled type is found at the depth it is settled
within, and stays. -/
theorem alignWithin_eq (closed : table.Closed) (grows : table.Grows later)
    (has : table.Has type)
    (settled : table.settledWithin depth type = true) (deep : depth ≤ more) :
    later.alignWithin more type = table.alignWithin depth type := by
  induction depth generalizing type more with
  | zero => cases settled
  | succ depth ih =>
      obtain ⟨more, rfl⟩ := Nat.exists_eq_add_of_lt deep
      have within : depth ≤ depth + more := Nat.le_add_right _ _
      have fields (settled : (table.fields? type).any fun fields =>
          fields.all (table.settledWithin depth)) :
          ((later.fields? type).getD []).foldl
            (fun greatest field => max greatest
              (later.alignWithin (depth + more) field)) 1 =
          ((table.fields? type).getD []).foldl
            (fun greatest field => max greatest
              (table.alignWithin depth field)) 1 := by
        obtain ⟨fields, found, all⟩ := settled_fields settled
        rw [grows.fields? found, found]
        refine List.foldl_ext _ _ _ fun greatest field member => ?_
        rw [ih (closed.fields found field member) (all field member) within]
      unfold settledWithin at settled
      unfold alignWithin
      rw [has.kind_eq grows]
      cases kind : table.kind type with
      | array element length =>
          rw [kind] at settled
          have inside : table.Has element :=
            closed.part type (by simp [kind, TypeKind.parts])
          exact ih inside settled within
      | struct inner =>
          rw [kind] at settled
          exact fields settled
      | named name =>
          rw [kind] at settled
          exact fields settled
      | _ => rfl

theorem align_eq (closed : table.Closed) (grows : table.Grows later)
    (has : table.Has type)
    (settled : table.settledWithin depth type = true)
    (deep : depth ≤ table.levels) :
    later.align type = table.align type := by
  have farther := Nat.le_trans deep (levels_le grows.holds)
  unfold align
  rw [alignWithin_eq closed grows has settled farther,
    alignWithin_eq closed (.refl table) has settled deep]

/-- The size of a settled type is found at the depth it is settled within,
and stays. -/
theorem sizeWithin_eq (closed : table.Closed) (grows : table.Grows later)
    (has : table.Has type)
    (settled : table.settledWithin depth type = true)
    (shallow : depth ≤ table.levels) (deep : depth ≤ more) :
    later.sizeWithin more type = table.sizeWithin depth type := by
  induction depth generalizing type more with
  | zero => cases settled
  | succ depth ih =>
      have aligned := align_eq closed grows has settled shallow
      obtain ⟨more, rfl⟩ := Nat.exists_eq_add_of_lt deep
      have within : depth ≤ depth + more := Nat.le_add_right _ _
      have less : depth ≤ table.levels :=
        Nat.le_of_succ_le shallow
      have fields (settled : (table.fields? type).any fun fields =>
          fields.all (table.settledWithin depth)) :
          ((later.fields? type).getD []).foldl
            (fun offset field => alignUp offset (later.align field) +
              later.sizeWithin (depth + more) field) 0 =
          ((table.fields? type).getD []).foldl
            (fun offset field => alignUp offset (table.align field) +
              table.sizeWithin depth field) 0 := by
        obtain ⟨fields, found, all⟩ := settled_fields settled
        rw [grows.fields? found, found]
        refine List.foldl_ext _ _ _ fun offset field member => ?_
        have inside := closed.fields found field member
        rw [ih inside (all field member) less within,
          align_eq closed grows inside (all field member) less]
      unfold settledWithin at settled
      unfold sizeWithin
      rw [has.kind_eq grows]
      cases kind : table.kind type with
      | array element length =>
          rw [kind] at settled
          have inside : table.Has element :=
            closed.part type (by simp [kind, TypeKind.parts])
          exact congrArg (· * length) (ih inside settled less within)
      | struct inner =>
          rw [kind] at settled
          exact congrArg₂ alignUp (fields settled) aligned
      | named name =>
          rw [kind] at settled
          exact congrArg₂ alignUp (fields settled) aligned
      | _ => rfl

theorem size_eq (closed : table.Closed) (grows : table.Grows later)
    (has : table.Has type) (settled : table.settled type = true) :
    later.size type = table.size type := by
  exact sizeWithin_eq closed grows has settled (Nat.le_refl _)
    (levels_le grows.holds)

end TypeTable

/-! ## Fields of a variant -/

namespace Variant

variable {variant : Variant} {table later : TypeTable}
  {first second start next : Nat} {type other : TypeId}

theorem packedSize_eq_sum (table : TypeTable) (fields : List TypeId) :
    packedSize table fields = (fields.map table.size).sum := by
  unfold packedSize
  rw [List.sum_eq_foldl, List.foldl_map]

theorem field?_eq_some (found : variant.field? table first =
    some (start, type)) :
    variant.fields[first]? = some type ∧
      start = ((variant.fields.take first).map table.size).sum := by
  obtain ⟨inner, position, same⟩ := Option.map_eq_some_iff.mp found
  cases same
  exact ⟨position, packedSize_eq_sum table _⟩

/-- A field ends where the fields up to it end. -/
theorem end_of_field (found : variant.field? table first =
    some (start, type)) :
    start + table.size type =
      ((variant.fields.take (first + 1)).map table.size).sum := by
  obtain ⟨position, rfl⟩ := field?_eq_some found
  rw [List.take_add_one, position]
  simp

/-- A field ends before the next ones start. -/
theorem end_le_start (before : first < second)
    (found : variant.field? table first = some (start, type))
    (foundNext : variant.field? table second = some (next, other)) :
    start + table.size type ≤ next := by
  obtain ⟨-, rfl⟩ := field?_eq_some foundNext
  rw [end_of_field found]
  refine List.Sublist.sum_le_sum (.map _ ?_) fun _ _ => Nat.zero_le _
  exact List.take_sublist_take_left before

/-- The last field ends with the payload. -/
theorem end_eq_payloadSize (isLast : first + 1 = variant.fields.length)
    (found : variant.field? table first = some (start, type)) :
    start + table.size type = variant.payloadSize table := by
  rw [end_of_field found, isLast, List.take_length, payloadSize,
    packedSize_eq_sum]

/-- Settled fields stay where they are. -/
theorem field?_eq (closed : table.Closed) (grows : table.Grows later)
    (has : ∀ field ∈ variant.fields, table.Has field)
    (settled : ∀ field ∈ variant.fields, table.settled field = true)
    (index : Nat) : variant.field? later index = variant.field? table index := by
  have same : ∀ field ∈ variant.fields, later.size field = table.size field :=
    fun field member =>
      TypeTable.size_eq closed grows (has field member) (settled field member)
  have sizes : packedSize later (variant.fields.take index) =
      packedSize table (variant.fields.take index) := by
    rw [packedSize_eq_sum, packedSize_eq_sum]
    refine congrArg List.sum (List.map_congr_left fun field member => ?_)
    exact same field (List.mem_of_mem_take member)
  unfold field?
  rw [sizes]

end Variant

/-! ## Sums that were read -/

namespace SumLayout

variable {layout : SumLayout} {table later : TypeTable}

/-- The struct of a sum is a tag and a payload of bytes, and the tags of its
variants count them. -/
structure IsLaidOut (table : TypeTable) (layout : SumLayout) : Prop where
  numbered : layout.IsNumbered
  bounded : ∀ variant ∈ layout.variants, variant.tag < 0x80000000
  body : table.IsTagged layout.type

theorem IsLaidOut.mono (laidOut : layout.IsLaidOut table)
    (grows : table.Grows later) : layout.IsLaidOut later := by
  have kept {type : TypeId} {kind : TypeKind} (notVoid : kind ≠ .void)
      (found : table.kind type = kind) : later.kind type = kind := by
    rw [← found] at notVoid
    rw [(TypeTable.has_of_kind notVoid).kind_eq grows, found]
  obtain ⟨tag, payload, byte, size, fields, tagKind, payloadKind, byteKind⟩ :=
    laidOut.body
  exact ⟨laidOut.numbered, laidOut.bounded, tag, payload, byte, size,
    grows.fields? fields, kept (by simp) tagKind, kept (by simp) payloadKind,
    kept (by simp) byteKind⟩

/-- Variants of different names have different tags. -/
theorem IsLaidOut.tag_eq_iff (laidOut : layout.IsLaidOut table)
    {variant other : Variant} {name otherName : String}
    (found : layout.variant? name = some variant)
    (otherFound : layout.variant? otherName = some other) :
    other.tag = variant.tag ↔ otherName = name := by
  have counts : (layout.variants.map Variant.tag).Nodup :=
    laidOut.numbered ▸ List.nodup_range
  constructor
  · intro same
    have equal := List.inj_on_of_nodup_map counts
      (List.mem_of_find?_eq_some otherFound) (List.mem_of_find?_eq_some found)
      same
    have named : variant.name = name := by
      simpa using List.find?_some found
    have otherNamed : other.name = otherName := by
      simpa using List.find?_some otherFound
    rw [← named, ← otherNamed, equal]
  · rintro rfl
    rw [Option.some.inj (found.symm.trans otherFound)]

end SumLayout

theorem bounds_variants (tag : Nat) (forms : List Form) :
    ReadsGood (readVariants tag forms) fun variants =>
      ∀ variant ∈ variants, variant.tag < 0x80000000 := by
  induction forms generalizing tag with
  | nil => exact .pure (List.forall_mem_nil _)
  | cons form forms ih =>
      have bounded : ReadsGood (readVariant tag form) fun variant =>
          variant.tag < 0x80000000 := by
        refine .shaped fun arguments _ => .shaped fun name _ => ?_
        refine .skip fun fields => ?_
        split
        · next small => exact .pure small
        · rintro _ _ ⟨⟩
      refine .bind bounded fun variant small => ?_
      refine .bind (ih (tag + 1)) fun variants others => .pure ?_
      exact List.forall_mem_cons.mpr ⟨small, others⟩

theorem bounds_sum (declaration : Declaration) :
    ReadsGood (readSum declaration) fun layout =>
      ∀ variant ∈ layout.variants, variant.tag < 0x80000000 := by
  refine .bind (bounds_variants 0 _) fun variants bounded => ?_
  refine .skip fun table => .skip fun tag => .skip fun byte => ?_
  exact .skip fun payload => .skip fun type => .pure bounded

/-- A sum that was read is laid out. -/
theorem isLaidOut_readSum {declaration : Declaration}
    {table later : TypeTable} {layout : SumLayout} (closed : table.Closed)
    (read : (readSum declaration).run table = (.ok layout, later)) :
    layout.IsLaidOut later := by
  have reads := laysOut_sum closed declaration
  have outcome : ((readSum declaration).run table).1 = .ok layout := by
    rw [read]
  have tagged := reads.good layout outcome
  rw [read] at tagged
  exact ⟨(finds_sum declaration table layout outcome).1,
    bounds_sum declaration table layout outcome, tagged.2⟩

end FormCompiler
