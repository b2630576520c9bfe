import Mathlib
import FormCompiler.Types.Size

/-!
# Placement of fields

A type holds another by value if values of the one are part of values of the
other: an array holds its elements and a struct its fields, but a pointer does
not hold what it points to.  Sizes and alignments are computed to a depth that
is beyond all containment where no type contains itself, so there they are
what the parts of a type make of them.

An alignment is 1, 2, 4 or 8, and a size is a multiple of the alignment.  The
fields of a struct lie at multiples of their alignments, one behind the other,
and the struct ends at the next multiple of its own alignment.
-/

namespace FormCompiler

/-! ## Rounding up -/

theorem dvd_alignUp (offset : Nat) {alignment : Nat}
    (positive : 0 < alignment) : alignment ∣ alignUp offset alignment := by
  rw [alignUp, max_eq_left positive]
  exact Nat.dvd_mul_left _ _

theorem le_alignUp (offset : Nat) {alignment : Nat} (positive : 0 < alignment) :
    offset ≤ alignUp offset alignment := by
  rw [alignUp, max_eq_left positive]
  have split := Nat.div_add_mod' (offset + alignment - 1) alignment
  have small := Nat.mod_lt (offset + alignment - 1) positive
  omega

theorem alignUp_lt (offset : Nat) {alignment : Nat} (positive : 0 < alignment) :
    alignUp offset alignment < offset + alignment := by
  rw [alignUp, max_eq_left positive]
  have split := Nat.div_mul_le_self (offset + alignment - 1) alignment
  omega

theorem intBytes_eq_two_pow (bits : Nat) :
    ∃ exponent, intBytes bits = 2 ^ exponent :=
  Nat.isPowerOfTwo_nextPowerOfTwo _

theorem min_two_pow (first second : Nat) :
    min (2 ^ first) (2 ^ second) = 2 ^ min first second :=
  (pow_right_mono₀ one_le_two).map_min.symm

theorem max_two_pow (first second : Nat) :
    max (2 ^ first) (2 ^ second) = 2 ^ max first second :=
  (pow_right_mono₀ one_le_two).map_max.symm

namespace TypeTable

variable {table : TypeTable} {type inner : TypeId} {depth more : Nat}

/-! ## Containment -/

/-- The types whose values are part of the values of a type. -/
def held (table : TypeTable) (type : TypeId) : List TypeId :=
  match table.kind type with
  | .array element _ => [element]
  | .struct _ | .named _ => (table.fields? type).getD []
  | _ => []

/-- A type is a part of another one, or a part of a part of it. -/
def Contains (table : TypeTable) (outer inner : TypeId) : Prop :=
  Relation.TransGen (fun outer inner => inner ∈ table.held outer) outer inner

/-- No type contains itself among a type and the types in it.  Only such types
have a size. -/
def IsFinite (table : TypeTable) (type : TypeId) : Prop :=
  ¬ table.Contains type type ∧
    ∀ inner, table.Contains type inner → ¬ table.Contains inner inner

theorem IsFinite.part (finite : table.IsFinite type)
    (part : inner ∈ table.held type) : table.IsFinite inner :=
  ⟨finite.2 inner (.single part),
    fun _ contained => finite.2 _ (.head part contained)⟩

/-- Types are finite where something decreases from each type to its parts. -/
theorem isFinite_of_decreases (rank : TypeId → Nat)
    (decreases : ∀ outer, ∀ inner ∈ table.held outer, rank inner < rank outer)
    (type : TypeId) : table.IsFinite type := by
  have smaller {outer inner : TypeId} (contains : table.Contains outer inner) :
      rank inner < rank outer := by
    induction contains with
    | single part => exact decreases _ _ part
    | tail _ part below => exact (decreases _ _ part).trans below
  exact ⟨fun contains => (smaller contains).false,
    fun _ _ contains => (smaller contains).false⟩

/-- Where the types that hold others stand in the table. -/
def containers (table : TypeTable) : List Nat :=
  (List.range table.kinds.length).filter fun index =>
    (table.kinds[index]?).any TypeKind.isContainer

theorem length_containers (table : TypeTable) :
    table.containers.length + 1 = table.levels := by
  obtain ⟨kinds, bodies⟩ := table
  unfold containers levels
  induction kinds using List.reverseRecOn with
  | nil => rfl
  | append_singleton kinds kind ih =>
      have old : (List.range kinds.length).filter (fun index =>
            ((kinds ++ [kind])[index]?).any TypeKind.isContainer) =
          (List.range kinds.length).filter fun index =>
            (kinds[index]?).any TypeKind.isContainer := by
        refine List.filter_congr fun index member => ?_
        rw [List.getElem?_append_left (List.mem_range.mp member)]
      rw [List.length_append, List.length_singleton, List.range_succ,
        List.filter_append, List.filter_append, old]
      cases container : kind.isContainer <;> simp_all

theorem mem_containers_of_held (part : inner ∈ table.held type) :
    type.index ∈ table.containers := by
  have container : (table.kind type).isContainer = true := by
    unfold held at part
    split at part
    · next kind => rw [kind]; rfl
    · next kind => rw [kind]; rfl
    · next kind => rw [kind]; rfl
    · cases part
  unfold kind at container
  cases found : table.kinds[type.index]? with
  | none =>
      rw [found] at container
      cases container
  | some kind =>
      rw [found] at container
      obtain ⟨inside, -⟩ := List.getElem?_eq_some_iff.mp found
      refine List.mem_filter.mpr ⟨List.mem_range.mpr inside, ?_⟩
      rw [found]
      exact container

/-- Containment ends after at most `depth` levels. -/
def EndsWithin (table : TypeTable) : (depth : Nat) → TypeId → Prop
  | 0, _ => False
  | depth + 1, type => ∀ part ∈ table.held type, table.EndsWithin depth part

/-- The types on the way to a type are all different, so there are no more of
them than the table has of those that hold others. -/
theorem endsWithin_of_path (path : List TypeId) (distinct : path.Nodup)
    (known : ∀ outer ∈ path, outer.index ∈ table.containers)
    (contains : ∀ outer ∈ path, table.Contains outer type)
    (finite : table.IsFinite type)
    (enough : table.levels ≤ path.length + depth) :
    table.EndsWithin depth type := by
  induction depth generalizing type path with
  | zero =>
      have indices : (path.map TypeId.index).Nodup := by
        refine distinct.map fun ⟨_⟩ ⟨_⟩ same => ?_
        exact congrArg TypeId.mk same
      have inRange : path.map TypeId.index ⊆ table.containers := by
        intro index member
        obtain ⟨outer, onPath, rfl⟩ := List.mem_map.mp member
        exact known outer onPath
      have bound := (indices.subperm inRange).length_le
      rw [List.length_map] at bound
      have count := table.length_containers
      omega
  | succ depth ih =>
      intro part member
      have new : type ∉ path := fun old => finite.1 (contains type old)
      refine ih (type :: path) (List.nodup_cons.mpr ⟨new, distinct⟩) ?_ ?_
        (finite.part member) (by rw [List.length_cons]; omega)
      · exact List.forall_mem_cons.mpr ⟨mem_containers_of_held member, known⟩
      · refine List.forall_mem_cons.mpr ⟨.single member, ?_⟩
        exact fun outer old => .tail (contains outer old) member

/-- Sizes are computed deep enough. -/
theorem IsFinite.endsWithin (finite : table.IsFinite type) :
    table.EndsWithin table.levels type :=
  endsWithin_of_path [] .nil (List.forall_mem_nil _) (List.forall_mem_nil _)
    finite (by simp)

/-! ## Alignments -/

/-- An alignment does not depend on the depth that it is computed to, when
that is beyond all containment. -/
theorem EndsWithin.alignWithin_eq (ends : table.EndsWithin depth type)
    (deep : depth ≤ more) :
    table.alignWithin more type = table.alignWithin depth type := by
  induction depth generalizing type more with
  | zero => exact ends.elim
  | succ depth ih =>
      obtain ⟨more, rfl⟩ := Nat.exists_eq_add_of_lt deep
      have each {part : TypeId} (member : part ∈ table.held type) :
          table.alignWithin (depth + more) part =
            table.alignWithin depth part :=
        ih (ends part member) (Nat.le_add_right _ _)
      have fields (isHeld : table.held type = (table.fields? type).getD []) :
          ((table.fields? type).getD []).foldl
            (fun greatest field => max greatest
              (table.alignWithin (depth + more) field)) 1 =
          ((table.fields? type).getD []).foldl
            (fun greatest field => max greatest
              (table.alignWithin depth field)) 1 := by
        refine List.foldl_ext _ _ _ fun greatest field member => ?_
        rw [each (isHeld ▸ member)]
      unfold alignWithin
      cases kind : table.kind type with
      | array element length => exact each (by simp [held, kind])
      | struct inner => exact fields (by simp [held, kind])
      | named name => exact fields (by simp [held, kind])
      | _ => rfl

theorem EndsWithin.align_eq
    (ends : table.EndsWithin table.containers.length type) :
    table.alignWithin table.containers.length type = table.align type :=
  (ends.alignWithin_eq (table.length_containers ▸ Nat.le_succ _)).symm

/-- An alignment is a power of two up to eight. -/
theorem alignWithin_eq_two_pow (depth : Nat) (type : TypeId) :
    ∃ exponent ≤ 3, table.alignWithin depth type = 2 ^ exponent := by
  induction depth generalizing type with
  | zero => exact ⟨0, by decide, rfl⟩
  | succ depth ih =>
      have fields (fields : List TypeId) :
          ∃ exponent ≤ 3, fields.foldl (fun greatest field =>
            max greatest (table.alignWithin depth field)) 1 =
              2 ^ exponent := by
        refine List.foldlRecOn fields _ (motive := fun greatest =>
          ∃ exponent ≤ 3, greatest = 2 ^ exponent) ⟨0, by decide, rfl⟩ ?_
        rintro _ ⟨first, firstSmall, rfl⟩ field -
        obtain ⟨second, secondSmall, found⟩ := ih field
        rw [found, max_two_pow]
        exact ⟨_, max_le firstSmall secondSmall, rfl⟩
      unfold alignWithin
      cases table.kind type with
      | int bits =>
          obtain ⟨exponent, isPower⟩ := intBytes_eq_two_pow bits
          refine ⟨min exponent 3, min_le_right _ _, ?_⟩
          rw [← min_two_pow, ← isPower]
          rfl
      | array element length => exact ih element
      | struct inner => exact fields _
      | named name => exact fields _
      | float => exact ⟨2, by decide, rfl⟩
      | double => exact ⟨3, by decide, rfl⟩
      | pointer pointee => exact ⟨3, by decide, rfl⟩
      | _ => exact ⟨0, by decide, rfl⟩

theorem align_eq_two_pow (table : TypeTable) (type : TypeId) :
    ∃ exponent ≤ 3, table.align type = 2 ^ exponent :=
  alignWithin_eq_two_pow _ type

theorem align_pos (table : TypeTable) (type : TypeId) :
    0 < table.align type := by
  obtain ⟨exponent, -, isPower⟩ := table.align_eq_two_pow type
  rw [isPower]
  exact Nat.two_pow_pos exponent

/-! ## Sizes -/

/-- A size does not depend on the depth that it is computed to, when that is
beyond all containment. -/
theorem EndsWithin.sizeWithin_eq (ends : table.EndsWithin depth type)
    (deep : depth ≤ more) :
    table.sizeWithin more type = table.sizeWithin depth type := by
  induction depth generalizing type more with
  | zero => exact ends.elim
  | succ depth ih =>
      obtain ⟨more, rfl⟩ := Nat.exists_eq_add_of_lt deep
      have each {part : TypeId} (member : part ∈ table.held type) :
          table.sizeWithin (depth + more) part =
            table.sizeWithin depth part :=
        ih (ends part member) (Nat.le_add_right _ _)
      have fields (isHeld : table.held type = (table.fields? type).getD []) :
          ((table.fields? type).getD []).foldl
            (fun offset field => alignUp offset (table.align field) +
              table.sizeWithin (depth + more) field) 0 =
          ((table.fields? type).getD []).foldl
            (fun offset field => alignUp offset (table.align field) +
              table.sizeWithin depth field) 0 := by
        refine List.foldl_ext _ _ _ fun offset field member => ?_
        rw [each (isHeld ▸ member)]
      unfold sizeWithin
      cases kind : table.kind type with
      | array element length =>
          exact congrArg (· * length) (each (by simp [held, kind]))
      | struct inner =>
          exact congrArg (alignUp · _) (fields (by simp [held, kind]))
      | named name =>
          exact congrArg (alignUp · _) (fields (by simp [held, kind]))
      | _ => rfl

theorem EndsWithin.size_eq
    (ends : table.EndsWithin table.containers.length type) :
    table.sizeWithin table.containers.length type = table.size type :=
  (ends.sizeWithin_eq (table.length_containers ▸ Nat.le_succ _)).symm

/-- The size that is computed to some depth is a multiple of the alignment. -/
theorem EndsWithin.align_dvd_sizeWithin (ends : table.EndsWithin depth type)
    (shallow : depth ≤ table.levels) :
    table.align type ∣ table.sizeWithin depth type := by
  induction depth generalizing type with
  | zero => exact ends.elim
  | succ depth ih =>
      have within : table.align type = table.alignWithin (depth + 1) type :=
        ends.alignWithin_eq shallow
      unfold sizeWithin
      cases kind : table.kind type with
      | int bits =>
          rw [within, alignWithin, kind]
          obtain ⟨exponent, isPower⟩ := intBytes_eq_two_pow bits
          dsimp only
          rw [isPower, show 8 = 2 ^ 3 from rfl, min_two_pow]
          exact pow_dvd_pow 2 (min_le_left _ _)
      | array element length =>
          have part : element ∈ table.held type := by simp [held, kind]
          have less : depth ≤ table.levels :=
            Nat.le_of_succ_le shallow
          have same : table.align type = table.align element := by
            rw [within, alignWithin, kind]
            exact ((ends element part).alignWithin_eq less).symm
          rw [same]
          exact (ih (ends element part) less).mul_right length
      | struct inner => exact dvd_alignUp _ (table.align_pos _)
      | named name => exact dvd_alignUp _ (table.align_pos _)
      | float => simp [within, alignWithin, kind]
      | double => simp [within, alignWithin, kind]
      | pointer pointee => simp [within, alignWithin, kind]
      | _ => exact Nat.dvd_zero _

/-! ## Fields -/

/-- Whether a type is a struct, with a name or without. -/
def isStruct (table : TypeTable) (type : TypeId) : Bool :=
  match table.kind type with
  | .struct _ | .named _ => true
  | _ => false

/-- Where fields start: each at the next multiple of its alignment behind the
ones ahead of it, the first of them at or behind an offset. -/
def placed (table : TypeTable) : (offset : Nat) → List TypeId →
    List (Nat × TypeId)
  | _, [] => []
  | offset, field :: fields =>
      let start := alignUp offset (table.align field)
      (start, field) :: table.placed (start + table.size field) fields

/-- Where a field ends. -/
def stop (table : TypeTable) (place : Nat × TypeId) : Nat :=
  place.1 + table.size place.2

/-- Where the last one of some fields ends. -/
def lastStop (table : TypeTable) (offset : Nat)
    (places : List (Nat × TypeId)) : Nat :=
  (places.getLast?.map table.stop).getD offset

theorem placed_fields (offset : Nat) (fields : List TypeId) :
    (table.placed offset fields).map Prod.snd = fields := by
  induction fields generalizing offset with
  | nil => rfl
  | cons field fields ih => rw [placed, List.map_cons, ih]

theorem placed_aligned {offset : Nat} {fields : List TypeId} :
    ∀ place ∈ table.placed offset fields, table.align place.2 ∣ place.1 := by
  induction fields generalizing offset with
  | nil => exact List.forall_mem_nil _
  | cons field fields ih =>
      exact List.forall_mem_cons.mpr ⟨dvd_alignUp _ (table.align_pos _), ih⟩

theorem le_of_mem_placed {offset : Nat} {fields : List TypeId} :
    ∀ place ∈ table.placed offset fields, offset ≤ place.1 := by
  induction fields generalizing offset with
  | nil => exact List.forall_mem_nil _
  | cons field fields ih =>
      have start := le_alignUp offset (table.align_pos field)
      refine List.forall_mem_cons.mpr ⟨start, fun place member => ?_⟩
      exact start.trans ((Nat.le_add_right _ _).trans (ih place member))

theorem placed_apart {offset : Nat} {fields : List TypeId} :
    (table.placed offset fields).Pairwise fun first second =>
      table.stop first ≤ second.1 := by
  induction fields generalizing offset with
  | nil => exact .nil
  | cons field fields ih => exact .cons le_of_mem_placed ih

theorem lastStop_placed_cons (offset : Nat) (field : TypeId)
    (fields : List TypeId) :
    table.lastStop offset (table.placed offset (field :: fields)) =
      table.lastStop
        (alignUp offset (table.align field) + table.size field)
        (table.placed
          (alignUp offset (table.align field) + table.size field) fields) := by
  cases fields with
  | nil => rfl
  | cons next fields =>
      simp only [lastStop, placed, List.getLast?_cons, Option.map_some,
        Option.getD_some]

/-- No field ends behind the last one. -/
theorem stop_le_lastStop {offset : Nat} {fields : List TypeId} :
    ∀ place ∈ table.placed offset fields,
      table.stop place ≤
        table.lastStop offset (table.placed offset fields) := by
  have start {offset : Nat} {fields : List TypeId} :
      offset ≤ table.lastStop offset (table.placed offset fields) := by
    rw [lastStop]
    cases last : (table.placed offset fields).getLast? with
    | none => exact le_refl offset
    | some place =>
        have member := List.mem_of_getLast? last
        exact (le_of_mem_placed place member).trans (Nat.le_add_right _ _)
  induction fields generalizing offset with
  | nil => exact List.forall_mem_nil _
  | cons field fields ih =>
      rw [lastStop_placed_cons]
      exact List.forall_mem_cons.mpr ⟨start, ih⟩

/-- Adding up the size of a struct goes from field to field. -/
theorem foldl_eq_lastStop (offset : Nat) (fields : List TypeId) :
    fields.foldl (fun offset field =>
        alignUp offset (table.align field) + table.size field) offset =
      table.lastStop offset (table.placed offset fields) := by
  induction fields generalizing offset with
  | nil => rfl
  | cons field fields ih => rw [List.foldl_cons, ih, lastStop_placed_cons]

/-- A struct ends at the next multiple of its alignment behind its fields. -/
theorem IsFinite.size_struct (finite : table.IsFinite type)
    (isStruct : table.isStruct type = true) :
    table.size type =
      alignUp
        (table.lastStop 0 (table.placed 0 ((table.fields? type).getD [])))
        (table.align type) := by
  have ends := finite.endsWithin
  rw [← table.length_containers] at ends
  have sizes (isHeld : table.held type = (table.fields? type).getD []) :
      ((table.fields? type).getD []).foldl
        (fun offset field => alignUp offset (table.align field) +
          table.sizeWithin table.containers.length field) 0 =
      table.lastStop 0 (table.placed 0 ((table.fields? type).getD [])) := by
    rw [← foldl_eq_lastStop]
    refine List.foldl_ext _ _ _ fun offset field member => ?_
    rw [(ends field (isHeld ▸ member)).size_eq]
  rw [size, ← table.length_containers, sizeWithin]
  unfold TypeTable.isStruct at isStruct
  split at isStruct
  · next kind =>
      rw [kind]
      exact congrArg (alignUp · _) (sizes (by simp [held, kind]))
  · next kind =>
      rw [kind]
      exact congrArg (alignUp · _) (sizes (by simp [held, kind]))
  · cases isStruct

/-- A type that does not contain itself is aligned to 1, 2, 4 or 8 bytes, and
its size is a multiple of its alignment.  If it is a struct, then its fields
lie one behind the other, each at a multiple of its alignment, and it ends
behind the last one, by less than its alignment. -/
theorem IsFinite.size_and_alignment (finite : table.IsFinite type) :
    table.align type ∈ [1, 2, 4, 8] ∧ table.align type ∣ table.size type ∧
      (table.isStruct type = true →
        let places := table.placed 0 ((table.fields? type).getD [])
        places.map Prod.snd = (table.fields? type).getD [] ∧
          (∀ place ∈ places, table.align place.2 ∣ place.1) ∧
          (places.Pairwise fun first second =>
            table.stop first ≤ second.1) ∧
          (∀ place ∈ places, table.stop place ≤ table.size type) ∧
          table.lastStop 0 places ≤ table.size type ∧
          table.size type < table.lastStop 0 places + table.align type) := by
  refine ⟨?_, finite.endsWithin.align_dvd_sizeWithin (le_refl _), ?_⟩
  · obtain ⟨exponent, small, isPower⟩ := table.align_eq_two_pow type
    rw [isPower]
    interval_cases exponent <;> simp
  · intro isStruct places
    have size := finite.size_struct isStruct
    have positive := table.align_pos type
    have covers : table.lastStop 0 places ≤ table.size type :=
      size ▸ le_alignUp _ positive
    exact ⟨placed_fields 0 _, placed_aligned, placed_apart,
      fun place member => (stop_le_lastStop place member).trans covers,
      covers, size ▸ alignUp_lt _ positive⟩

/-- A node of a linked list, with a header that is a struct of its own. -/
def linkedNodes : TypeTable where
  kinds := [.int 8, .int 64, .array ⟨0⟩ 3, .struct [⟨0⟩, ⟨2⟩, ⟨1⟩],
    .named "node", .pointer ⟨4⟩]
  bodies := [(⟨4⟩, [⟨0⟩, ⟨3⟩, ⟨2⟩, ⟨5⟩])]

theorem size_and_alignment_linkedNode :
    let places := linkedNodes.placed 0 [⟨0⟩, ⟨3⟩, ⟨2⟩, ⟨5⟩]
    places.map Prod.fst = [0, 8, 24, 32] ∧ linkedNodes.size ⟨4⟩ = 40 ∧
      linkedNodes.IsFinite ⟨4⟩ ∧ linkedNodes.isStruct ⟨4⟩ = true ∧
      linkedNodes.align ⟨4⟩ ∣ linkedNodes.size ⟨4⟩ ∧
      places.Pairwise (fun first second =>
        linkedNodes.stop first ≤ second.1) := by
  intro places
  have finite : linkedNodes.IsFinite ⟨4⟩ := by
    -- The struct is behind its pointer, which it holds.
    let rank := fun type : TypeId =>
      if type.index = 4 then 6 else type.index
    refine isFinite_of_decreases rank ?_ _
    intro outer inner member
    have inside := (List.mem_filter.mp (mem_containers_of_held member)).1
    have small : outer.index < 6 := List.mem_range.mp inside
    obtain ⟨index⟩ := outer
    interval_cases index <;> revert inner <;> decide
  have laws := finite.size_and_alignment
  have fields := laws.2.2 rfl
  exact ⟨by cbv, by cbv, finite, rfl, laws.2.1, fields.2.2.1⟩

end TypeTable

end FormCompiler
