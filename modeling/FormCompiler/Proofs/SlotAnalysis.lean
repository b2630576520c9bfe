import FormCompiler.Proofs.FunctionEffects

/-!
# The analysis of mutable names

Before a body is emitted, the names that must live in slots are found by a
scan of its forms.  The scan sees every definition that emission makes and
every slot that it asks for, so a slot is only ever made for a name that was
found, and any other name has one definition at most.
-/

namespace FormCompiler

open Ir

/-! ## What the scan sees -/

theorem definedName?_eq (form : Form) :
    definedName? form =
      match formRole form with
      | .nothing | .localVariable => none
      | .binding => listNameAt? form 1
      | .instruction .sumMatch =>
          if (form.list?.getD [])[1]?.any isLocalReference then
            listNameAt? form 1
          else none
      | .instruction opcode =>
          if opcode.definesResult then listNameAt? form 1 else none := by
  unfold definedName? formRole
  generalize form.head? = head
  split
  · rfl
  · rfl
  · rfl
  · try simp_all only
    split <;> simp_all

theorem markedName?_eq (form : Form) :
    markedName? form =
      match formRole form with
      | .localVariable => listNameAt? form 2
      | .instruction .address => listNameAt? form 3
      | .instruction .assign | .instruction .localVariable =>
          listNameAt? form 1
      | _ => none := by
  unfold markedName? formRole
  generalize form.head? = head
  split
  · rfl
  · rfl
  · rfl
  · next name _ _ =>
      try simp_all only
      cases Opcode.ofHead? name with
      | none => rfl
      | some opcode => cases opcode <;> rfl

section Scan

variable {kind : String → List NameUse} {items : List Form} {index : Nat}
  {name : String}

theorem mem_usesAt {use : NameUse} (member : use ∈ usesAt kind items index) :
    ∃ other, items[index]?.bind localName? = some other ∧
      use ∈ kind other := by
  obtain ⟨other, found, used⟩ := List.mem_flatMap.mp member
  exact ⟨other, Option.mem_toList.mp found, used⟩

theorem count_published_results (items : List Form) (index : Nat)
    (name : String) :
    (usesAt results items index).count (.published name) =
      (items[index]?.bind localName?).toList.count name := by
  unfold usesAt
  cases items[index]?.bind localName? with
  | none => rfl
  | some other => simp [results, List.count_cons]

theorem count_published_eq_zero
    (never : ∀ other, .published name ∉ kind other) :
    (usesAt kind items index).count (.published name) = 0 := by
  rw [List.count_eq_zero]
  intro member
  obtain ⟨other, _, used⟩ := mem_usesAt member
  exact never other used

/-- A list form gives at most one result, to the name that it defines. -/
theorem count_published_ownUses (form : Form) (name : String) :
    (ownUses form).count (.published name) ≤
      (definedName? form).toList.count name := by
  have atVariable : ∀ other, .published name ∉ variableUses other := by
    simp [variableUses]
  have atInitial : ∀ other, .published name ∉ initialUses other := by
    simp [initialUses]
  have atAddress : ∀ other, .published name ∉ addressUses other := by
    simp [addressUses]
  have atList : ∀ other, .published name ∉ listUses other := by
    simp [listUses]
  have result := (count_published_results (form.list?.getD []) 1 name).le
  rw [definedName?_eq]
  unfold ownUses
  cases formRole form with
  | nothing => exact Nat.zero_le _
  | localVariable =>
      rw [count_published_eq_zero atAddress]
      exact Nat.zero_le _
  | binding => exact result
  | instruction opcode =>
      dsimp only
      unfold opcodeUses
      split
      · rw [List.count_append, count_published_eq_zero atVariable,
          count_published_eq_zero atInitial]
        exact Nat.zero_le _
      · rw [count_published_eq_zero atVariable]
        exact Nat.zero_le _
      · rw [List.count_append, count_published_eq_zero atAddress,
          Nat.zero_add]
        exact result
      · rw [count_published_eq_zero atList]
        exact Nat.zero_le _
      · split
        · exact result
        · exact Nat.zero_le _
      · simp only
        split
        · exact result
        · exact Nat.zero_le _

/-- A list form asks for a slot only for the name that it makes mutable. -/
theorem markedName?_of_slotted {form : Form}
    (slotted : .slotted name ∈ ownUses form) :
    markedName? form = some name := by
  have atResult : ∀ index, .slotted name ∉ usesAt results
      (form.list?.getD []) index := by
    intro index member
    obtain ⟨other, _, used⟩ := mem_usesAt member
    simp [results] at used
  have atMark {kind : String → List NameUse} {index : Nat}
      (same : ∀ other, .slotted name ∈ kind other → name = other)
      (member : .slotted name ∈ usesAt kind (form.list?.getD []) index) :
      listNameAt? form index = some name := by
    obtain ⟨other, found, used⟩ := mem_usesAt member
    rw [same other used]
    exact found
  rw [markedName?_eq]
  unfold ownUses at slotted
  cases role : formRole form with
  | nothing =>
      rw [role] at slotted
      cases slotted
  | localVariable =>
      rw [role] at slotted
      exact atMark (by simp [addressUses]) slotted
  | binding =>
      rw [role] at slotted
      exact absurd slotted (atResult 1)
  | instruction opcode =>
      rw [role] at slotted
      dsimp only at slotted ⊢
      unfold opcodeUses at slotted
      split at slotted
      · rcases List.mem_append.mp slotted with variable_ | initial
        · exact atMark (by simp [variableUses]) variable_
        · obtain ⟨other, _, used⟩ := mem_usesAt initial
          simp [initialUses] at used
      · exact atMark (by simp [variableUses]) slotted
      · rcases List.mem_append.mp slotted with address | result
        · exact atMark (by simp [addressUses]) address
        · exact absurd result (atResult 1)
      · obtain ⟨other, _, used⟩ := mem_usesAt slotted
        simp [listUses] at used
      · split at slotted
        · exact absurd slotted (atResult 1)
        · cases slotted
      · split at slotted
        · exact absurd slotted (atResult 1)
        · cases slotted

end Scan

/-- The scan counts every result that the forms of a body give. -/
theorem count_published_formUses (body : List Form) (name : String) :
    (body.flatMap formUses).count (.published name) ≤
      (definedNames body).count name := by
  rw [← flatMap_nestedListsAll, definedNames]
  induction nestedListsAll body with
  | nil => exact Nat.le_refl 0
  | cons form forms ih =>
      have split : (form :: forms).filterMap definedName? =
          (definedName? form).toList ++ forms.filterMap definedName? := by
        rw [List.filterMap_cons]
        cases definedName? form <;> rfl
      rw [List.flatMap_cons, List.count_append, split, List.count_append]
      exact Nat.add_le_add (count_published_ownUses form name) ih

/-- The scan finds every slot that the forms of a body ask for. -/
theorem mem_markedNames_of_slotted {body : List Form} {name : String}
    (slotted : .slotted name ∈ body.flatMap formUses) :
    name ∈ markedNames body := by
  rw [← flatMap_nestedListsAll] at slotted
  obtain ⟨form, member, own⟩ := List.mem_flatMap.mp slotted
  exact List.mem_filterMap.mpr ⟨form, member, markedName?_of_slotted own⟩

/-- A name that is not mutable is defined at most once. -/
theorem count_le_one_of_not_mem_mutableNames {parameters : List String}
    {body : List Form} {name : String}
    (absent : name ∉ mutableNames parameters body) :
    parameters.count name + (definedNames body).count name ≤ 1 := by
  rw [← List.count_append]
  by_contra often
  have more : 1 < (parameters ++ definedNames body).count name :=
    Nat.lt_of_not_le often
  refine absent (List.mem_eraseDups.mpr (List.mem_append_left _ ?_))
  refine List.mem_filter.mpr ⟨?_, decide_eq_true more⟩
  exact List.count_pos_iff.mp (Nat.zero_lt_of_lt more)

theorem mem_mutableNames_of_marked {parameters : List String}
    {body : List Form} {name : String} (marked : name ∈ markedNames body) :
    name ∈ mutableNames parameters body :=
  List.mem_eraseDups.mpr (List.mem_append_right _ marked)

/-! ## Soundness of the analysis -/

/-- A context to start from has no slots. -/
theorem recorded_ofMutableNames (names : List String) :
    (FunctionContext.ofMutableNames names).Recorded :=
  fun _ nonempty => absurd rfl nonempty

/-- The analysis is sound for emission.  Slots are made, at any point of the
emission of a body, for names that it found only: the history lists the slots
that were ever made, and every slot that a name still has is in it.  To any
other name one value is given at most, that of a parameter or a result. -/
theorem slots_only_for_mutableNames (environment : Environment)
    (function : FunctionId) (header : FunctionHeader) (body : List Form)
    (state : EmitState) :
    let parameters := header.parameters.map Prod.fst
    let names := mutableNames parameters body
    let start := { state with context := .ofMutableNames names }
    let final := ((emitBody function header body).run environment start).2
    (∀ name, .slotted name ∈ final.context.history → name ∈ names) ∧
      (∀ name, final.context.stack name ≠ [] →
        .slotted name ∈ final.context.history) ∧
      ∀ name, name ∉ names →
        parameters.count name +
          final.context.history.count (.published name) ≤ 1 := by
  intro parameters names start final
  obtain ⟨used, fits, touches⟩ :=
    uses_emitBody function header body environment start
  obtain ⟨events, remembers⟩ := touches.remembers
  have history : final.context.history = events := remembers.history
  refine ⟨?_, touches.recorded (recorded_ofMutableNames names), ?_⟩
  · intro name slotted
    rw [history] at slotted
    rcases remembers.slotted name slotted with asked | mutable
    · rcases List.mem_append.mp (fits.subset asked) with parameter | inBody
      · obtain ⟨_, _, never⟩ := List.mem_flatMap.mp parameter
        simp [parameterUses] at never
      · exact mem_mutableNames_of_marked (mem_markedNames_of_slotted inBody)
    · exact List.contains_iff_mem.mp mutable
  · intro name absent
    have atParameters : (header.parameters.flatMap parameterUses).count
        (.published name) = 0 := by
      rw [List.count_eq_zero]
      simp [parameterUses]
    have counted := fits.count_le (.published name)
    rw [List.count_append, atParameters, Nat.zero_add] at counted
    rw [history, remembers.published]
    calc parameters.count name + used.count (.published name)
      _ ≤ parameters.count name + (definedNames body).count name :=
        Nat.add_le_add_left
          (counted.trans (count_published_formUses body name)) _
      _ ≤ 1 := count_le_one_of_not_mem_mutableNames absent

end FormCompiler
