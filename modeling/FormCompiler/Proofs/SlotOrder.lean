import FormCompiler.Proofs.Drafts

/-!
# Slots and phis lead

A slot is put after the slots that open the first block of its function.
Later on slots and phis may come ahead of it, but nothing that is inserted
where the builder stands does: a slot ends no block, so it is never what the
builder stands ahead of.  Hence no load and no store ever precedes a slot.

In every other block the phis come first, since slots are put into the first
block only.
-/

namespace FormCompiler

open Ir

namespace Ir

/-- Operations that read or write memory through a pointer. -/
def Operation.accessesMemory : Operation → Bool
  | .load .. | .store .. => true
  | _ => false

namespace Block

variable {block later : Block} {index : Nat} {register : Register}
  {type : IrType}

/-- A phi has nothing but phis ahead of it. -/
def PhisLead (block : Block) : Prop :=
  block.instructions.Pairwise fun first second =>
    second.operation.isPhi = true → first.operation.isPhi = true

/-- A slot has nothing but slots and phis ahead of it. -/
def LeadsTo (register : Register) (type : IrType) (block : Block) : Prop :=
  ∃ before name after,
    block.instructions = before ++ ⟨register, name, .alloca type⟩ :: after ∧
      ∀ earlier ∈ before, earlier.operation.isAlloca = true ∨
        earlier.operation.isPhi = true

/-! ## Phis -/

theorem PhisLead.insertAt (lead : block.PhisLead) {position : Nat}
    {instruction : Instruction}
    (behind : instruction.operation.isPhi = true →
      ∀ first ∈ block.instructions.take position,
        first.operation.isPhi = true)
    (ahead : instruction.operation.isPhi = false →
      ∀ second ∈ block.instructions.drop position,
        second.operation.isPhi = false) :
    (block.insertAt position instruction).PhisLead := by
  unfold PhisLead at lead ⊢
  rw [← List.take_append_drop position block.instructions,
    List.pairwise_append] at lead
  obtain ⟨before, after, across⟩ := lead
  refine List.pairwise_append.mpr ⟨before,
    List.pairwise_cons.mpr ⟨fun second member isPhi => ?_, after⟩, ?_⟩
  · by_contra notPhi
    rw [ahead (Bool.eq_false_iff.mpr notPhi) second member] at isPhi
    cases isPhi
  · intro first firstMember
    exact List.forall_mem_cons.mpr ⟨fun isPhi => behind isPhi first firstMember,
      across first firstMember⟩

theorem PhisLead.turns (turns : block.Turns index later) (other : index ≠ 0)
    (lead : block.PhisLead) : later.PhisLead := by
  cases turns with
  | stays => exact lead
  | grows instruction notPhi cursor =>
      refine lead.insertAt (fun isPhi => ?_) fun _ second member => ?_
      · cases isPhi.symm.trans notPhi
      · rcases cursor.drop_eq with none | ⟨last, one, ending⟩
        · rw [none] at member
          cases member
        · rw [one, List.mem_singleton] at member
          subst member
          by_contra isPhi
          rw [isTerminator_of_isPhi (by simpa using isPhi)] at ending
          cases ending
  | slot instruction isAlloca first => exact absurd first other
  | phi instruction isPhi =>
      exact lead.insertAt (fun _ => block.leading_all _) fun notPhi => by
        cases isPhi.symm.trans notPhi
  | rephi register changes =>
      refine List.pairwise_map.mpr (lead.imp fun {first second} leads => ?_)
      rw [Instruction.rephi_isPhi changes, Instruction.rephi_isPhi changes]
      exact leads

/-! ## Slots -/

theorem LeadsTo.insertAt (leads : block.LeadsTo register type)
    {position : Nat} {instruction : Instruction}
    (behind : instruction.operation.isAlloca = true ∨
      instruction.operation.isPhi = true ∨
      ∀ slot ∈ block.instructions.drop position,
        slot.operation.isAlloca = false) :
    (block.insertAt position instruction).LeadsTo register type := by
  obtain ⟨before, name, after, split, each⟩ := leads
  unfold LeadsTo Block.insertAt
  rw [split] at behind ⊢
  by_cases early : position ≤ before.length
  · rw [List.take_append_of_le_length early,
      List.drop_append_of_le_length early] at *
    have isKind : instruction.operation.isAlloca = true ∨
        instruction.operation.isPhi = true := by
      rcases behind with isAlloca | isPhi | others
      · exact .inl isAlloca
      · exact .inr isPhi
      · have slot := others ⟨register, name, .alloca type⟩ (by simp)
        cases slot
    refine ⟨before.take position ++ instruction :: before.drop position, name,
      after, by simp, ?_⟩
    intro earlier member
    rcases List.mem_append.mp member with old | new
    · exact each earlier (List.mem_of_mem_take old)
    · rcases List.mem_cons.mp new with rfl | old
      · exact isKind
      · exact each earlier (List.mem_of_mem_drop old)
  · obtain ⟨further, rfl⟩ :=
      Nat.exists_eq_add_of_lt (Nat.lt_of_not_le early)
    refine ⟨before, name, after.take further ++
      instruction :: after.drop further, ?_, each⟩
    rw [Nat.add_assoc, List.take_length_add_append,
      List.drop_length_add_append]
    simp

theorem LeadsTo.turns (turns : block.Turns index later)
    (leads : block.LeadsTo register type) : later.LeadsTo register type := by
  cases turns with
  | stays => exact leads
  | grows instruction notPhi cursor =>
      refine leads.insertAt (.inr (.inr fun slot member => ?_))
      rcases cursor.drop_eq with none | ⟨last, one, ending⟩
      · rw [none] at member
        cases member
      · rw [one, List.mem_singleton] at member
        subst member
        cases operation : slot.operation <;> simp_all [Operation.isAlloca,
          Operation.isTerminator]
  | slot instruction isAlloca first => exact leads.insertAt (.inl isAlloca)
  | phi instruction isPhi => exact leads.insertAt (.inr (.inl isPhi))
  | @rephi other change changes =>
      obtain ⟨before, name, after, split, each⟩ := leads
      refine ⟨before.map (Instruction.rephi other change), name,
        after.map (Instruction.rephi other change), ?_, ?_⟩
      · unfold Block.rephi
        rw [split, List.map_append, List.map_cons,
          Instruction.rephi_of_not_isPhi changes rfl]
      · intro earlier member
        obtain ⟨old, oldMember, rfl⟩ := List.mem_map.mp member
        rcases each old oldMember with isAlloca | isPhi
        · rw [Instruction.rephi_of_not_isPhi changes]
          · exact .inl isAlloca
          · cases operation : old.operation <;>
              simp_all [Operation.isAlloca, Operation.isPhi]
        · rw [Instruction.rephi_isPhi changes]
          exact .inr isPhi

/-- A slot that is put after the slots that open a block. -/
theorem leadsTo_insertAt (block : Block) (register : Register)
    (type : IrType) (name : String) :
    (block.insertAt (block.leading Operation.isAlloca)
      ⟨register, name, .alloca type⟩).LeadsTo register type :=
  ⟨_, name, _, rfl, fun earlier member =>
    .inl (block.leading_all _ earlier member)⟩

/-- No access to memory precedes a slot. -/
theorem LeadsTo.precedes (leads : block.LeadsTo register type) :
    ∃ (place : Nat) (name : String), block.instructions[place]? =
        some ⟨register, name, .alloca type⟩ ∧
      ∀ (other : Nat) (access : Instruction), block.instructions[other]? = some access →
        access.operation.accessesMemory = true → place < other := by
  obtain ⟨before, name, after, split, each⟩ := leads
  refine ⟨before.length, name, by simp [split], ?_⟩
  intro other access found accesses
  by_contra early
  rcases Nat.lt_or_eq_of_le (Nat.le_of_not_lt early) with inside | rfl
  · rw [split, List.getElem?_append_left inside] at found
    have kind := each access (List.mem_of_getElem? found)
    cases operation : access.operation <;>
      simp_all [Operation.accessesMemory, Operation.isAlloca,
        Operation.isPhi]
  · rw [split, List.getElem?_append_right (Nat.le_refl _), Nat.sub_self]
      at found
    cases found
    cases accesses

end Block

end Ir

namespace Draft

variable {start later : Draft} {events : List Event}

/-- In every block but the first of a function the phis come first. -/
theorem Trace.phisLead (trace : Trace start events later)
    (lead : ∀ id block, start.module.block? id = some block →
      id.index ≠ 0 → block.PhisLead) :
    ∀ id block, later.module.block? id = some block →
      id.index ≠ 0 → block.PhisLead := by
  refine trace.everyBlock (fun index block => index ≠ 0 → block.PhisLead)
    (fun turns lead other => (lead other).turns turns other) ?_ lead
  intro index block empty _
  unfold Block.PhisLead
  rw [empty]
  exact .nil

/-- Every slot that was made stands in the first block of its function, with
nothing but slots and phis ahead of it. -/
theorem Trace.slots (trace : Trace start events later) {register : Register}
    {type : IrType} (noted : .slot register type ∈ events) :
    ∃ block, later.module.block? ⟨register.function, 0⟩ = some block ∧
      block.LeadsTo register type := by
  refine trace.noted (fun event draft => ∀ register type,
    event = .slot register type →
      ∃ block, draft.module.block? ⟨register.function, 0⟩ = some block ∧
        block.LeadsTo register type) ?_ ?_ _ noted register type rfl
  · intro draft events later step event member register type same
    subst same
    cases step with
    | slot type name entered =>
        cases List.mem_singleton.mp member
        obtain ⟨block, found⟩ := Option.isSome_iff_exists.mp entered
        obtain ⟨final, inserts⟩ := Module.block?_insertInstruction
          (·.leading Operation.isAlloca) (.alloca type) name found
        exact ⟨_, inserts, block.leadsTo_insertAt _ type final⟩
    | address found known cursor type name =>
        cases List.mem_singleton.mp member
    | _ => cases member
  · intro draft events later step event holds register type same
    exact step.keepsIn (Block.LeadsTo register type)
      (fun turns leads => leads.turns turns) (holds register type same)

end Draft

end FormCompiler
