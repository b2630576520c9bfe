import FormCompiler.Emit.Emission
import FormCompiler.Proofs.ControlFlow

/-!
# Phis that join the ways into a block

The block that a match ends at starts with a phi.  While the body of the
function is emitted the phi has no edges, and a pending phi holds a source for
every block that leads to it; once the edges are added, there is one for each
of these blocks.  Either way nothing else may lead to the block any more.
-/

namespace FormCompiler

open Ir

/-- The register that a pending phi fills. -/
def PendingPhi.register? (pending : PendingPhi) : Option Register :=
  match pending.phi.content with
  | .firstClass (.register register _) => some register
  | _ => none

/-- What is known of a phi whose edges are still to be added. -/
structure PendingPhi.Known (module : Module) (pending : PendingPhi) :
    Prop where
  type : module.types.Has pending.type
  values : ∀ edge ∈ pending.incoming, ∀ value, edge.1 = .value value →
    value.Typed module.types
  register : ∀ register, pending.register? = some register →
    register.index < (module.function register.function).registerCount

variable {module later : Module} {home : FunctionId} {block : BlockId}
  {type : TypeId}

theorem PendingPhi.Known.mono {pending : PendingPhi}
    (known : pending.Known module) (closed : module.types.Closed)
    (develops : module.Develops later) : pending.Known later := by
  refine ⟨known.type.mono develops.types, ?_, ?_⟩
  · intro edge member value same
    exact (known.values edge member value same).mono closed develops.types
  · intro register fills
    exact Nat.lt_of_lt_of_le (known.register register fills)
      (develops.registers register.function)

/-- No two pending phis fill the same register. -/
def PendingPhi.Apart (first second : PendingPhi) : Prop :=
  ∀ register, first.register? = some register →
    second.register? ≠ some register

/-- A block starts with a phi. -/
def StartsWith (module : Module) (block : BlockId) (register : Register)
    (irType : IrType) (edges : List (Operand × BlockId)) : Prop :=
  ∃ inner phi, module.block? block = some inner ∧ inner.phi? = some phi ∧
    phi.register = register ∧ phi.operation = .phi irType edges

theorem StartsWith.mono {register : Register} {irType : IrType}
    {edges : List (Operand × BlockId)}
    (starts : StartsWith module block register irType edges)
    (develops : module.Develops later) (notFirst : block.index ≠ 0) :
    StartsWith later block register irType edges := by
  obtain ⟨inner, phi, found, leads, fills, operation⟩ := starts
  obtain ⟨laterInner, laterFound, grows⟩ := develops.blocks block inner found
  exact ⟨laterInner, phi, laterFound, grows.phi notFirst phi leads, fills,
    operation⟩

/-- The register of a phi is one of its function. -/
theorem StartsWith.bounded {register : Register} {irType : IrType}
    {edges : List (Operand × BlockId)}
    (starts : StartsWith module block register irType edges)
    (sound : module.Sound) :
    register.index < (module.function register.function).registerCount := by
  obtain ⟨inner, phi, found, leads, rfl, -⟩ := starts
  have member : phi ∈ inner.instructions :=
    List.mem_of_head? (Option.filter_eq_some_iff.mp leads).1
  obtain ⟨inside, bounded⟩ := (sound.bodies block.function).registers inner
    (List.mem_of_getElem? found) phi member
  rw [inside]
  exact bounded

/-- Some blocks are those that lead to a block, each once. -/
structure Covers (module : Module) (block : BlockId)
    (sources : List BlockId) : Prop where
  nodup : sources.Nodup
  mem_iff : ∀ source, source ∈ sources ↔ module.Leads source block

theorem Covers.mono {sources : List BlockId}
    (covers : Covers module block sources) (develops : module.Develops later)
    (noMore : ∀ source, later.Leads source block →
      module.Leads source block) : Covers later block sources := by
  refine ⟨covers.nodup, ?_⟩
  intro source
  rw [covers.mem_iff]
  exact ⟨develops.leads, noMore source⟩

theorem Covers.perm {sources others : List BlockId}
    (covers : Covers module block sources) (perm : sources.Perm others) :
    Covers module block others :=
  ⟨perm.nodup covers.nodup, fun source => by
    rw [← perm.mem_iff, covers.mem_iff]⟩

/-- One more block leads to the block, which was open before. -/
theorem Covers.extend {sources : List BlockId} {builder last : Builder}
    {targets : List BlockId} (covers : Covers builder.module block sources)
    (ended : builder.Ended targets last) {source : BlockId}
    (cursor : builder.block = some source)
    (isOpen : builder.module.terminator? source = none)
    (target : block ∈ targets) :
    Covers last.module block (sources ++ [source]) := by
  refine ⟨List.nodup_append.mpr ⟨covers.nodup, List.nodup_singleton _, ?_⟩,
    ?_⟩
  · intro old member other new same
    rw [same, List.mem_singleton.mp new] at member
    obtain ⟨ending, ends, -⟩ := (covers.mem_iff source).mp member
    cases isOpen.symm.trans ends
  · intro other
    rw [List.mem_append, List.mem_singleton, covers.mem_iff]
    constructor
    · rintro (leads | rfl)
      · exact ended.module.leads leads
      · obtain ⟨ending, ends, same⟩ := ended.ended other cursor
        exact ⟨ending, ends, same ▸ target⟩
    · intro leads
      rcases ended.leads leads with old | ⟨current, -⟩
      · exact .inl old
      · exact .inr (Option.some.inj (current.symm.trans cursor))

/-- The instruction type of the phi of a type. -/
abbrev phiType (module : Module) (type : TypeId) : IrType :=
  lowered module.types loweringLevels type

/-- A block starts with a phi that has one edge for each block that leads to
it, each with a value of the type of the phi.  None of the phis whose edges are
still to be added is this one. -/
def Joined (module : Module) (pendingPhis : List PendingPhi)
    (block : BlockId) (type : TypeId) : Prop :=
  (phiType module type).isFirstClass = true → ∃ register edges,
    StartsWith module block register (phiType module type) edges ∧
    Covers module block (edges.map Prod.snd) ∧
    (∀ edge ∈ edges, ∃ value : Value, value.type = type ∧
      value.Typed module.types ∧ edge.1 = value.operand) ∧
    ∀ pending ∈ pendingPhis, pending.register? ≠ some register

/-- A pending phi holds one source for each block that leads to the block it
stands in. -/
structure Awaits (module : Module) (block : BlockId) (type : TypeId)
    (pending : PendingPhi) : Prop where
  agrees : pending.type = type
  starts : ∃ register, pending.register? = some register ∧
    StartsWith module block register (phiType module type) []
  sources : ∃ sources, Covers module block sources ∧
    pending.incoming.map Prod.snd = sources.map module.blockName
  values : ∀ edge ∈ pending.incoming, ∃ value, edge.1 = .value value

section Mono

variable (develops : module.Develops later) (closed : module.types.Closed)
  (has : module.types.Has type) (notFirst : block.index ≠ 0)
  (noMore : ∀ source, later.Leads source block → module.Leads source block)

include develops closed has notFirst noMore

theorem Joined.mono {pendingPhis : List PendingPhi}
    (joined : Joined module pendingPhis block type) :
    Joined later pendingPhis block type := by
  have same := lowered_eq closed develops.types has loweringLevels
  unfold Joined phiType
  rw [same]
  intro firstClass
  obtain ⟨register, edges, starts, covers, typed, unclaimed⟩ :=
    joined firstClass
  refine ⟨register, edges, starts.mono develops notFirst,
    covers.mono develops noMore, ?_, unclaimed⟩
  intro edge member
  obtain ⟨value, sameType, valueTyped, operand⟩ := typed edge member
  exact ⟨value, sameType, valueTyped.mono closed develops.types, operand⟩

theorem Awaits.mono {pending : PendingPhi}
    (awaits : Awaits module block type pending) :
    Awaits later block type pending := by
  have same := lowered_eq closed develops.types has loweringLevels
  obtain ⟨register, fills, starts⟩ := awaits.starts
  obtain ⟨sources, covers, names⟩ := awaits.sources
  refine ⟨awaits.agrees, ⟨register, fills, ?_⟩,
    ⟨sources, covers.mono develops noMore, ?_⟩, awaits.values⟩
  · unfold phiType
    rw [same]
    exact starts.mono develops notFirst
  · rw [names]
    apply List.map_congr_left
    intro source member
    exact (develops.blockName ((covers.mem_iff source).mp member).known).symm

end Mono

end FormCompiler
