import FormCompiler.Proofs.Joins
import FormCompiler.Proofs.NameUses

/-!
# States of the emission of a function

Every value and type that the emission of a function holds on to is well
typed; the blocks that control may escape to, out of loops and protected
bodies, are blocks of the function; and the matches emitted so far are joined
or wait for the edges of their phis.

Most steps are quiet.  They leave the cursor where it is and may provide for
blocks to escape to, but add nothing that leads to an existing block.
-/

namespace FormCompiler

open Ir

/-! ## Names in scope -/

/-- Every value and type in scope is of the table. -/
structure FunctionContext.Known (table : TypeTable)
    (context : FunctionContext) : Prop where
  values : ∀ name value, context.value? name = some value →
    value.Typed table
  types : ∀ name type, context.type? name = some type → table.Has type
  slots : ∀ name stack, context.slotStacks.find? name = some stack →
    ∀ entry ∈ stack, entry.slot.Typed table ∧ table.Has entry.type

namespace FunctionContext.Known

variable {table later : TypeTable} {context : FunctionContext}

theorem mono (known : context.Known table) (closed : table.Closed)
    (grows : table.Grows later) : context.Known later := by
  refine ⟨?_, ?_, ?_⟩
  · intro name value found
    exact (known.values name value found).mono closed grows
  · intro name type found
    exact (known.types name type found).mono grows
  · intro name stack found entry member
    obtain ⟨slot, type⟩ := known.slots name stack found entry member
    exact ⟨slot.mono closed grows, type.mono grows⟩

theorem ofMutableNames (table : TypeTable) (names : List String) :
    (FunctionContext.ofMutableNames names).Known table := by
  refine ⟨?_, ?_, ?_⟩
  · rintro name value ⟨⟩
  · rintro name type ⟨⟩
  · rintro name stack ⟨⟩

theorem slot (known : context.Known table) {name : String} {slot : Value}
    (found : context.slot? name = some slot) : slot.Typed table := by
  obtain ⟨entry, innermost, rfl⟩ := Option.map_eq_some_iff.mp found
  obtain ⟨stack, stackFound, head⟩ := Option.bind_eq_some_iff.mp innermost
  exact (known.slots name stack stackFound entry
    (List.mem_of_head? head)).1

theorem ownSlot (known : context.Known table) {name : String} {slot : Value}
    (found : context.ownSlot? name = some slot) : slot.Typed table := by
  obtain ⟨entry, own, rfl⟩ := Option.map_eq_some_iff.mp found
  have innermost : context.slot? name = some entry.slot := by
    rw [slot?, (Option.filter_eq_some_iff.mp own).1]
    rfl
  exact known.slot innermost

theorem bind (known : context.Known table) (name : String) {value : Value}
    (typed : value.Typed table) {type : TypeId} (has : table.Has type) :
    (context.bind name value type).Known table := by
  refine ⟨?_, ?_, known.slots⟩
  · intro other found
    unfold value? FunctionContext.bind
    rw [NameMap.find?_insert]
    split
    · rintro ⟨⟩
      exact typed
    · exact known.values other found
  · intro other found
    unfold type? FunctionContext.bind
    rw [NameMap.find?_insert]
    split
    · rintro ⟨⟩
      exact has
    · exact known.types other found

theorem publish (known : context.Known table) (name : String) {value : Value}
    (typed : value.Typed table) {type : TypeId} (has : table.Has type) :
    (context.publish name value type).Known table :=
  let bound := known.bind name typed has
  ⟨bound.values, bound.types, bound.slots⟩

theorem setAlias (known : context.Known table) (initial target : String) :
    (context.setAlias initial target).Known table :=
  ⟨known.values, known.types, known.slots⟩

theorem recordDefinition (known : context.Known table) (name : String)
    (form : Form) : (context.recordDefinition name form).Known table :=
  ⟨known.values, known.types, known.slots⟩

theorem pushSlot (known : context.Known table) (name : String)
    {slot : Value} (typed : slot.Typed table) {type : TypeId}
    (has : table.Has type) :
    (context.pushSlot name slot type).Known table := by
  refine ⟨known.values, ?_, ?_⟩
  · intro other found
    unfold type? FunctionContext.pushSlot
    rw [NameMap.find?_insert]
    split
    · rintro ⟨⟩
      exact has
    · exact known.types other found
  · intro other stack
    unfold FunctionContext.pushSlot
    rw [NameMap.find?_insert]
    split
    · rintro ⟨⟩
      rw [List.forall_mem_cons]
      refine ⟨⟨typed, has⟩, ?_⟩
      intro entry member
      cases found : context.slotStacks.find? name with
      | none =>
          rw [found] at member
          cases member
      | some outer =>
          rw [found] at member
          exact known.slots name outer found entry member
    · exact known.slots other stack

theorem enterScope (known : context.Known table) :
    context.enterScope.Known table :=
  ⟨known.values, known.types, known.slots⟩

theorem unwindName (known : context.Known table) (depth : Nat)
    (name : String) : (context.unwindName depth name).Known table := by
  unfold FunctionContext.unwindName
  dsimp only
  split
  · exact known
  · have entries : ∀ entry ∈ ((context.slotStacks.find? name).getD
        []).dropWhile fun entry => depth < entry.depth,
        entry.slot.Typed table ∧ table.Has entry.type := by
      intro entry member
      have inside := (List.dropWhile_sublist _).subset member
      cases found : context.slotStacks.find? name with
      | none =>
          rw [found] at inside
          cases inside
      | some stack =>
          rw [found] at inside
          exact known.slots name stack found entry inside
    split
    · next outer rest kept =>
        rw [kept] at entries
        refine ⟨known.values, ?_, ?_⟩
        · intro other type
          unfold type?
          rw [NameMap.find?_insert]
          split
          · rintro ⟨⟩
            exact (entries outer List.mem_cons_self).2
          · exact known.types other type
        · intro other stack
          rw [NameMap.find?_insert]
          split
          · rintro ⟨⟩
            rw [kept]
            exact entries
          · exact known.slots other stack
    · refine ⟨?_, ?_, ?_⟩
      · intro other value
        unfold value?
        rw [NameMap.find?_erase]
        split
        · rintro ⟨⟩
        · exact known.values other value
      · intro other type
        unfold type?
        rw [NameMap.find?_erase]
        split
        · rintro ⟨⟩
        · exact known.types other type
      · intro other stack
        rw [NameMap.find?_erase]
        split
        · rintro ⟨⟩
        · exact known.slots other stack

theorem unwindTo (known : context.Known table) (depth : Nat) :
    (context.unwindTo depth).Known table := by
  have unwound (names : List String) : (names.foldl
      (fun context name => context.unwindName depth name)
      context).Known table := by
    induction names generalizing context with
    | nil => exact known
    | cons name names ih => exact ih (known.unwindName depth name)
  have all := unwound context.slotStacks.names
  exact ⟨all.values, all.types, all.slots⟩

end FunctionContext.Known

/-! ## Invariants -/

/-- What is emitted where: the function whose body it is, and what all
instructions see. -/
structure Scene where
  environment : Environment
  home : FunctionId

namespace EmitState

def table (state : EmitState) : TypeTable := state.builder.module.types

/-- Control may escape to a block from inside a loop or a body whose
exceptions are caught, or after an exception. -/
def Escapes (state : EmitState) (block : BlockId) : Prop :=
  (∃ targets ∈ state.context.loops,
    block = targets.breakTo ∨ block = targets.continueTo) ∨
  block ∈ state.unwindTargets.landingPads ∨
  block ∈ state.unwindTargets.dispatches ∨
  state.unwindTargets.cleanup = some block

/-- A match that ended at a block is joined, or waits for its edges. -/
structure Settled (home : FunctionId) (state : EmitState)
    (join : BlockId × TypeId) : Prop where
  known : (state.builder.module.block? join.1).isSome = true
  notFirst : join.1.index ≠ 0
  has : state.table.Has join.2
  aside : ¬state.Escapes join.1
  settled : Joined state.builder.module state.pendingPhis join.1 join.2 ∨
    (join.1.function = home ∧ ∃ pending ∈ state.pendingPhis,
      Awaits state.builder.module join.1 join.2 pending)

/-- What stays true while the body of a function is emitted. -/
structure Sound (scene : Scene) (state : EmitState) : Prop where
  context : state.context.Known state.table
  layouts : scene.environment.layouts.Known state.table
  pending : ∀ pending ∈ state.pendingPhis,
    pending.Known state.builder.module
  apart : state.pendingPhis.Pairwise PendingPhi.Apart
  coroutine : ∀ value ∈ state.coroutineId, value.Typed state.table
  escapes : ∀ block, state.Escapes block → block.function = scene.home ∧
    (state.builder.module.block? block).isSome = true
  matchEnds : ∀ join ∈ state.matchEnds, state.Settled scene.home join

/-- The next instruction may be built. -/
structure Ready (scene : Scene) (state : EmitState) : Prop extends
    Sound scene state where
  builder : state.builder.Ready

/-- Neither the cursor nor control flow changes. -/
structure Quiet (state later : EmitState) : Prop where
  builder : state.builder.Quiet later.builder
  escapes : ∀ block, later.Escapes block → state.Escapes block ∨
    state.builder.module.block? block = none
  matchEnds : later.matchEnds = state.matchEnds
  pendingPhis : state.pendingPhis <+: later.pendingPhis

variable {scene : Scene} {home : FunctionId}
  {state later last : EmitState}

theorem Quiet.refl (state : EmitState) : state.Quiet state :=
  ⟨Builder.Quiet.refl _, fun _ escapes => .inl escapes, rfl,
    List.prefix_refl _⟩

theorem Quiet.trans (first : state.Quiet later) (second : later.Quiet last) :
    state.Quiet last := by
  refine ⟨first.builder.trans second.builder, ?_,
    second.matchEnds.trans first.matchEnds,
    first.pendingPhis.trans second.pendingPhis⟩
  intro block escapes
  rcases second.escapes block escapes with earlier | fresh
  · exact first.escapes block earlier
  · exact .inr (first.builder.module.develops.missing fresh)

instance : Std.Refl Quiet := ⟨Quiet.refl⟩

instance : Trans Quiet Quiet Quiet := ⟨Quiet.trans⟩

theorem Quiet.grows (quiet : state.Quiet later) :
    state.table.Grows later.table := quiet.builder.module.types

/-- Where the module develops and nothing new leads to the end of a match,
the match stays settled. -/
theorem Settled.mono {join : BlockId × TypeId}
    (settled : state.Settled home join) (closed : state.table.Closed)
    (develops : state.builder.module.Develops later.builder.module)
    (noMore : ∀ source, later.builder.module.Leads source join.1 →
      state.builder.module.Leads source join.1)
    (pendingPhis : later.pendingPhis = state.pendingPhis)
    (aside : ¬later.Escapes join.1) : later.Settled home join := by
  refine ⟨develops.known settled.known, settled.notFirst,
    settled.has.mono develops.types, aside, ?_⟩
  rw [pendingPhis]
  rcases settled.settled with joined | ⟨inside, pending, member, awaits⟩
  · exact .inl (joined.mono develops closed settled.has settled.notFirst
      noMore)
  · refine .inr ⟨inside, pending, member, ?_⟩
    exact awaits.mono develops closed settled.has settled.notFirst noMore

/-- Only the builder changes. -/
theorem Sound.withBuilder (sound : state.Sound scene)
    (closed : state.table.Closed) {builder : Builder}
    (develops : state.builder.module.Develops builder.module)
    (noMore : ∀ join ∈ state.matchEnds, ∀ source,
      builder.module.Leads source join.1 →
        state.builder.module.Leads source join.1) :
    ({ state with builder } : EmitState).Sound scene := by
  refine ⟨sound.context.mono closed develops.types,
    sound.layouts.mono develops.types, ?_, sound.apart, ?_, ?_, ?_⟩
  · intro pending member
    exact (sound.pending pending member).mono closed develops
  · intro value member
    exact (sound.coroutine value member).mono closed develops.types
  · intro block escapes
    obtain ⟨inside, known⟩ := sound.escapes block escapes
    exact ⟨inside, develops.known known⟩
  · intro join member
    have settled := sound.matchEnds join member
    exact settled.mono closed develops (noMore join member) rfl settled.aside

/-- Only the names in scope change, and control escapes as before. -/
theorem Sound.withContext (sound : state.Sound scene)
    {context : FunctionContext} (known : context.Known state.table)
    (loops : ∀ targets ∈ context.loops, targets ∈ state.context.loops) :
    ({ state with context } : EmitState).Sound scene := by
  have fewer : ∀ block, ({ state with context } : EmitState).Escapes block →
      state.Escapes block := by
    rintro block (⟨targets, member, leads⟩ | others)
    · exact .inl ⟨targets, loops targets member, leads⟩
    · exact .inr others
  refine ⟨known, sound.layouts, sound.pending, sound.apart, sound.coroutine,
    fun block escapes => sound.escapes block (fewer block escapes), ?_⟩
  intro join member
  have settled := sound.matchEnds join member
  exact ⟨settled.known, settled.notFirst, settled.has,
    fun escapes => settled.aside (fewer _ escapes), settled.settled⟩

end EmitState

end FormCompiler
