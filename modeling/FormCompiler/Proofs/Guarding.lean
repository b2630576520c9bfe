import FormCompiler.Proofs.CallEffects
import FormCompiler.Proofs.Detours
import FormCompiler.Proofs.ExceptionEdges

/-!
# Guarded emission

While a body is emitted, the module stays guarded: loops are left for blocks
that are no pads, and the handlers that calls unwind to are pads of the
function.  Emission does not touch what is known already.  No pad is put into
a block that is there, and a function gets one block at most that cleans up.

What an emission may rely on is listed by landmarks: blocks that it was given
to branch to or to unwind to.  A landmark that is shown once stays shown.
-/

namespace FormCompiler

open Ir

/-- What is known of a block, or of the personality. -/
inductive Landmark where
  | opened (block : BlockId)
  | pad (block : BlockId)
  | under (personality : Personality)

def Landmark.Shows (environment : Environment) (state : EmitState) :
    Landmark → Prop
  | .opened block => block.function = state.builder.function ∧
      state.builder.module.IsTarget block
  | .pad block => block.function = state.builder.function ∧
      state.builder.module.IsPad block
  | .under personality =>
      environment.configuration.personality = some personality

/-- The blocks that calls may unwind to. -/
def UnwindTargets.blocks (targets : UnwindTargets) : List BlockId :=
  targets.landingPads ++ targets.dispatches ++ targets.cleanup.toList

namespace EmitState

variable {environment : Environment} {uses : List NameUse}
  {marks : List Landmark} {state later last : EmitState}

/-- All landmarks are shown. -/
def Shows (environment : Environment) (marks : List Landmark)
    (state : EmitState) : Prop :=
  ∀ mark ∈ marks, mark.Shows environment state

/-- The module is guarded, and so is all that emission may add to it. -/
structure Guarded (environment : Environment) (state : EmitState) :
    Prop where
  module : state.builder.module.Guarded environment.configuration.personality
  known : state.builder.function < state.builder.module.functions.length
  place : ∀ block, state.builder.block = some block →
    block.function = state.builder.function
  loops : ∀ targets ∈ state.context.loops, state.Shows environment
    [.opened targets.breakTo, .opened targets.continueTo]
  handlers : ∀ block ∈ state.unwindTargets.blocks,
    (Landmark.pad block).Shows environment state

/-- What is known of blocks and functions stays, and where loops and
exceptions lead; a function gets one block at most that cleans up. -/
structure Follows (state later : EmitState) : Prop where
  respects : state.builder.module.Respects later.builder.module
  unwinding : ∀ id, (later.builder.module.function id).unwinding =
    (state.builder.module.function id).unwinding
  names : state.builder.module.functions.map Function.name <+:
    later.builder.module.functions.map Function.name
  function : later.builder.function = state.builder.function
  loops : later.context.loops = state.context.loops
  landingPads :
    later.unwindTargets.landingPads = state.unwindTargets.landingPads
  dispatches :
    later.unwindTargets.dispatches = state.unwindTargets.dispatches
  cleanup : ∀ block, state.unwindTargets.cleanup = some block →
    later.unwindTargets.cleanup = some block
  cleanups : ∀ id, later.builder.module.IsCleanup id →
    state.builder.module.IsCleanup id ∨
      state.unwindTargets.cleanup = none ∧
        later.unwindTargets.cleanup = some id

theorem Follows.refl (state : EmitState) : state.Follows state :=
  ⟨.refl _, fun _ => rfl, List.prefix_refl _, rfl, rfl, rfl, rfl,
    fun _ same => same, fun _ old => .inl old⟩

theorem Follows.trans (first : state.Follows later)
    (second : later.Follows last) : state.Follows last where
  respects := first.respects.trans second.respects
  unwinding id := (second.unwinding id).trans (first.unwinding id)
  names := first.names.trans second.names
  function := second.function.trans first.function
  loops := second.loops.trans first.loops
  landingPads := second.landingPads.trans first.landingPads
  dispatches := second.dispatches.trans first.dispatches
  cleanup block same := second.cleanup block (first.cleanup block same)
  cleanups id isCleanup := by
    rcases second.cleanups id isCleanup with old | ⟨none, some⟩
    · rcases first.cleanups id old with older | ⟨none, some⟩
      · exact .inl older
      · exact .inr ⟨none, second.cleanup id some⟩
    · refine .inr ⟨?_, some⟩
      cases found : state.unwindTargets.cleanup with
      | none => rfl
      | some block => exact nomatch none.symm.trans (first.cleanup block found)

theorem Follows.shows (follows : state.Follows later)
    (shows : state.Shows environment marks) :
    later.Shows environment marks := by
  intro mark member
  have shown := shows mark member
  cases mark with
  | opened block =>
      exact ⟨shown.1.trans follows.function.symm,
        follows.respects.opens block shown.2⟩
  | pad block =>
      exact ⟨shown.1.trans follows.function.symm,
        follows.respects.pads block shown.2⟩
  | under personality => exact shown

/-- Names were used as accounted for, what happened is a trace, and a guarded
state stays guarded where the landmarks are shown. -/
structure Keeps (marks : List Landmark) (environment : Environment)
    (uses : List NameUse) (state later : EmitState) : Prop where
  uses : state.Uses environment uses later
  evolves : state.Evolves environment [] later
  follows : state.Follows later
  guarded : state.Guarded environment → state.Shows environment marks →
    later.Guarded environment

instance : Graded (Keeps marks) where
  refl environment state := ⟨Graded.refl environment state,
    Graded.refl environment state, .refl state, fun guarded _ => guarded⟩
  trans first second := ⟨Graded.trans first.uses second.uses,
    Graded.trans first.evolves second.evolves,
    first.follows.trans second.follows, fun guarded shows =>
      second.guarded (first.guarded guarded shows)
        (first.follows.shows shows)⟩
  mono subperm keeps := ⟨Graded.mono subperm keeps.uses, keeps.evolves,
    keeps.follows, keeps.guarded⟩

/-- Code is added, with pads in new blocks only. -/
theorem Follows.of_flows {added : List (BlockId × Operation)}
    (flows : state.builder.module.Flows added later.builder.module)
    (function : later.builder.function = state.builder.function)
    (loops : later.context.loops = state.context.loops)
    (landingPads :
      later.unwindTargets.landingPads = state.unwindTargets.landingPads)
    (dispatches :
      later.unwindTargets.dispatches = state.unwindTargets.dispatches)
    (cleanup : ∀ block, state.unwindTargets.cleanup = some block →
      later.unwindTargets.cleanup = some block)
    (fresh : ∀ entry ∈ added, entry.2.isPad = true →
      state.builder.module.block? entry.1 = none)
    (cleanups : ∀ entry ∈ added, entry.2.isCleanup = true →
      state.unwindTargets.cleanup = none ∧
        later.unwindTargets.cleanup = some entry.1) :
    state.Follows later where
  respects := flows.respects fresh
  unwinding id := (flows.functions id).unwinding
  names := flows.names
  function := function
  loops := loops
  landingPads := landingPads
  dispatches := dispatches
  cleanup := cleanup
  cleanups id isCleanup := by
    refine (flows.isCleanup isCleanup).imp_right ?_
    rintro ⟨operation, member, cleanup⟩
    exact cleanups _ member cleanup

/-- Code is added that fits. -/
theorem Guarded.of_flows {added : List (BlockId × Operation)}
    (guarded : state.Guarded environment) (follows : state.Follows later)
    (flows : state.builder.module.Flows added later.builder.module)
    (place : ∀ block, later.builder.block = some block →
      block.function = state.builder.function)
    (fits : ∀ entry ∈ added, later.builder.module.Fits
      environment.configuration.personality entry.1 entry.2)
    (handlers : ∀ block ∈ later.unwindTargets.blocks,
      block ∈ state.unwindTargets.blocks ∨
        (Landmark.pad block).Shows environment later) :
    later.Guarded environment := by
  constructor
  · exact guarded.module.flows flows follows.respects fits
  · rw [follows.function]
    exact guarded.known.trans_le flows.count
  · intro block placed
    rw [follows.function]
    exact place block placed
  · intro entry member
    rw [follows.loops] at member
    exact follows.shows (guarded.loops entry member)
  · intro block member
    rcases handlers block member with old | new
    · have pads : state.Shows environment [.pad block] :=
        List.forall_mem_singleton.mpr (guarded.handlers block old)
      exact follows.shows pads _ List.mem_cons_self
    · exact new

/-- Code is added that fits, with pads in new blocks only, and none that
cleans up. -/
theorem Keeps.of_flows {added : List (BlockId × Operation)}
    (names : state.Uses environment uses later)
    (evolves : state.Evolves environment [] later)
    (flows : state.builder.module.Flows added later.builder.module)
    (function : later.builder.function = state.builder.function)
    (loops : later.context.loops = state.context.loops)
    (targets : later.unwindTargets = state.unwindTargets)
    (fresh : ∀ entry ∈ added, entry.2.isPad = true →
      state.builder.module.block? entry.1 = none)
    (noCleanup : ∀ entry ∈ added, entry.2.isCleanup = false)
    (place : state.Guarded environment → state.Shows environment marks →
      ∀ block, later.builder.block = some block →
        block.function = state.builder.function)
    (fits : state.Guarded environment → later.Shows environment marks →
      ∀ entry ∈ added, later.builder.module.Fits
        environment.configuration.personality entry.1 entry.2) :
    state.Keeps marks environment uses later := by
  have follows : state.Follows later := by
    refine .of_flows flows function loops (by rw [targets]) (by rw [targets])
      (fun block same => by rw [targets, same]) fresh ?_
    intro entry member cleanup
    exact absurd (cleanup.symm.trans (noCleanup entry member)) nofun
  refine ⟨names, evolves, follows, fun guarded shows => ?_⟩
  refine guarded.of_flows follows flows (place guarded shows)
    (fits guarded (follows.shows shows)) fun block member => ?_
  rw [targets] at member
  exact .inl member

theorem Keeps.weaken {fewer : List Landmark}
    (keeps : state.Keeps fewer environment uses later)
    (shows : state.Guarded environment → state.Shows environment marks →
      state.Shows environment fewer) :
    state.Keeps marks environment uses later :=
  ⟨keeps.uses, keeps.evolves, keeps.follows, fun guarded shown =>
    keeps.guarded guarded (shows guarded shown)⟩

theorem Plainly.keeps (plainly : state.Plainly environment uses later) :
    state.Keeps marks environment uses later := by
  refine .of_flows plainly.uses plainly.evolves plainly.builder.module
    plainly.builder.function plainly.loops plainly.unwindTargets (by simp)
    (by simp) ?_ (by simp)
  intro guarded _ block placed
  exact guarded.place block (plainly.builder.block.symm.trans placed)

end EmitState

variable {Result Other Item : Type} {uses : List NameUse}
  {marks fewer : List Landmark}

theorem Does.keeps {emission : Emission Result}
    (does : Does EmitState.Plainly uses emission) :
    Does (EmitState.Keeps marks) uses emission :=
  fun environment state => (does environment state).keeps

theorem Tries.keeps {Error : Type} {handler : ExceptT Error Emission Result}
    (tries : Tries EmitState.Plainly uses handler) :
    Tries (EmitState.Keeps marks) uses handler :=
  Does.keeps tries

/-- Further landmarks may be relied on. -/
theorem Does.relying {emission : Emission Result}
    (does : Does (EmitState.Keeps fewer) uses emission)
    (subset : fewer ⊆ marks) : Does (EmitState.Keeps marks) uses emission :=
  fun environment state => (does environment state).weaken fun _ shows mark
    member => shows mark (subset member)

/-- Asking for the personality makes it known. -/
theorem Does.personality {next : Option Personality → Emission Result}
    (without : Does (EmitState.Keeps marks) uses (next none))
    (within : ∀ personality, Does
      (EmitState.Keeps (.under personality :: marks)) uses
      (next (some personality))) :
    Does (EmitState.Keeps marks) uses (personality? >>= next) := by
  refine .look (fun _ _ => rfl) fun environment state => ?_
  cases found : environment.configuration.personality with
  | none => exact without environment state
  | some personality =>
      refine (within personality environment state).weaken fun _ shows => ?_
      exact List.forall_mem_cons.mpr ⟨found, shows⟩

/-! ## Blocks that are shown -/

/-- An emission that shows further landmarks. -/
def Opens (marks : List Landmark) (shown : Result → List Landmark)
    (emission : Emission Result) : Prop :=
  ∀ environment state,
    state.Keeps marks environment [] (emission environment state).2 ∧
      (state.Guarded environment → state.Shows environment marks →
        (emission environment state).2.Shows environment
          (shown (emission environment state).1))

/-- The landmarks that are shown may be relied on afterwards, and what is
known of every result. -/
theorem Does.openingKnown {emission : Emission Result}
    {next : Result → Emission Other} {shown : Result → List Landmark}
    {good : Result → Prop} (opens : Opens marks shown emission)
    (yields : Yields emission good)
    (rest : ∀ result, good result →
      Does (EmitState.Keeps (shown result ++ marks)) uses (next result)) :
    Does (EmitState.Keeps marks) uses (emission >>= next) := by
  intro environment state
  obtain ⟨first, shows⟩ := opens environment state
  have second := rest (emission environment state).1
    (yields environment state) environment (emission environment state).2
  refine ⟨Graded.trans first.uses second.uses,
    Graded.trans first.evolves second.evolves,
    first.follows.trans second.follows, fun guarded given => ?_⟩
  refine second.guarded (first.guarded guarded given) ?_
  exact List.forall_mem_append.mpr
    ⟨shows guarded given, first.follows.shows given⟩

theorem Does.opening {emission : Emission Result}
    {next : Result → Emission Other} {shown : Result → List Landmark}
    (opens : Opens marks shown emission)
    (rest : ∀ result, Does (EmitState.Keeps (shown result ++ marks)) uses
      (next result)) :
    Does (EmitState.Keeps marks) uses (emission >>= next) := by
  have anything : Yields emission fun _ => True := fun _ _ => trivial
  exact openingKnown opens anything fun result _ => rest result

namespace Opens

variable {shown : Result → List Landmark} {shownLater : Other → List Landmark}
  {emission : Emission Result} {next : Result → Emission Other}

theorem bind (first : Opens marks shown emission)
    (rest : ∀ result, Opens (shown result ++ marks) shownLater
      (next result)) :
    Opens marks shownLater (emission >>= next) := by
  intro environment state
  refine ⟨Does.opening first (fun result environment state =>
    (rest result environment state).1) environment state, ?_⟩
  intro guarded given
  obtain ⟨early, shows⟩ := first environment state
  refine (rest _ environment _).2 (early.guarded guarded given) ?_
  exact List.forall_mem_append.mpr
    ⟨shows guarded given, early.follows.shows given⟩

/-- An emission that shows nothing first. -/
theorem step (first : Does (EmitState.Keeps marks) [] emission)
    (rest : ∀ result, Opens marks shownLater (next result)) :
    Opens marks shownLater (emission >>= next) := by
  have nothing : Opens marks (fun _ => []) emission := fun environment state =>
    ⟨first environment state, fun _ _ => List.forall_mem_nil _⟩
  exact nothing.bind rest

theorem pure {result : Result} (subset : shown result ⊆ marks) :
    Opens marks shown (Pure.pure result) := by
  intro environment state
  exact ⟨Does.pure result environment state, fun _ shows mark member =>
    shows mark (subset member)⟩

theorem relying (opens : Opens fewer shown emission)
    (subset : fewer ⊆ marks) : Opens marks shown emission := by
  intro environment state
  obtain ⟨keeps, shows⟩ := opens environment state
  have given (shown : state.Shows environment marks) :
      state.Shows environment fewer :=
    fun mark member => shown mark (subset member)
  exact ⟨keeps.weaken fun _ => given,
    fun guarded shown => shows guarded (given shown)⟩

/-- Landmarks for every element of a list. -/
theorem mapM {act : Item → Emission Result}
    (each : ∀ item, Opens marks shown (act item)) (items : List Item) :
    Opens marks (fun results => results.flatMap shown) (items.mapM act) := by
  induction items with
  | nil => exact .pure (List.nil_subset _)
  | cons item items ih =>
      rw [List.mapM_cons]
      refine (each item).bind fun result => ?_
      refine (ih.relying (List.subset_append_right _ _)).bind fun results => ?_
      refine .pure ?_
      rw [List.flatMap_cons]
      grind

end Opens

theorem opens_appendBlock (name : String) :
    Opens marks (fun block => [.opened block])
      (liftM (Builder.appendBlock name) : Emission BlockId) := by
  intro environment state
  refine ⟨(does_onBuilder (Builder.computes_appendBlock name)).keeps
    environment state, fun guarded _ => ?_⟩
  exact List.forall_mem_singleton.mpr
    ⟨rfl, Module.appendBlock_isTarget guarded.known name⟩

/-- Adding a block that is branched to later. -/
theorem Does.append {name : String} {next : BlockId → Emission Result}
    (rest : ∀ block, Does (EmitState.Keeps (.opened block :: marks)) uses
      (next block)) :
    Does (EmitState.Keeps marks) uses
      ((liftM (Builder.appendBlock name) : Emission BlockId) >>= next) :=
  .opening (opens_appendBlock name) rest

/-! ## Going on -/

theorem keeps_positionAtEnd {block : BlockId}
    (member : .opened block ∈ marks) :
    Does (EmitState.Keeps marks) []
      (liftM (Builder.positionAtEnd block) : Emission Unit) := by
  intro environment state
  refine .of_flows ⟨[], .refl [], .refl _⟩
    (.of_advances (Builder.advances_positionAtEnd block state.builder))
    (.refl _) rfl rfl rfl (by simp) (by simp) ?_ (by simp)
  intro guarded shows other placed
  cases placed
  exact (shows _ member).1

/-- Adding code that fits where the landmarks are shown. -/
theorem keeps_filling {Adds : Operation → Prop} {operation : Build Result}
    (filling : Builder.Filling Adds operation)
    (noPad : ∀ added, Adds added → added.isPad = false)
    (fits : ∀ (environment : Environment) (state : EmitState)
      (block : BlockId) (added : Operation),
      state.Shows environment marks →
      block.function = state.builder.function → Adds added →
      state.builder.module.Fits environment.configuration.personality block
        added) :
    Does (EmitState.Keeps marks) [] (onBuilder operation) := by
  intro environment state
  obtain ⟨drafts, ⟨added, flows, each⟩, function⟩ := filling state.builder
  refine .of_flows ⟨[], .refl [], .refl _⟩ (.of_advances drafts.traces) flows
    function rfl rfl ?_ ?_ ?_ ?_
  · intro entry member pad
    rw [noPad _ (each entry member).2] at pad
    cases pad
  · intro entry member
    refine Bool.eq_false_iff.mpr fun cleanup => ?_
    have pad := Operation.isPad_of_isCleanup cleanup
    rw [noPad _ (each entry member).2] at pad
    cases pad
  · intro guarded _ other placed
    exact guarded.place other (drafts.block.symm.trans placed)
  · intro guarded shows entry member
    obtain ⟨placed, adds⟩ := each entry member
    exact fits environment _ entry.1 entry.2 shows
      ((guarded.place _ placed).trans function.symm) adds

theorem keeps_branch {target : BlockId} (member : .opened target ∈ marks) :
    Does (EmitState.Keeps marks) []
      (liftM (Builder.branch target) : Emission Unit) := by
  refine keeps_filling (Builder.filling_branch target) ?_ ?_
  · rintro _ rfl
    rfl
  · rintro environment state block _ shows - rfl
    refine ⟨rfl, nofun, ?_⟩
    exact List.forall_mem_singleton.mpr (shows _ member).2

theorem keeps_branchIf (condition : Value) {thenTarget elseTarget : BlockId}
    (thenMember : .opened thenTarget ∈ marks)
    (elseMember : .opened elseTarget ∈ marks) :
    Does (EmitState.Keeps marks) []
      (liftM (Builder.branchIf condition thenTarget elseTarget) :
        Emission Unit) := by
  refine keeps_filling
    (Builder.filling_branchIf condition thenTarget elseTarget) ?_ ?_
  · rintro _ ⟨_, rfl⟩
    rfl
  · rintro environment state block _ shows - ⟨_, rfl⟩
    refine ⟨rfl, nofun, ?_⟩
    exact List.forall_mem_cons.mpr ⟨(shows _ thenMember).2,
      List.forall_mem_singleton.mpr (shows _ elseMember).2⟩

/-- Calls that may unwind need a personality. -/
theorem keeps_invoke (personality : Personality) (callee : Value)
    (arguments : List Value) {normal unwind : BlockId} (name : String)
    (under : .under personality ∈ marks) (opened : .opened normal ∈ marks)
    (pad : .pad unwind ∈ marks) :
    Does (EmitState.Keeps marks) []
      (liftM (Builder.invoke callee arguments normal unwind name) :
        Emission (Option Value)) := by
  refine keeps_filling
    (Builder.filling_invoke callee arguments normal unwind name) ?_ ?_
  · rintro _ ⟨_, _, _, _, _, rfl⟩
    rfl
  · rintro environment state block _ shows inside
      ⟨_, _, _, _, _, rfl⟩
    refine ⟨?_, ?_, ?_⟩
    · have found : environment.configuration.personality = some personality :=
        shows _ under
      rw [found]
      rfl
    · rintro target ⟨⟩
      obtain ⟨function, isPad⟩ := shows _ pad
      exact ⟨function.trans inside.symm, isPad⟩
    · exact List.forall_mem_singleton.mpr (shows _ opened).2

/-! ## Loops, handlers and scopes -/

/-- A loop is around a body and not around what follows. -/
theorem keeps_inLoop {targets : LoopTargets} {body : Emission Unit}
    (breakMember : .opened targets.breakTo ∈ marks)
    (continueMember : .opened targets.continueTo ∈ marks)
    (does : Does (EmitState.Keeps marks) uses body) :
    Does (EmitState.Keeps marks) uses (do
      modifyContext (·.pushLoop targets)
      body
      modifyContext (·.popLoop)) := by
  intro environment state
  let inner : EmitState :=
    { state with context := state.context.pushLoop targets }
  obtain ⟨⟨used, fits, touches⟩, evolves, follows, guards⟩ :=
    does environment inner
  have enters : state.Evolves environment [] inner :=
    .of_same rfl rfl fun _ => id
  have back : (body environment inner).2.context.loops.tail =
      state.context.loops := by
    rw [follows.loops]
    rfl
  refine ⟨⟨used, fits, ?_⟩, Graded.trans enters
    (Graded.trans evolves (.of_same rfl rfl fun _ => id)), ?_, ?_⟩
  · have pushes : FunctionContext.Touches [] state.context inner.context :=
      .done ⟨rfl, rfl, rfl, rfl, rfl, rfl⟩
    have pops : FunctionContext.Touches []
        (body environment inner).2.context
        (body environment inner).2.context.popLoop :=
      .done ⟨rfl, rfl, rfl, rfl, rfl, rfl⟩
    have all := (pushes.trans touches).trans pops
    rw [List.nil_append, List.append_nil] at all
    exact all
  · exact ⟨follows.respects, follows.unwinding, follows.names,
      follows.function, back, follows.landingPads, follows.dispatches,
      follows.cleanup, follows.cleanups⟩
  · intro guarded shows
    have innerGuarded : inner.Guarded environment := by
      refine ⟨guarded.module, guarded.known, guarded.place, ?_,
        guarded.handlers⟩
      refine List.forall_mem_cons.mpr ⟨?_, guarded.loops⟩
      exact List.forall_mem_cons.mpr ⟨shows _ breakMember,
        List.forall_mem_singleton.mpr (shows _ continueMember)⟩
    have later := guards innerGuarded shows
    exact ⟨later.module, later.known, later.place, fun entry member =>
      later.loops entry (List.mem_of_mem_tail member), later.handlers⟩

/-- Calls unwind to one more handler. -/
def UnwindTargets.guardedBy (targets : UnwindTargets)
    (personality : Personality) (handler : BlockId) : UnwindTargets :=
  match personality with
  | .itanium =>
      { targets with landingPads := handler :: targets.landingPads }
  | .seh => { targets with dispatches := handler :: targets.dispatches }

/-- A handler protects a body and not what follows. -/
theorem keeps_protectedBy {personality : Personality} {handler : BlockId}
    {body : Emission Unit} (member : .pad handler ∈ marks)
    (does : Does (EmitState.Keeps marks) uses body) :
    Does (EmitState.Keeps marks) uses
      (protectedBy personality handler body) := by
  intro environment state
  let targets := state.unwindTargets
  let inner : EmitState :=
    { state with unwindTargets := targets.guardedBy personality handler }
  obtain ⟨names, evolves, follows, guards⟩ := does environment inner
  have enters : state.Evolves environment [] inner :=
    .of_same rfl rfl fun _ => id
  have innerGuarded (guarded : state.Guarded environment)
      (shows : state.Shows environment marks) : inner.Guarded environment := by
    refine ⟨guarded.module, guarded.known, guarded.place, guarded.loops, ?_⟩
    intro block blockMember
    have split : block = handler ∨ block ∈ targets.blocks := by
      cases personality <;>
        simpa [inner, UnwindTargets.guardedBy, UnwindTargets.blocks, or_assoc,
          or_left_comm] using blockMember
    rcases split with rfl | old
    · exact shows _ member
    · exact guarded.handlers block old
  cases personality with
  | itanium =>
      refine ⟨names, Graded.trans enters (Graded.trans evolves
        (.of_same rfl rfl fun _ => id)), ?_, fun guarded shows => ?_⟩
      · exact ⟨follows.respects, follows.unwinding, follows.names,
          follows.function, follows.loops,
          congrArg List.tail follows.landingPads, follows.dispatches,
          follows.cleanup, follows.cleanups⟩
      · have later := guards (innerGuarded guarded shows) shows
        refine ⟨later.module, later.known, later.place, later.loops, ?_⟩
        intro block blockMember
        refine later.handlers block ?_
        rw [UnwindTargets.blocks, List.mem_append, List.mem_append]
          at blockMember ⊢
        exact blockMember.imp_left (.imp_left List.mem_of_mem_tail)
  | seh =>
      refine ⟨names, Graded.trans enters (Graded.trans evolves
        (.of_same rfl rfl fun _ => id)), ?_, fun guarded shows => ?_⟩
      · exact ⟨follows.respects, follows.unwinding, follows.names,
          follows.function, follows.loops, follows.landingPads,
          congrArg List.tail follows.dispatches, follows.cleanup,
          follows.cleanups⟩
      · have later := guards (innerGuarded guarded shows) shows
        refine ⟨later.module, later.known, later.place, later.loops, ?_⟩
        intro block blockMember
        refine later.handlers block ?_
        rw [UnwindTargets.blocks, List.mem_append, List.mem_append]
          at blockMember ⊢
        exact blockMember.imp_left (.imp_right List.mem_of_mem_tail)

theorem keeps_inScope {emission : Emission Unit}
    (does : Does (EmitState.Keeps marks) uses emission) :
    Does (EmitState.Keeps marks) uses (inScope emission) := by
  intro environment state
  obtain ⟨⟨used, fits, touches⟩, evolves, follows, guards⟩ := does environment
    { state with context := state.context.enterScope }
  refine ⟨⟨used, fits, .scope touches⟩, ?_, ?_, fun guarded shows => ?_⟩
  · have enters : state.Evolves environment []
        { state with context := state.context.enterScope } :=
      .of_same rfl rfl fun _ => id
    refine Graded.trans enters (Graded.trans evolves (.of_same rfl rfl ?_))
    rintro slot ⟨name, entry, member, same⟩
    have kept : entry ∈ FunctionContext.unwound state.context.depth _ :=
      FunctionContext.stack_unwindTo _ _ name ▸ member
    exact ⟨name, entry, (List.dropWhile_suffix _).mem kept, same⟩
  · exact ⟨follows.respects, follows.unwinding, follows.names,
      follows.function,
      (FunctionContext.loops_unwindTo _ _).trans follows.loops,
      follows.landingPads, follows.dispatches, follows.cleanup,
      follows.cleanups⟩
  · have inner : EmitState.Guarded environment
        { state with context := state.context.enterScope } :=
      ⟨guarded.module, guarded.known, guarded.place, guarded.loops,
        guarded.handlers⟩
    have later := guards inner shows
    refine ⟨later.module, later.known, later.place, ?_, later.handlers⟩
    intro entry member
    exact later.loops entry (FunctionContext.loops_unwindTo _ _ ▸ member)

/-! ## Blocks that pass exceptions on -/

namespace EmitState

variable {environment : Environment} {state later : EmitState}

/-- Code was added to one new block, and building goes on where it was. -/
structure Detours (block : BlockId) (Adds : Operation → Prop)
    (state later : EmitState) : Prop where
  module : ∃ added, state.builder.module.Flows added later.builder.module ∧
    ∀ entry ∈ added, entry.1 = block ∧ Adds entry.2
  fresh : state.builder.module.block? block = none
  inside : block.function = state.builder.function
  function : later.builder.function = state.builder.function
  place : later.builder.block = state.builder.block
  context : later.context = state.context
  unwindTargets : later.unwindTargets = state.unwindTargets
  evolves : ∀ environment, state.Evolves environment [] later

variable {block : BlockId} {Adds : Operation → Prop}

theorem Detours.names (detours : state.Detours block Adds later) :
    state.Uses environment [] later := by
  refine ⟨[], .refl [], ?_⟩
  rw [detours.context]
  exact .refl _

theorem Detours.keeps (detours : state.Detours block Adds later)
    {personality : Personality}
    (passesOn : ∀ operation, Adds operation →
      operation.PassesOn personality ∧ operation.isCleanup = false) :
    state.Keeps (.under personality :: marks) environment [] later := by
  obtain ⟨added, flows, each⟩ := detours.module
  refine .of_flows detours.names (detours.evolves environment) flows
    detours.function (congrArg FunctionContext.loops detours.context) detours.unwindTargets
    ?_ ?_ ?_ ?_
  · intro entry member _
    rw [(each entry member).1]
    exact detours.fresh
  · intro entry member
    exact (passesOn entry.2 (each entry member).2).2
  · intro guarded _ block placed
    exact guarded.place block (detours.place.symm.trans placed)
  · intro guarded shows entry member
    have found : environment.configuration.personality = some personality :=
      shows _ List.mem_cons_self
    rw [found]
    exact .of_passesOn (passesOn entry.2 (each entry member).2).1

end EmitState

/-- Fills a new block and comes back. -/
def fillElsewhere (name : String) (fill : Build Unit) : Emission BlockId := do
  let block ← Builder.appendBlock name
  elsewhere do
    Builder.positionAtEnd block
    fill
  pure block

section Elsewhere

variable {Adds : Operation → Prop} {fill : Build Unit}

theorem detours_fillElsewhere
    (filling : ∀ block, Builder.FillingAt block Adds fill) (name : String)
    (environment : Environment) (state : EmitState) :
    state.Detours (fillElsewhere name fill environment state).1 Adds
      (fillElsewhere name fill environment state).2 := by
  let block := (Builder.appendBlock name state.builder).1
  let appended := (Builder.appendBlock name state.builder).2
  let placed := (Builder.positionAtEnd block appended).2
  obtain ⟨drafts, ⟨added, flows, each⟩, -⟩ := filling block placed rfl
  obtain ⟨module, function, back⟩ :=
    Builder.restore_save appended (fill placed).2
  have appends := Builder.computes_appendBlock name state.builder
  have positions : appended.Advances placed :=
    Builder.advances_positionAtEnd block appended
  refine ⟨⟨added, ?_, ?_⟩, Module.block?_appendBlock _ _ name, rfl,
    function.trans appends.function, back.trans appends.block, rfl, rfl,
    fun environment => ?_⟩
  · have whole := appends.module.trans flows
    rw [← module] at whole
    exact whole
  · intro entry member
    obtain ⟨same, adds⟩ := each entry member
    exact ⟨(Option.some.inj same).symm, adds⟩
  · let there : EmitState := { state with builder := appended }
    let filled : EmitState := { state with builder := (fill placed).2 }
    have fills : there.Evolves environment [] filled :=
      .of_advances (Trans.trans positions drafts.traces)
    have adds : state.Evolves environment [] there :=
      .of_advances appends.traces
    exact Graded.trans adds
      (EmitState.evolves_restored fun steady => (fills steady).2)

/-- A pad that is put into a block elsewhere is there. -/
theorem isPad_fillElsewhere
    (pads : ∀ block, Builder.PaddingAt block fill) (name : String)
    {environment : Environment} {state : EmitState}
    (guarded : state.Guarded environment) :
    (fillElsewhere name fill environment state).2.builder.module.IsPad
      (fillElsewhere name fill environment state).1 := by
  let block := (Builder.appendBlock name state.builder).1
  let appended := (Builder.appendBlock name state.builder).2
  let placed := (Builder.positionAtEnd block appended).2
  have known := (Module.appendBlock_isTarget guarded.known name).1
  have pad := pads block placed rfl known
  exact pad.of_functions_eq
    (congrArg Module.functions (Builder.restore_save appended _).1)

end Elsewhere

/-- Passes an exception on from a landing pad. -/
def resuming : Build Unit := do
  let pad ← Builder.landingPad true [] "lpad"
  Builder.resume pad

theorem filling_resuming (block : BlockId) :
    Builder.FillingAt block
      (fun operation => operation.PassesOn .itanium ∧
        operation.isCleanup = false) resuming := by
  refine .bind (.weaken (Builder.filling_landingPad true [] "lpad") ?_)
    fun pad => .of_filling
      (Builder.filling_insertEffect ⟨⟨rfl, rfl, rfl⟩, rfl⟩ rfl)
  rintro _ ⟨_, _, rfl⟩
  exact ⟨⟨rfl, rfl, rfl⟩, rfl⟩

theorem paddingAt_resuming (block : BlockId) :
    Builder.PaddingAt block resuming :=
  .followed (Builder.paddingAt_landingPad true [] "lpad") fun _ =>
    Builder.flows_insertEffect rfl

theorem resumingPad_eq : resumingPad = (do
    let id ← freshId
    fillElsewhere s!"panic.lpad.{id}" resuming) :=
  rfl

theorem opens_resumingPad :
    Opens (.under .itanium :: marks) (fun block => [.pad block])
      resumingPad := by
  rw [resumingPad_eq]
  refine .step does_freshId.keeps fun id environment state => ?_
  have detours := detours_fillElsewhere filling_resuming s!"panic.lpad.{id}"
    environment state
  refine ⟨detours.keeps fun _ adds => adds, fun guarded _ => ?_⟩
  refine List.forall_mem_singleton.mpr
    ⟨detours.inside.trans detours.function.symm, ?_⟩
  exact isPad_fillElsewhere paddingAt_resuming _ guarded

/-- Passes an exception on from a cleanup pad. -/
def returning : Build Unit := do
  let outside ← Builder.constantNone
  let pad ← Builder.cleanupPad outside [] "cp"
  Builder.cleanupReturn pad none

theorem returningPad_eq :
    returningPad = fillElsewhere "seh.cleanup" returning := by
  rfl

theorem filling_returning (block : BlockId) :
    Builder.FillingAt block (·.PassesOn .seh) returning := by
  refine .bind (.of_computes Builder.computes_constantNone) fun outside => ?_
  refine .bind (.of_filling (Builder.filling_insertPad ⟨rfl, rfl, rfl⟩ rfl
    "cp"))
    fun pad => ?_
  exact .of_filling (Builder.filling_insertEffect ⟨rfl, rfl, rfl⟩ rfl)

theorem paddingAt_returning (block : BlockId) :
    Builder.PaddingAt block returning := by
  refine .after Builder.computes_constantNone fun outside => ?_
  exact .followed (Builder.paddingAt_insertPad rfl "cp") fun _ =>
    Builder.flows_insertEffect rfl

/-- The state once a block that cleans up is there. -/
def EmitState.withCleanup (state : EmitState) (block : BlockId) : EmitState :=
  { state with
    unwindTargets := { state.unwindTargets with cleanup := some block } }

theorem cleanupFunclet_apply (environment : Environment) (state : EmitState) :
    cleanupFunclet environment state =
      match state.unwindTargets.cleanup with
      | some block => (block, state)
      | none =>
          let (block, later) :=
            fillElsewhere "seh.cleanup" returning environment state
          (block, later.withCleanup block) := by
  unfold cleanupFunclet
  rw [returningPad_eq]
  show (match state.unwindTargets.cleanup with
    | some block => (pure block : Emission BlockId)
    | none => _) environment state = _
  cases state.unwindTargets.cleanup <;> rfl

theorem EmitState.Detours.keeps_cleanup {environment : Environment}
    {state later : EmitState} {block : BlockId}
    (detours : state.Detours block (·.PassesOn .seh) later)
    (missing : state.unwindTargets.cleanup = none)
    (pad : state.Guarded environment → later.builder.module.IsPad block) :
    state.Keeps (.under .seh :: marks) environment []
      (later.withCleanup block) := by
  obtain ⟨added, flows, each⟩ := detours.module
  have targets := detours.unwindTargets
  have follows : state.Follows (later.withCleanup block) := by
    refine .of_flows flows detours.function
      (congrArg FunctionContext.loops detours.context) ?_ ?_ ?_ ?_ ?_
    · exact congrArg (·.landingPads) targets
    · exact congrArg (·.dispatches) targets
    · intro other same
      exact nomatch missing.symm.trans same
    · intro entry member _
      rw [(each entry member).1]
      exact detours.fresh
    · intro entry member _
      exact ⟨missing, congrArg some (each entry member).1.symm⟩
  have names : state.Uses environment [] later := detours.names
  have places : later.Evolves environment [] (later.withCleanup block) :=
    .of_same rfl rfl fun _ => id
  refine ⟨names, Graded.trans (detours.evolves environment) places, follows,
    fun guarded shows => ?_⟩
  refine guarded.of_flows follows flows ?_ ?_ ?_
  · intro other placed
    exact guarded.place other (detours.place.symm.trans placed)
  · intro entry member
    have found : environment.configuration.personality = some .seh :=
      shows _ List.mem_cons_self
    rw [found]
    exact .of_passesOn (each entry member).2
  · intro other member
    rw [UnwindTargets.blocks, List.mem_append] at member
    rcases member with old | new
    · rw [follows.landingPads, follows.dispatches] at old
      exact .inl (List.mem_append_left _ old)
    · cases List.mem_singleton.mp new
      exact .inr ⟨detours.inside.trans detours.function.symm, pad guarded⟩

/-- A function gets one block that cleans up, and it stays. -/
theorem opens_cleanupFunclet :
    Opens (.under .seh :: marks) (fun block => [.pad block])
      cleanupFunclet := by
  intro environment state
  rw [cleanupFunclet_apply]
  cases found : state.unwindTargets.cleanup with
  | some block =>
      refine ⟨Graded.refl environment state, fun guarded _ => ?_⟩
      refine List.forall_mem_singleton.mpr (guarded.handlers block ?_)
      simp [UnwindTargets.blocks, found]
  | none =>
      have detours := detours_fillElsewhere filling_returning "seh.cleanup"
        environment state
      have pad (guarded : state.Guarded environment) :=
        isPad_fillElsewhere paddingAt_returning "seh.cleanup" guarded
      generalize fillElsewhere "seh.cleanup" returning environment state =
        outcome at detours pad ⊢
      obtain ⟨block, later⟩ := outcome
      refine ⟨detours.keeps_cleanup found pad, fun guarded _ => ?_⟩
      exact List.forall_mem_singleton.mpr
        ⟨detours.inside.trans detours.function.symm, pad guarded⟩

/-- The innermost handler, if there is one. -/
theorem opens_innermost (handlers : UnwindTargets → List BlockId)
    (inside : ∀ targets, handlers targets ⊆ targets.blocks)
    {otherwise : Emission BlockId}
    (opens : Opens marks (fun block => [.pad block]) otherwise) :
    Opens marks (fun block => [.pad block]) (do
      let targets := (← get).unwindTargets
      match handlers targets with
      | handler :: _ => pure handler
      | [] => otherwise) := by
  intro environment state
  rw [emission_get_bind]
  dsimp only
  cases found : handlers state.unwindTargets with
  | nil => exact opens environment state
  | cons handler rest =>
      refine ⟨Graded.refl environment state, fun guarded _ => ?_⟩
      refine List.forall_mem_singleton.mpr (guarded.handlers handler ?_)
      exact inside _ (found ▸ List.mem_cons_self)

/-- Calls unwind to pads. -/
theorem opens_unwindTarget (personality : Personality) :
    Opens (.under personality :: marks) (fun block => [.pad block])
      (unwindTarget personality) := by
  cases personality with
  | itanium =>
      refine opens_innermost UnwindTargets.landingPads (fun targets => ?_)
        opens_resumingPad
      exact List.Subset.trans (List.subset_append_left _ _)
        (List.subset_append_left _ _)
  | seh =>
      refine opens_innermost UnwindTargets.dispatches (fun targets => ?_)
        opens_cleanupFunclet
      exact List.Subset.trans (List.subset_append_right _ _)
        (List.subset_append_left _ _)

end FormCompiler
