import FormCompiler.Emit.FunctionContext

/-!
# What happens to names

Emission changes what it knows of names in a few ways only.  A name is given
the result of an instruction, bound to some other value, backed by a slot or
made to stand for a variable, and a scope is entered and left again.  Every
change of a context is a sequence of such steps, and it is accounted for by
the list of the uses that were made of names.

From the list alone it follows which names have slots and how often a name was
given a result.
-/

namespace FormCompiler

/-- A use that an instruction makes of a name. -/
inductive NameUse where
  /-- The name is given the result of the instruction. -/
  | published (name : String)
  /-- The name has a slot because it is mutable. -/
  | backed (name : String)
  /-- The name has a slot because the instruction asks for one. -/
  | slotted (name : String)
  | bound (name : String)
  /-- The name stands for a variable that it initialized. -/
  | aliased (name : String)
deriving DecidableEq, Repr

def NameUse.name : NameUse → String
  | .published name | .backed name | .slotted name | .bound name
  | .aliased name => name

namespace FunctionContext

variable {context later last : FunctionContext}

/-! ## Slots -/

/-- The slots of a name, the innermost first. -/
def stack (context : FunctionContext) (name : String) : List ScopedSlot :=
  (context.slotStacks.find? name).getD []

/-- The slots that are left of a stack when scopes below a depth are left. -/
def unwound (depth : Nat) (stack : List ScopedSlot) : List ScopedSlot :=
  stack.dropWhile fun entry => depth < entry.depth

theorem unwound_idem (depth : Nat) (stack : List ScopedSlot) :
    unwound depth (unwound depth stack) = unwound depth stack := by
  unfold unwound
  induction stack with
  | nil => rfl
  | cons entry stack ih =>
      rw [List.dropWhile_cons]
      split
      · exact ih
      · next outer => rw [List.dropWhile_cons, if_neg outer]

theorem slot?_eq (context : FunctionContext) (name : String) :
    context.slot? name = (context.stack name).head?.map ScopedSlot.slot := by
  unfold slot? innermost? stack
  cases context.slotStacks.find? name <;> rfl

theorem stack_pushSlot (context : FunctionContext) (name other : String)
    (slot : Ir.Value) (type : TypeId) :
    (context.pushSlot name slot type).stack other =
      if other = name then ⟨context.depth, slot, type⟩ :: context.stack name
      else context.stack other := by
  unfold stack pushSlot
  rw [NameMap.find?_insert]
  split <;> rfl

theorem stack_unwindName (depth : Nat) (context : FunctionContext)
    (name other : String) :
    (context.unwindName depth name).stack other =
      if other = name then unwound depth (context.stack name)
      else context.stack other := by
  unfold unwindName
  dsimp only
  split
  · next same =>
      -- A suffix as long as the whole is the whole.
      have all : unwound depth (context.stack name) = context.stack name :=
        (List.dropWhile_suffix _).eq_of_length same
      split
      · next this => rw [this, all]
      · rfl
  · split
    · unfold stack
      rw [NameMap.find?_insert]
      split <;> rfl
    · next kept =>
        unfold stack
        rw [NameMap.find?_erase]
        split
        · exact kept.symm
        · rfl

/-- A value is lost with the last slot of its name. -/
theorem value?_unwindName (depth : Nat) (context : FunctionContext)
    (name other : String)
    (kept : context.stack other = [] ∨
      unwound depth (context.stack other) ≠ []) :
    (context.unwindName depth name).value? other = context.value? other := by
  unfold unwindName
  dsimp only
  split
  · rfl
  · next dropped =>
      split
      · rfl
      · next gone =>
          unfold value?
          rw [NameMap.find?_erase, if_neg]
          rintro rfl
          rcases kept with empty | some
          · exact dropped (by rw [show (context.slotStacks.find? other).getD
              [] = [] from empty]; rfl)
          · exact some gone

theorem aliases_unwindName (depth : Nat) (context : FunctionContext)
    (name : String) :
    (context.unwindName depth name).aliases = context.aliases := by
  unfold unwindName
  dsimp only
  repeat' split
  all_goals rfl

theorem mutableNames_unwindName (depth : Nat) (context : FunctionContext)
    (name : String) :
    (context.unwindName depth name).mutableNames = context.mutableNames := by
  unfold unwindName
  dsimp only
  repeat' split
  all_goals rfl

theorem history_unwindName (depth : Nat) (context : FunctionContext)
    (name : String) :
    (context.unwindName depth name).history = context.history := by
  unfold unwindName
  dsimp only
  repeat' split
  all_goals rfl

theorem loops_unwindName (depth : Nat) (context : FunctionContext)
    (name : String) :
    (context.unwindName depth name).loops = context.loops := by
  unfold unwindName
  dsimp only
  repeat' split
  all_goals rfl

/-- What no unwinding of a name changes, leaving a scope does not change. -/
theorem unwindTo_eq {Part : Type} {part : FunctionContext → Part}
    {depth : Nat}
    (unwinds : ∀ context name,
      part (context.unwindName depth name) = part context)
    (leaves : ∀ context : FunctionContext,
      part { context with depth } = part context)
    (context : FunctionContext) :
    part (context.unwindTo depth) = part context := by
  have unwound (names : List String) : part (names.foldl
      (fun context name => context.unwindName depth name) context) =
      part context := by
    induction names generalizing context with
    | nil => rfl
    | cons name names ih =>
        rw [List.foldl_cons, ih, unwinds]
  unfold unwindTo
  rw [leaves, unwound]

theorem aliases_unwindTo (context : FunctionContext) (depth : Nat) :
    (context.unwindTo depth).aliases = context.aliases :=
  unwindTo_eq (aliases_unwindName depth) (fun _ => rfl) context

theorem mutableNames_unwindTo (context : FunctionContext) (depth : Nat) :
    (context.unwindTo depth).mutableNames = context.mutableNames :=
  unwindTo_eq (mutableNames_unwindName depth) (fun _ => rfl) context

theorem history_unwindTo (context : FunctionContext) (depth : Nat) :
    (context.unwindTo depth).history = context.history :=
  unwindTo_eq (history_unwindName depth) (fun _ => rfl) context

theorem loops_unwindTo (context : FunctionContext) (depth : Nat) :
    (context.unwindTo depth).loops = context.loops :=
  unwindTo_eq (loops_unwindName depth) (fun _ => rfl) context

/-- Leaving scopes takes the slots that they own from every name. -/
theorem stack_unwindTo (context : FunctionContext) (depth : Nat)
    (name : String) :
    (context.unwindTo depth).stack name =
      unwound depth (context.stack name) := by
  have folded (names : List String) (context : FunctionContext) :
      (names.foldl (fun context name => context.unwindName depth name)
        context).stack name =
        if name ∈ names then unwound depth (context.stack name)
        else context.stack name := by
    induction names generalizing context with
    | nil => rfl
    | cons first names ih =>
        rw [List.foldl_cons, ih, stack_unwindName]
        by_cases same : name = first
        · simp [same, unwound_idem]
        · simp [same]
  show (context.slotStacks.names.foldl _ context).stack name = _
  rw [folded]
  split
  · rfl
  · next missing =>
      have nothing : context.stack name = [] := by
        unfold stack NameMap.find?
        rw [List.lookup_eq_none_iff.mpr, Option.getD_none]
        intro entry member
        have different : entry.1 ≠ name := fun same =>
          missing (List.mem_map.mpr ⟨entry, member, same⟩)
        simpa using fun same : name = entry.1 => different same.symm
      rw [nothing]
      rfl

theorem value?_unwindTo (context : FunctionContext) (depth : Nat)
    (name : String)
    (kept : context.stack name = [] ∨
      unwound depth (context.stack name) ≠ []) :
    (context.unwindTo depth).value? name = context.value? name := by
  have folded (names : List String) (context : FunctionContext)
      (kept : context.stack name = [] ∨
        unwound depth (context.stack name) ≠ []) :
      (names.foldl (fun context name => context.unwindName depth name)
        context).value? name = context.value? name := by
    induction names generalizing context with
    | nil => rfl
    | cons first names ih =>
        rw [List.foldl_cons, ih, value?_unwindName depth context first name
          kept]
        rw [stack_unwindName]
        split
        · next same =>
            rw [unwound_idem, ← same]
            rcases kept with empty | some
            · exact .inl (by rw [empty]; rfl)
            · exact .inr some
        · exact kept
  exact folded _ context kept

/-! ## Steps -/

/-- Contexts that agree on all that is known of names. -/
structure SameNames (context later : FunctionContext) : Prop where
  values : later.values = context.values
  aliases : later.aliases = context.aliases
  slotStacks : later.slotStacks = context.slotStacks
  mutableNames : later.mutableNames = context.mutableNames
  depth : later.depth = context.depth
  history : later.history = context.history

/-- A context becomes another one by steps that make certain uses of names. -/
inductive Touches : List NameUse → FunctionContext → FunctionContext → Prop
  | done {context later : FunctionContext} :
      context.SameNames later → Touches [] context later
  | publish (context : FunctionContext) (name : String) (value : Ir.Value)
      (type : TypeId) :
      Touches [.published name] context (context.publish name value type)
  | back {context : FunctionContext} {name : String} (slot : Ir.Value)
      (type : TypeId) : context.isMutable name = true →
      Touches [.backed name] context (context.pushSlot name slot type)
  | slot (context : FunctionContext) (name : String) (slot : Ir.Value)
      (type : TypeId) :
      Touches [.slotted name] context (context.pushSlot name slot type)
  | bind (context : FunctionContext) (name : String) (value : Ir.Value)
      (type : TypeId) :
      Touches [.bound name] context (context.bind name value type)
  | rename (context : FunctionContext) (initial target : String) :
      Touches [.aliased initial] context (context.setAlias initial target)
  | scope {used : List NameUse} {context later : FunctionContext} :
      Touches used context.enterScope later →
      Touches used context (later.unwindTo context.depth)
  | trans {first second : List NameUse}
      {context later last : FunctionContext} : Touches first context later →
      Touches second later last → Touches (first ++ second) context last

variable {used : List NameUse}

theorem Touches.refl (context : FunctionContext) :
    Touches [] context context :=
  .done ⟨rfl, rfl, rfl, rfl, rfl, rfl⟩

theorem Touches.mutableNames (touches : Touches used context later) :
    later.mutableNames = context.mutableNames := by
  induction touches with
  | done same => exact same.mutableNames
  | publish | back | slot | bind | rename => rfl
  | scope _ ih => exact (mutableNames_unwindTo _ _).trans ih
  | trans _ _ first second => exact second.trans first

theorem Touches.depth (touches : Touches used context later) :
    later.depth = context.depth := by
  induction touches with
  | done same => exact same.depth
  | publish | back | slot | bind | rename | scope => rfl
  | trans _ _ first second => exact second.trans first

theorem isMutable_of_mutableNames_eq {name : String}
    (same : later.mutableNames = context.mutableNames) :
    later.isMutable name = context.isMutable name := by
  rw [isMutable, isMutable, same]

/-- A slot that is asked for is one that a mutable name has anyway. -/
def asBacked (name : String) (use : NameUse) : NameUse :=
  if use = .slotted name then .backed name else use

theorem Touches.asBacked {name : String}
    (touches : Touches used context later)
    (mutable : context.isMutable name = true) :
    Touches (used.map (asBacked name)) context later := by
  induction touches with
  | done same => exact .done same
  | publish => exact .publish ..
  | back slot type backed => exact .back slot type backed
  | slot context other slot type =>
      rw [List.map_singleton, FunctionContext.asBacked]
      split
      · next same =>
          cases same
          exact .back slot type mutable
      · exact .slot ..
  | bind => exact .bind ..
  | rename => exact .rename ..
  | scope _ ih => exact .scope (ih mutable)
  | trans first second ih laterIh =>
      rw [List.map_append]
      refine (ih mutable).trans (laterIh ?_)
      rwa [isMutable_of_mutableNames_eq first.mutableNames]

/-! ## What is remembered of names -/

/-- The history of a context grew by results and slots that were accounted
for, each result as often as it was given. -/
structure Remembers (used : List NameUse) (context later : FunctionContext)
    (events : List NameEvent) : Prop where
  history : later.history = context.history ++ events
  published : ∀ name, events.count (.published name) =
    used.count (.published name)
  slotted : ∀ name, .slotted name ∈ events →
    .slotted name ∈ used ∨ context.isMutable name = true

theorem Touches.remembers (touches : Touches used context later) :
    ∃ events, Remembers used context later events := by
  induction touches with
  | done same =>
      exact ⟨[], by rw [same.history, List.append_nil], fun _ => rfl, nofun⟩
  | publish context name =>
      refine ⟨[.published name], rfl, fun other => ?_, by simp⟩
      simp [List.count_singleton]
  | @back _ name _ _ mutable =>
      refine ⟨[.slotted name], rfl, fun other => by simp, ?_⟩
      intro other member
      cases List.mem_singleton.mp member
      exact .inr mutable
  | slot _ name =>
      refine ⟨[.slotted name], rfl, fun other => by simp, ?_⟩
      intro other member
      cases List.mem_singleton.mp member
      exact .inl List.mem_cons_self
  | bind | rename =>
      exact ⟨[], (List.append_nil _).symm, by simp, nofun⟩
  | scope _ ih =>
      obtain ⟨events, remembers⟩ := ih
      exact ⟨events, (history_unwindTo _ _).trans remembers.history,
        remembers.published, remembers.slotted⟩
  | trans first second ih laterIh =>
      obtain ⟨events, remembers⟩ := ih
      obtain ⟨more, further⟩ := laterIh
      refine ⟨events ++ more, ?_, ?_, ?_⟩
      · rw [further.history, remembers.history, List.append_assoc]
      · intro name
        rw [List.count_append, List.count_append, remembers.published,
          further.published]
      · intro name member
        rw [List.mem_append]
        rcases List.mem_append.mp member with early | late
        · exact (remembers.slotted name early).imp_left .inl
        · refine (further.slotted name late).imp .inr fun mutable => ?_
          rwa [isMutable_of_mutableNames_eq first.mutableNames] at mutable

/-- Every slot that a name has is remembered. -/
def Recorded (context : FunctionContext) : Prop :=
  ∀ name, context.stack name ≠ [] → .slotted name ∈ context.history

theorem Recorded.pushSlot (recorded : context.Recorded) (name : String)
    (slot : Ir.Value) (type : TypeId) :
    (context.pushSlot name slot type).Recorded := by
  intro other nonempty
  show NameEvent.slotted other ∈ context.history ++ [.slotted name]
  rw [stack_pushSlot] at nonempty
  by_cases same : other = name
  · rw [same]
    exact List.mem_append_right _ List.mem_cons_self
  · rw [if_neg same] at nonempty
    exact List.mem_append_left _ (recorded other nonempty)

theorem Touches.recorded (touches : Touches used context later)
    (recorded : context.Recorded) : later.Recorded := by
  induction touches with
  | done same =>
      intro name nonempty
      rw [same.history]
      rw [stack, same.slotStacks] at nonempty
      exact recorded name nonempty
  | publish context name =>
      intro other nonempty
      exact List.mem_append_left _ (recorded other nonempty)
  | back slot type => exact recorded.pushSlot _ slot type
  | slot context name slot type => exact recorded.pushSlot name slot type
  | bind | rename => exact recorded
  | scope _ ih =>
      intro name nonempty
      rw [history_unwindTo]
      refine ih recorded name fun empty => nonempty ?_
      rw [stack_unwindTo, empty]
      rfl
  | trans _ _ first second => exact second (first recorded)

end FunctionContext

end FormCompiler
