import FormCompiler.Proofs.BlockScopes

/-!
# Runs of scopes

A context is changed by binding names, by noting what they stand for, and by
pushing slots; scopes are entered one by one and left several at a time.  In
whatever order this happens, the slots of a name are those that were pushed for
it in scopes that have not been left since, the latest first.

So the slots of a name are ordered by depth, and nothing that happens in a
scope can be seen in the slots once the scope is left.
-/

namespace FormCompiler

open Ir

/-- One change of what is known of names. -/
inductive ScopeStep where
  | bind (name : String) (value : Value) (type : TypeId)
  | setAlias (initial target : String)
  | recordDefinition (name : String) (form : Form)
  | pushSlot (name : String) (slot : Value) (type : TypeId)
  | enterScope
  | unwindTo (depth : Nat)

namespace ScopeStep

def apply (context : FunctionContext) : ScopeStep → FunctionContext
  | .bind name value type => context.bind name value type
  | .setAlias initial target => context.setAlias initial target
  | .recordDefinition name form => context.recordDefinition name form
  | .pushSlot name slot type => context.pushSlot name slot type
  | .enterScope => context.enterScope
  | .unwindTo depth => context.unwindTo depth

def depthAfter (depth : Nat) : ScopeStep → Nat
  | .enterScope => depth + 1
  | .unwindTo target => target
  | _ => depth

/-- Leaving scopes leads outwards, but not further than to `floor`. -/
def Allowed (floor depth : Nat) : ScopeStep → Prop
  | .unwindTo target => floor ≤ target ∧ target ≤ depth
  | _ => True

/-- The slot that a step at a depth pushes for a name, if any. -/
def pushed (name : String) (depth : Nat) : ScopeStep → List ScopedSlot
  | .pushSlot other slot type =>
      if other = name then [⟨depth, slot, type⟩] else []
  | _ => []

/-- Whether the scope of a slot is not left. -/
def keeps (entry : ScopedSlot) : ScopeStep → Bool
  | .unwindTo depth => entry.depth ≤ depth
  | _ => true

/-- The steps of a run are allowed, one after the other. -/
def AllowedRun (floor : Nat) : (depth : Nat) → List ScopeStep → Prop
  | _, [] => True
  | depth, step :: steps =>
      step.Allowed floor depth ∧
        AllowedRun floor (step.depthAfter depth) steps

/-- The slots that a run pushes for a name in scopes that it does not leave
afterwards, the latest first. -/
def liveSlots (name : String) : (depth : Nat) → List ScopeStep →
    List ScopedSlot
  | _, [] => []
  | depth, step :: steps =>
      liveSlots name (step.depthAfter depth) steps ++
        (step.pushed name depth).filter fun entry => steps.all (keeps entry)

theorem AllowedRun.mono {floor lower depth : Nat} {steps : List ScopeStep}
    (le : lower ≤ floor) (allowed : AllowedRun floor depth steps) :
    AllowedRun lower depth steps := by
  induction steps generalizing depth with
  | nil => trivial
  | cons step steps ih =>
      refine ⟨?_, ih allowed.2⟩
      cases step with
      | unwindTo target => exact ⟨le.trans allowed.1.1, allowed.1.2⟩
      | _ => trivial

/-- No step leads below the floor. -/
theorem Allowed.floor_le {floor depth : Nat} {step : ScopeStep}
    (allowed : step.Allowed floor depth) (above : floor ≤ depth) :
    floor ≤ step.depthAfter depth := by
  cases step with
  | enterScope => exact above.trans (Nat.le_succ depth)
  | unwindTo target => exact allowed.1
  | _ => exact above

theorem floor_le_of_mem_liveSlots {floor depth : Nat} {steps : List ScopeStep}
    (allowed : AllowedRun floor depth steps) (above : floor ≤ depth)
    {name : String} {entry : ScopedSlot}
    (member : entry ∈ liveSlots name depth steps) : floor ≤ entry.depth := by
  induction steps generalizing depth with
  | nil => simp [liveSlots] at member
  | cons step steps ih =>
      rw [liveSlots, List.mem_append] at member
      rcases member with later | now
      · exact ih allowed.2 (allowed.1.floor_le above) later
      · have own := (List.mem_filter.mp now).1
        cases step with
        | pushSlot other slot type =>
            rw [pushed] at own
            split at own
            · rw [List.mem_singleton.mp own]
              exact above
            · simp at own
        | _ => simp [pushed] at own

/-- What is above the floor is never left. -/
theorem AllowedRun.keeps {floor depth : Nat} {steps : List ScopeStep}
    (allowed : AllowedRun floor depth steps) {entry : ScopedSlot}
    (above : entry.depth ≤ floor) : steps.all (keeps entry) = true := by
  induction steps generalizing depth with
  | nil => rfl
  | cons step steps ih =>
      rw [List.all_cons, ih allowed.2, Bool.and_true]
      cases step with
      | unwindTo target => exact decide_eq_true (above.trans allowed.1.1)
      | _ => rfl

end ScopeStep

namespace FunctionContext

open ScopeStep

variable {context : FunctionContext} {step : ScopeStep}
  {steps : List ScopeStep}

/-- Makes changes one after the other. -/
def run (context : FunctionContext) (steps : List ScopeStep) :
    FunctionContext :=
  steps.foldl apply context

/-! ## One step -/

/-- Slots are ordered by the depth of their scopes, the innermost first, and no
slot belongs to a scope below the current one. -/
structure Nested (context : FunctionContext) : Prop where
  ordered : ∀ name, (context.stack name).Pairwise fun inner outer =>
    outer.depth ≤ inner.depth
  within : context.WithinDepth

theorem depth_apply (context : FunctionContext) (step : ScopeStep) :
    (step.apply context).depth = step.depthAfter context.depth := by
  cases step <;> rfl

/-- In an ordered stack, the slots of the scopes that are left come first. -/
theorem unwound_eq_filter {depth : Nat} {stack : List ScopedSlot}
    (ordered : stack.Pairwise fun inner outer => outer.depth ≤ inner.depth) :
    unwound depth stack = stack.filter fun entry => entry.depth ≤ depth := by
  induction stack with
  | nil => rfl
  | cons entry stack ih =>
      obtain ⟨above, ordered⟩ := List.pairwise_cons.mp ordered
      rw [unwound, List.dropWhile_cons]
      by_cases inner : depth < entry.depth
      · rw [if_pos (decide_eq_true inner),
          List.filter_cons_of_neg (by simpa using inner)]
        exact ih ordered
      · have stays : ∀ other ∈ entry :: stack, other.depth ≤ depth := by
          intro other member
          rcases List.mem_cons.mp member with rfl | later
          · exact Nat.le_of_not_lt inner
          · exact (above other later).trans (Nat.le_of_not_lt inner)
        rw [if_neg (by simpa using inner), List.filter_eq_self.mpr]
        intro other member
        exact decide_eq_true (stays other member)

/-- A step pushes its slot on top of those whose scopes it does not leave. -/
theorem stack_apply (nested : context.Nested) (step : ScopeStep)
    (name : String) :
    (step.apply context).stack name =
      step.pushed name context.depth ++
        (context.stack name).filter fun entry => step.keeps entry := by
  have all : (context.stack name).filter (fun _ => true) =
      context.stack name :=
    List.filter_eq_self.mpr fun _ _ => rfl
  cases step with
  | pushSlot other slot type =>
      rw [apply, stack_pushSlot, pushed]
      simp only [keeps, all]
      by_cases same : name = other
      · rw [if_pos same, if_pos same.symm, same]
        rfl
      · rw [if_neg same, if_neg (Ne.symm same)]
        rfl
  | unwindTo depth =>
      rw [apply, stack_unwindTo, unwound_eq_filter (nested.ordered name)]
      rfl
  | _ =>
      simp only [pushed, keeps, all]
      rfl

theorem Nested.apply (nested : context.Nested)
    (allowed : step.Allowed 0 context.depth) :
    (step.apply context).Nested := by
  have kept (name : String) :
      ((context.stack name).filter fun entry => step.keeps entry).Pairwise
        fun inner outer => outer.depth ≤ inner.depth :=
    (nested.ordered name).filter _
  constructor
  · intro name
    rw [stack_apply nested]
    refine List.pairwise_append.mpr ⟨?_, kept name, ?_⟩
    · cases step with
      | pushSlot other slot type =>
          rw [pushed]
          split <;> simp
      | _ => exact List.Pairwise.nil
    · intro inner new outer old
      cases step with
      | pushSlot other slot type =>
          rw [pushed] at new
          split at new
          · rw [List.mem_singleton.mp new]
            exact nested.within name outer (List.mem_filter.mp old).1
          · simp at new
      | _ => simp [pushed] at new
  · intro name entry member
    rw [stack_apply nested, List.mem_append] at member
    rw [depth_apply]
    rcases member with new | old
    · cases step with
      | pushSlot other slot type =>
          rw [pushed] at new
          split at new
          · rw [List.mem_singleton.mp new]
            exact Nat.le_refl _
          · simp at new
      | _ => simp [pushed] at new
    · obtain ⟨old, keeps⟩ := List.mem_filter.mp old
      have within := nested.within name entry old
      cases step with
      | unwindTo depth => exact of_decide_eq_true keeps
      | enterScope => exact within.trans (Nat.le_succ _)
      | _ => exact within

/-! ## Runs -/

theorem Nested.run (nested : context.Nested)
    (allowed : AllowedRun 0 context.depth steps) :
    (context.run steps).Nested := by
  induction steps generalizing context with
  | nil => exact nested
  | cons step steps ih =>
      apply ih (nested.apply allowed.1)
      rw [depth_apply]
      exact allowed.2

/-- After a run, a name has the slots that were pushed for it and those that it
had, as far as their scopes have not been left. -/
theorem stack_run (nested : context.Nested)
    (allowed : AllowedRun 0 context.depth steps) (name : String) :
    (context.run steps).stack name =
      liveSlots name context.depth steps ++
        (context.stack name).filter fun entry => steps.all (keeps entry) := by
  induction steps generalizing context with
  | nil =>
      rw [liveSlots, List.nil_append]
      exact (List.filter_eq_self.mpr fun _ _ => rfl).symm
  | cons step steps ih =>
      have later := allowed.2
      rw [← depth_apply] at later
      have ran := ih (nested.apply allowed.1) later
      rw [depth_apply, stack_apply nested, List.filter_append,
        List.filter_filter] at ran
      calc
        (context.run (step :: steps)).stack name =
            ((step.apply context).run steps).stack name := rfl
        _ = liveSlots name context.depth (step :: steps) ++
            (context.stack name).filter fun entry =>
              steps.all (keeps entry) && step.keeps entry := by
          rw [ran, liveSlots, List.append_assoc]
        _ = liveSlots name context.depth (step :: steps) ++
            (context.stack name).filter fun entry =>
              (step :: steps).all (keeps entry) := by
          simp only [List.all_cons, Bool.and_comm]

theorem nested_ofMutableNames (mutableNames : List String) :
    (ofMutableNames mutableNames).Nested :=
  ⟨fun _ => List.Pairwise.nil, withinDepth_ofMutableNames mutableNames⟩

theorem Nested.enterScope (nested : context.Nested) :
    context.enterScope.Nested :=
  ⟨nested.ordered, nested.within.enterScope⟩

theorem slot?_eq_none_iff (context : FunctionContext) (name : String) :
    context.slot? name = none ↔
      context.slotStacks.find? name = none ∨
        context.slotStacks.find? name = some [] := by
  unfold slot? innermost?
  cases context.slotStacks.find? name with
  | none => simp
  | some stack => simp

/-- Leaving a scope after a run in it takes away what was pushed in the run,
and nothing else. -/
theorem stack_unwindTo_run (nested : context.Nested)
    (allowed : AllowedRun (context.depth + 1) (context.depth + 1) steps)
    (name : String) :
    ((context.enterScope.run steps).unwindTo context.depth).stack name =
      context.stack name := by
  have kept : (context.stack name).filter
      (fun entry => steps.all (keeps entry)) = context.stack name := by
    apply List.filter_eq_self.mpr
    intro entry member
    exact allowed.keeps ((nested.within name entry member).trans
      (Nat.le_succ _))
  rw [stack_unwindTo, stack_run nested.enterScope
    (allowed.mono (Nat.zero_le _))]
  rw [show context.enterScope.stack name = context.stack name from rfl, kept]
  apply unwound_append
  · intro entry member
    exact floor_le_of_mem_liveSlots allowed (Nat.le_refl _) member
  · exact nested.within name

def numberedSlot (number : Nat) : Value := ⟨number, ⟨0⟩, .nothing⟩

/-- A scope is open, and its slot shadows the one around it. -/
def shadowingSteps : List ScopeStep :=
  [.pushSlot "x" (numberedSlot 0) ⟨0⟩, .enterScope,
    .pushSlot "x" (numberedSlot 1) ⟨0⟩]

/-- Two slots at one depth, and two levels that are left at once. -/
def repeatedSteps : List ScopeStep :=
  [.pushSlot "x" (numberedSlot 2) ⟨0⟩, .pushSlot "x" (numberedSlot 3) ⟨0⟩,
    .enterScope, .enterScope, .pushSlot "x" (numberedSlot 4) ⟨0⟩, .unwindTo 2,
    .bind "x" (numberedSlot 5) ⟨0⟩]

end FunctionContext

end FormCompiler
