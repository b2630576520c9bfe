import Mathlib.Data.List.Forall2
import Mathlib.Data.Option.Defs
import FormCompiler.Proofs.CodeRuns
import FormCompiler.Proofs.NameUses

/-!
# Scopes and slots

The slots of a name, taken apart by the scopes that own them, mirror the
scopes of the reference interpreter: a scope that owns slots of a name has the
name as a variable, and the innermost of these slots holds its value.  A name
without slots is a constant, and has the value that it was given.
-/

namespace FormCompiler

open Ir

/-! ## One name -/

/-- The slots of a name, innermost first, stand for what the scopes say. -/
def Stacked (holds : ScopedSlot → Quantity → Prop) (name : String) :
    List (NameMap Quantity) → List ScopedSlot → Prop
  | [], stack => stack = []
  | scope :: outer, stack => ∃ own rest, stack = own ++ rest ∧
      (∀ entry ∈ own, entry.depth = outer.length) ∧
      Option.Rel holds own.head? (scope.find? name) ∧
      Stacked holds name outer rest

/-- Writing a variable leaves every other name alone. -/
theorem find?_of_writeVisible {name other : String} {quantity : Quantity}
    {frames later : List (NameMap Quantity)} (different : other ≠ name)
    (writes : writeVisible name quantity frames = some later) :
    List.Forall₂ (fun scope after : NameMap Quantity =>
      after.find? other = scope.find? other) frames later := by
  induction frames generalizing later with
  | nil => cases writes
  | cons scope outer ih =>
      rw [writeVisible] at writes
      split at writes
      · cases writes
        refine .cons ?_ (List.forall₂_same.mpr fun _ _ => rfl)
        rw [NameMap.find?_insert, if_neg different]
      · obtain ⟨after, inner, rfl⟩ := Option.map_eq_some_iff.mp writes
        exact .cons rfl (ih inner)

namespace Stacked

variable {holds other : ScopedSlot → Quantity → Prop} {name : String}
  {frames later : List (NameMap Quantity)} {stack rest : List ScopedSlot}
  {scope : NameMap Quantity} {entry : ScopedSlot} {quantity : Quantity}

theorem imp (stacked : Stacked holds name frames stack)
    (implies : ∀ entry ∈ stack, ∀ quantity, holds entry quantity →
      other entry quantity) : Stacked other name frames stack := by
  induction frames generalizing stack with
  | nil => exact stacked
  | cons scope outer ih =>
      obtain ⟨own, rest, rfl, depths, shown, inner⟩ := stacked
      refine ⟨own, rest, rfl, depths, ?_, ih inner fun entry member =>
        implies entry (List.mem_append_right _ member)⟩
      generalize scope.find? name = found at shown ⊢
      cases own with
      | nil =>
          cases shown
          exact .none
      | cons entry own =>
          cases shown with
          | some held => exact .some (implies entry (by simp) _ held)

/-- Only what scopes say of the name matters. -/
theorem congr (stacked : Stacked holds name frames stack)
    (same : List.Forall₂ (fun scope after : NameMap Quantity =>
      after.find? name = scope.find? name) frames later) :
    Stacked holds name later stack := by
  induction same generalizing stack with
  | nil => exact stacked
  | cons first rest ih =>
      obtain ⟨own, inner, rfl, depths, shown, stacked⟩ := stacked
      refine ⟨own, inner, rfl, ?_, first ▸ shown, ih stacked⟩
      rw [← rest.length_eq]
      exact depths

theorem depth_lt (stacked : Stacked holds name frames stack) :
    ∀ entry ∈ stack, entry.depth < frames.length := by
  induction frames generalizing stack with
  | nil =>
      cases stacked
      exact nofun
  | cons scope outer ih =>
      obtain ⟨own, rest, rfl, depths, -, inner⟩ := stacked
      intro entry member
      rw [List.length_cons]
      rcases List.mem_append.mp member with inOwn | inRest
      · have := depths entry inOwn
        omega
      · have := ih inner entry inRest
        omega

/-- The innermost slot stands for the innermost variable. -/
theorem head (stacked : Stacked holds name frames stack) :
    Option.Rel holds stack.head?
      (frames.findSome? fun scope => scope.find? name) := by
  induction frames generalizing stack with
  | nil =>
      cases stacked
      exact .none
  | cons scope outer ih =>
      obtain ⟨own, rest, rfl, -, shown, inner⟩ := stacked
      rw [List.findSome?_cons]
      cases own with
      | nil =>
          generalize scope.find? name = found at shown ⊢
          cases shown
          exact ih inner
      | cons entry own =>
          generalize scope.find? name = found at shown ⊢
          cases shown with
          | some held => exact .some held

/-- Where the name has no slot, no scope has it. -/
theorem writeVisible_of_nil (stacked : Stacked holds name frames [])
    (quantity : Quantity) : writeVisible name quantity frames = none := by
  induction frames with
  | nil => rfl
  | cons scope outer ih =>
      obtain ⟨own, rest, empty, -, shown, inner⟩ := stacked
      obtain ⟨rfl, rfl⟩ := List.append_eq_nil_iff.mp empty.symm
      rw [writeVisible]
      generalize scope.find? name = found at shown ⊢
      cases shown
      rw [if_neg (by simp), ih inner]
      rfl

/-- Writing the innermost variable changes what the innermost slot holds. -/
theorem write (stacked : Stacked holds name frames (entry :: rest))
    (here : other entry quantity)
    (elsewhere : ∀ entry ∈ rest, ∀ quantity, holds entry quantity →
      other entry quantity) :
    ∃ later, writeVisible name quantity frames = some later ∧
      later.length = frames.length ∧
      Stacked other name later (entry :: rest) := by
  induction frames with
  | nil => cases stacked
  | cons scope outer ih =>
      obtain ⟨own, inner, split, depths, shown, stacked⟩ := stacked
      cases own with
      | nil =>
          cases split
          generalize known : scope.find? name = found at shown
          cases shown
          obtain ⟨after, writes, length, done⟩ := ih stacked
          refine ⟨scope :: after, ?_, by simp [length], [], _, rfl, nofun, ?_,
            done⟩
          · rw [writeVisible, known, if_neg (by simp), writes]
            rfl
          · rw [known]
            exact .none
      | cons first own =>
          cases split
          generalize known : scope.find? name = found at shown
          cases shown with
          | some held =>
              refine ⟨scope.insert name quantity :: outer, ?_, rfl,
                entry :: own, inner, rfl, depths, ?_,
                stacked.imp fun entry member => elsewhere entry
                  (List.mem_append_right _ member)⟩
              · rw [writeVisible, known, if_pos (by simp)]
              · rw [NameMap.find?_insert, if_pos rfl]
                exact .some here

/-- A slot of the innermost scope. -/
theorem push (stacked : Stacked holds name (scope :: frames) stack)
    (depth : entry.depth = frames.length) (held : holds entry quantity) :
    Stacked holds name (scope.insert name quantity :: frames)
      (entry :: stack) := by
  obtain ⟨own, rest, rfl, depths, -, inner⟩ := stacked
  refine ⟨entry :: own, rest, rfl, List.forall_mem_cons.mpr ⟨depth, depths⟩,
    ?_, inner⟩
  rw [NameMap.find?_insert, if_pos rfl]
  exact .some held

theorem enter (stacked : Stacked holds name frames stack)
    (missing : scope.find? name = none) :
    Stacked holds name (scope :: frames) stack := by
  refine ⟨[], stack, rfl, nofun, ?_, stacked⟩
  rw [missing]
  exact .none

theorem leave (stacked : Stacked holds name (scope :: frames) stack)
    {depth : Nat} (length : frames.length = depth + 1) :
    Stacked holds name frames (FunctionContext.unwound depth stack) := by
  obtain ⟨own, rest, rfl, depths, -, inner⟩ := stacked
  have kept : FunctionContext.unwound depth (own ++ rest) = rest := by
    unfold FunctionContext.unwound
    rw [List.dropWhile_append_of_pos]
    · cases rest with
      | nil => rfl
      | cons entry rest =>
          have outside := inner.depth_lt entry List.mem_cons_self
          rw [List.dropWhile_cons_of_neg]
          simp
          omega
    · intro entry member
      simp [depths entry member, length]
  rw [kept]
  exact inner

end Stacked

/-! ## All names -/

namespace Ir.Value.PointsTo

variable {machine last : Machine} {table later : TypeTable} {slot : Value}
  {register : Register} {type : TypeId} {quantity : Quantity}

theorem mono (points : slot.PointsTo machine table register type quantity)
    (closed : table.Closed) (grows : table.Grows later)
    (same : last.slots register = machine.slots register) :
    slot.PointsTo last later register type quantity := by
  obtain ⟨irType, represents, held⟩ := points.held
  have has : table.Has slot.type := by
    apply TypeTable.has_of_kind
    intro void
    have pointee := points.pointee
    rw [TypeTable.pointee?, void] at pointee
    cases pointee
  exact ⟨points.content, (has.pointee_eq grows).trans points.pointee, irType,
    represents.mono closed grows, same.trans held⟩

theorem operand_eq
    (points : slot.PointsTo machine table register type quantity) :
    slot.operand = .register register .pointer :=
  Value.operand_eq points.content

theorem isSome_slots
    (points : slot.PointsTo machine table register type quantity) :
    (machine.slots register).isSome = true := by
  obtain ⟨irType, -, held⟩ := points.held
  rw [held]
  rfl

end Ir.Value.PointsTo

/-- The slot of an entry holds a quantity of the type of the entry. -/
def ScopedSlot.Holds (machine : Machine) (table : TypeTable)
    (entry : ScopedSlot) (quantity : Quantity) : Prop :=
  ∃ register, entry.slot.PointsTo machine table register entry.type quantity

/-- An entry points to some slot of the machine. -/
def ScopedSlot.Live (machine : Machine) (entry : ScopedSlot) : Prop :=
  ∃ register, entry.slot.operand = .register register .pointer ∧
    (machine.slots register).isSome = true

/-- Two entries point to different slots. -/
def ScopedSlot.Apart (entry other : ScopedSlot) : Prop :=
  entry.slot.operand ≠ other.slot.operand

/-- The names of a context stand for what the scopes of the interpreter
say. -/
structure Mirrors (isVariable : String → Bool) (arguments : List Quantity)
    (machine : Machine) (table : TypeTable) (scopes : Scopes)
    (context : FunctionContext) : Prop where
  mutable : ∀ name, context.isMutable name = isVariable name
  unaliased : ∀ name, context.alias? name = none
  depth : scopes.frames.length = context.depth + 1
  stacked : ∀ name, Stacked (ScopedSlot.Holds machine table) name
    scopes.frames (context.stack name)
  live : ∀ name, ∀ entry ∈ context.stack name, entry.Live machine
  within : ∀ name, (context.stack name).Pairwise ScopedSlot.Apart
  between : ∀ name other, name ≠ other → ∀ entry ∈ context.stack name,
    ∀ second ∈ context.stack other, entry.Apart second
  slotless : ∀ name, isVariable name = false → context.stack name = []
  constants : ∀ name, isVariable name = false → Option.Rel
    (fun value quantity => value.Denotes arguments machine table quantity)
    (context.value? name) (scopes.constants.find? name)
  noConstants : ∀ name, isVariable name = true →
    scopes.constants.find? name = none

/-- A variable without a slot has no value. -/
def FunctionContext.Unbound (isVariable : String → Bool)
    (context : FunctionContext) : Prop :=
  ∀ name, isVariable name = true → context.stack name = [] →
    context.value? name = none

namespace Mirrors

variable {isVariable : String → Bool} {arguments : List Quantity}
  {machine last : Machine} {table later : TypeTable} {scopes : Scopes}
  {context after : FunctionContext} {name : String}

/-- More registers, more slots and more types. -/
theorem mono (mirrors : Mirrors isVariable arguments machine table scopes
      context) (closed : table.Closed) (grows : table.Grows later)
    (extends_ : machine.Extends last)
    (slots : ∀ register, (machine.slots register).isSome = true →
      last.slots register = machine.slots register) :
    Mirrors isVariable arguments last later scopes context := by
  refine ⟨mirrors.mutable, mirrors.unaliased, mirrors.depth, ?_, ?_,
    mirrors.within, mirrors.between, mirrors.slotless, ?_,
    mirrors.noConstants⟩
  · intro name
    refine (mirrors.stacked name).imp ?_
    rintro entry - quantity ⟨register, points⟩
    exact ⟨register, points.mono closed grows
      (slots register points.isSome_slots)⟩
  · intro name entry member
    obtain ⟨register, operand, there⟩ := mirrors.live name entry member
    exact ⟨register, operand, by rw [slots register there, there]⟩
  · intro name constant
    have same := mirrors.constants name constant
    generalize scopes.constants.find? name = found at same ⊢
    generalize context.value? name = value at same ⊢
    cases same with
    | none => exact .none
    | some denotes => exact .some (denotes.mono closed grows extends_)

/-- Values of variables do not matter, as they have slots. -/
theorem rebind (mirrors : Mirrors isVariable arguments machine table scopes
      context)
    (mutableNames : after.mutableNames = context.mutableNames)
    (aliases : after.aliases = context.aliases)
    (depth : after.depth = context.depth)
    (slotStacks : after.slotStacks = context.slotStacks)
    (values : ∀ name, isVariable name = false →
      after.value? name = context.value? name) :
    Mirrors isVariable arguments machine table scopes after := by
  have stack (name : String) : after.stack name = context.stack name := by
    rw [FunctionContext.stack, FunctionContext.stack, slotStacks]
  refine ⟨?_, ?_, ?_, ?_, ?_, ?_, ?_, ?_, ?_, mirrors.noConstants⟩
  · intro name
    rw [FunctionContext.isMutable, mutableNames]
    exact mirrors.mutable name
  · intro name
    rw [FunctionContext.alias?, aliases]
    exact mirrors.unaliased name
  · rw [depth]
    exact mirrors.depth
  · intro name
    rw [stack]
    exact mirrors.stacked name
  · intro name
    rw [stack]
    exact mirrors.live name
  · intro name
    rw [stack]
    exact mirrors.within name
  · intro name other
    rw [stack, stack]
    exact mirrors.between name other
  · intro name constant
    rw [stack]
    exact mirrors.slotless name constant
  · intro name constant
    rw [values name constant]
    exact mirrors.constants name constant

/-- Only what the scopes say of names matters. -/
theorem congr (mirrors : Mirrors isVariable arguments machine table scopes
      context) {frames : List (NameMap Quantity)}
    (same : List.Forall₂ (fun scope after : NameMap Quantity =>
      ∀ name, after.find? name = scope.find? name) scopes.frames frames) :
    Mirrors isVariable arguments machine table { scopes with frames }
      context := by
  refine ⟨mirrors.mutable, mirrors.unaliased,
    same.length_eq.symm.trans mirrors.depth, ?_, mirrors.live, mirrors.within,
    mirrors.between, mirrors.slotless, mirrors.constants,
    mirrors.noConstants⟩
  exact fun name => (mirrors.stacked name).congr
    (same.imp fun _ _ all => all name)

/-- A constant is defined. -/
theorem publish (mirrors : Mirrors isVariable arguments machine table scopes
      context) (constant : isVariable name = false) {value : Value}
    {quantity : Quantity}
    (denotes : value.Denotes arguments machine table quantity)
    (type : TypeId) :
    Mirrors isVariable arguments machine table
      (scopes.define isVariable name quantity)
      (context.publish name value type) := by
  unfold Scopes.define
  rw [constant, if_neg Bool.false_ne_true]
  refine ⟨mirrors.mutable, mirrors.unaliased, mirrors.depth, mirrors.stacked,
    mirrors.live, mirrors.within, mirrors.between, mirrors.slotless, ?_, ?_⟩
  · intro other otherConstant
    unfold FunctionContext.value? FunctionContext.publish FunctionContext.bind
    dsimp only
    rw [NameMap.find?_insert, NameMap.find?_insert]
    split
    · exact .some denotes
    · exact mirrors.constants other otherConstant
  · intro other varying
    dsimp only
    rw [NameMap.find?_insert, if_neg, mirrors.noConstants other varying]
    rintro rfl
    rw [constant] at varying
    cases varying

/-- What a name is read as through its slot. -/
theorem read_slot (mirrors : Mirrors isVariable arguments machine table scopes
      context) {slot : Value} (found : context.slot? name = some slot) :
    ∃ quantity register type, scopes.read? name = some quantity ∧
      slot.PointsTo machine table register type quantity := by
  rw [FunctionContext.slot?_eq] at found
  obtain ⟨entry, innermost, rfl⟩ := Option.map_eq_some_iff.mp found
  have head := (mirrors.stacked name).head
  unfold Scopes.read?
  rw [innermost] at head
  generalize scopes.frames.findSome? _ = visible at head ⊢
  cases head with
  | some held =>
      obtain ⟨register, points⟩ := held
      exact ⟨_, register, entry.type, rfl, points⟩

/-- What a name without a slot is read as. -/
theorem read_value (mirrors : Mirrors isVariable arguments machine table
      scopes context) (unbound : context.Unbound isVariable)
    (missing : context.slot? name = none) {value : Value}
    (found : context.value? name = some value) :
    ∃ quantity, scopes.read? name = some quantity ∧
      value.Denotes arguments machine table quantity := by
  have empty : context.stack name = [] := by
    rw [FunctionContext.slot?_eq] at missing
    exact List.head?_eq_none_iff.mp (Option.map_eq_none_iff.mp missing)
  have constant : isVariable name = false := by
    cases kind : isVariable name with
    | false => rfl
    | true =>
        rw [unbound name kind empty] at found
        cases found
  have head := (mirrors.stacked name).head
  have same := mirrors.constants name constant
  unfold Scopes.read?
  rw [empty] at head
  rw [found] at same
  generalize scopes.frames.findSome? _ = visible at head ⊢
  generalize scopes.constants.find? name = known at same ⊢
  cases head
  cases same with
  | some denotes => exact ⟨_, rfl, denotes⟩

/-- A new slot is the authority for a variable in the innermost scope. -/
theorem push (mirrors : Mirrors isVariable arguments machine table scopes
      context) (varying : isVariable name = true) {slot : Value}
    {type : TypeId} {register : Register} {quantity : Quantity}
    (points : slot.PointsTo machine table register type quantity)
    (new : ∀ other, ∀ entry ∈ context.stack other,
      slot.operand ≠ entry.slot.operand) :
    Mirrors isVariable arguments machine table
      (scopes.declare name quantity) (context.pushSlot name slot type) := by
  obtain ⟨constants, frames⟩ := scopes
  obtain _ | ⟨scope, outer⟩ := frames
  · cases mirrors.depth
  have depth : outer.length = context.depth := by
    simpa using mirrors.depth
  refine ⟨mirrors.mutable, mirrors.unaliased, mirrors.depth, ?_, ?_, ?_, ?_,
    ?_, mirrors.constants, mirrors.noConstants⟩
  · intro other
    rw [FunctionContext.stack_pushSlot]
    split
    · next same =>
        subst same
        exact (mirrors.stacked other).push depth.symm ⟨register, points⟩
    · next different =>
        refine (mirrors.stacked other).congr (.cons ?_ ?_)
        · rw [NameMap.find?_insert, if_neg different]
        · exact List.forall₂_same.mpr fun _ _ => rfl
  · intro other entry
    rw [FunctionContext.stack_pushSlot]
    split
    · intro member
      rcases List.mem_cons.mp member with rfl | old
      · exact ⟨register, points.operand_eq, points.isSome_slots⟩
      · exact mirrors.live name entry old
    · exact mirrors.live other entry
  · intro other
    rw [FunctionContext.stack_pushSlot]
    split
    · exact List.pairwise_cons.mpr ⟨new name, mirrors.within name⟩
    · exact mirrors.within other
  · intro first second different entry member inner innerMember
    rw [FunctionContext.stack_pushSlot] at member innerMember
    split at member
    · next same =>
        rw [if_neg (by rw [← same]; exact different.symm)] at innerMember
        rcases List.mem_cons.mp member with rfl | old
        · exact new second inner innerMember
        · exact mirrors.between name second (same ▸ different) entry old inner
            innerMember
    · split at innerMember
      · next same =>
          rcases List.mem_cons.mp innerMember with rfl | old
          · exact (new first entry member).symm
          · exact mirrors.between first name (same ▸ different) entry member
              inner old
      · exact mirrors.between first second different entry member inner
          innerMember
  · intro other constant
    rw [FunctionContext.stack_pushSlot, if_neg]
    · exact mirrors.slotless other constant
    · rintro rfl
      rw [constant] at varying
      cases varying

/-- A variable is written through its innermost slot. -/
theorem write (mirrors : Mirrors isVariable arguments machine table scopes
      context) {entry : ScopedSlot} {rest : List ScopedSlot}
    (innermost : context.stack name = entry :: rest) {register : Register}
    {old quantity : Quantity} {irType : IrType}
    (points : entry.slot.PointsTo machine table register entry.type old)
    (represents : Represents table entry.type irType) :
    Mirrors isVariable arguments (machine.put register ⟨irType, quantity⟩)
      table (scopes.assign name quantity) context := by
  have member : entry ∈ context.stack name := by
    rw [innermost]
    exact List.mem_cons_self
  -- Any other entry points elsewhere, and what it points to stays.
  have kept (other : ScopedSlot) (apart : entry.Apart other)
      (held : Quantity) (holds : other.Holds machine table held) :
      other.Holds (machine.put register ⟨irType, quantity⟩) table held := by
    obtain ⟨second, otherPoints⟩ := holds
    have different : second ≠ register := by
      rintro rfl
      exact apart (points.operand_eq.trans otherPoints.operand_eq.symm)
    refine ⟨second, otherPoints.content, otherPoints.pointee, ?_⟩
    unfold Machine.put
    dsimp only
    rw [Function.update_of_ne different]
    exact otherPoints.held
  have here : entry.Holds (machine.put register ⟨irType, quantity⟩) table
      quantity :=
    ⟨register, points.content, points.pointee, irType, represents,
      Function.update_self ..⟩
  have stacked := mirrors.stacked name
  have within := mirrors.within name
  rw [innermost] at stacked within
  obtain ⟨frames, writes, length, done⟩ := stacked.write here
    fun other inRest => kept other ((List.pairwise_cons.mp within).1 other
      inRest)
  unfold Scopes.assign
  rw [writes]
  refine ⟨mirrors.mutable, mirrors.unaliased, length.trans mirrors.depth, ?_,
    ?_, mirrors.within, mirrors.between, mirrors.slotless, ?_,
    mirrors.noConstants⟩
  · intro other
    by_cases same : other = name
    · rw [same, innermost]
      exact done
    · refine ((mirrors.stacked other).congr
        (find?_of_writeVisible same writes)).imp ?_
      exact fun second inOther => kept second
        (mirrors.between name other (Ne.symm same) entry member second inOther)
  · intro other second inOther
    obtain ⟨target, operand, there⟩ := mirrors.live other second inOther
    exact ⟨target, operand, Machine.isSome_slots_put there _⟩
  · intro other constant
    have same := mirrors.constants other constant
    generalize scopes.constants.find? other = found at same ⊢
    generalize context.value? other = value at same ⊢
    cases same with
    | none => exact .none
    | some denotes =>
        refine .some ⟨denotes.content, denotes.type, ?_⟩
        rw [Machine.quantity?_put]
        exact denotes.quantity

/-- A scope is entered. -/
theorem enter (mirrors : Mirrors isVariable arguments machine table scopes
      context) :
    Mirrors isVariable arguments machine table (scopes.enter [])
      context.enterScope :=
  ⟨mirrors.mutable, mirrors.unaliased, by
    rw [Scopes.enter, List.length_cons, mirrors.depth]
    rfl,
    fun name => (mirrors.stacked name).enter rfl, mirrors.live,
    mirrors.within, mirrors.between, mirrors.slotless, mirrors.constants,
    mirrors.noConstants⟩

/-- A scope is left. -/
theorem leave (mirrors : Mirrors isVariable arguments machine table scopes
      context) {depth : Nat} (inside : context.depth = depth + 1) :
    Mirrors isVariable arguments machine table scopes.leave
      (context.unwindTo depth) := by
  obtain ⟨constants, frames⟩ := scopes
  obtain _ | ⟨scope, outer⟩ := frames
  · cases mirrors.depth
  have length : outer.length = depth + 1 := by
    have := mirrors.depth
    rw [List.length_cons, inside] at this
    omega
  have subset (name : String) : (FunctionContext.unwound depth
      (context.stack name)).Sublist (context.stack name) :=
    List.dropWhile_sublist _
  refine ⟨?_, ?_, length, ?_, ?_, ?_, ?_, ?_, ?_, mirrors.noConstants⟩
  · intro name
    rw [FunctionContext.isMutable, FunctionContext.mutableNames_unwindTo]
    exact mirrors.mutable name
  · intro name
    rw [FunctionContext.alias?, FunctionContext.aliases_unwindTo]
    exact mirrors.unaliased name
  · intro name
    rw [FunctionContext.stack_unwindTo]
    exact (mirrors.stacked name).leave length
  · intro name entry member
    rw [FunctionContext.stack_unwindTo] at member
    exact mirrors.live name entry ((subset name).subset member)
  · intro name
    rw [FunctionContext.stack_unwindTo]
    exact (mirrors.within name).sublist (subset name)
  · intro name other different entry member second secondMember
    rw [FunctionContext.stack_unwindTo] at member secondMember
    exact mirrors.between name other different entry
      ((subset name).subset member) second
      ((subset other).subset secondMember)
  · intro name constant
    rw [FunctionContext.stack_unwindTo, mirrors.slotless name constant]
    rfl
  · intro name constant
    rw [FunctionContext.value?_unwindTo _ _ _
      (.inl (mirrors.slotless name constant))]
    exact mirrors.constants name constant

end Mirrors

/-! ## Variables without slots -/

namespace FunctionContext

variable {context : FunctionContext} {name : String} {depth : Nat}

/-- No value comes back when slots go. -/
theorem value?_unwindName_of_none (missing : context.value? name = none)
    (other : String) : (context.unwindName depth other).value? name = none := by
  unfold unwindName
  dsimp only
  split
  · exact missing
  · split
    · exact missing
    · unfold value?
      rw [NameMap.find?_erase]
      split
      · rfl
      · exact missing

theorem value?_unwindName_self (some_ : context.stack name ≠ [])
    (lost : unwound depth (context.stack name) = []) :
    (context.unwindName depth name).value? name = none := by
  unfold unwindName
  dsimp only
  split
  · next same =>
      have empty : (context.stack name).length = 0 := by
        rw [← List.length_nil, ← lost]
        exact same.symm
      exact absurd (List.length_eq_zero_iff.mp empty) some_
  · split
    · next kept =>
        rw [show unwound depth (context.stack name) = _ from kept] at lost
        cases lost
    · unfold value?
      rw [NameMap.find?_erase, if_pos rfl]

/-- The value of a name goes with its last slot. -/
theorem value?_unwindTo_of_lost (some_ : context.stack name ≠ [])
    (lost : unwound depth (context.stack name) = []) :
    (context.unwindTo depth).value? name = none := by
  have stays (names : List String) (context : FunctionContext)
      (missing : context.value? name = none) :
      (names.foldl (fun context name => context.unwindName depth name)
        context).value? name = none := by
    induction names generalizing context with
    | nil => exact missing
    | cons other names ih =>
        exact ih _ (value?_unwindName_of_none missing other)
  have goes (names : List String) (context : FunctionContext)
      (some_ : context.stack name ≠ [])
      (lost : unwound depth (context.stack name) = [])
      (member : name ∈ names) :
      (names.foldl (fun context name => context.unwindName depth name)
        context).value? name = none := by
    induction names generalizing context with
    | nil => cases member
    | cons other names ih =>
        by_cases same : name = other
        · subst same
          exact stays names _ (value?_unwindName_self some_ lost)
        · have stack : (context.unwindName depth other).stack name =
              context.stack name := by
            rw [stack_unwindName, if_neg same]
          exact ih _ (stack ▸ some_) (stack ▸ lost)
            (List.mem_of_ne_of_mem same member)
  refine goes _ context some_ lost ?_
  by_contra missing
  apply some_
  unfold stack NameMap.find?
  rw [List.lookup_eq_none_iff.mpr, Option.getD_none]
  intro entry member
  have different : entry.1 ≠ name := fun same =>
    missing (List.mem_map.mpr ⟨entry, member, same⟩)
  simpa using fun same : name = entry.1 => different same.symm

theorem Unbound.leave {isVariable : String → Bool}
    (unbound : context.Unbound isVariable) (depth : Nat) :
    (context.unwindTo depth).Unbound isVariable := by
  intro name varying empty
  rw [stack_unwindTo] at empty
  by_cases before : context.stack name = []
  · rw [value?_unwindTo _ _ _ (.inl before)]
    exact unbound name varying before
  · exact value?_unwindTo_of_lost before empty

end FunctionContext

end FormCompiler
