import FormCompiler.Emit.ModuleForm
import FormCompiler.Ir.Printer
import FormCompiler.Proofs.BodyEffects

/-!
# Names after a block

A block is a scope of its own.  The slots that it gives to names go when it is
left, and every name has the slots again that it had before.

What a name is resolved to takes more than slots: the name may stand for a
variable that it initialized, or have no slot at all.  Where neither the name
nor what it is resolved through is used in the block, it is resolved to the
same slot or value as before.  A name that initializes a variable in the block
is no such name: it goes on to stand for the name of the variable, which may be
that of another variable around the block.
-/

namespace FormCompiler

open Ir

namespace FunctionContext

variable {context later : FunctionContext} {used : List NameUse}

/-! ## Slots of scopes -/

/-- No slot belongs to a scope below the current one. -/
def WithinDepth (context : FunctionContext) : Prop :=
  ∀ name, ∀ entry ∈ context.stack name, entry.depth ≤ context.depth

theorem unwound_append {depth : Nat} {inner outer : List ScopedSlot}
    (below : ∀ entry ∈ inner, depth < entry.depth)
    (above : ∀ entry ∈ outer, entry.depth ≤ depth) :
    unwound depth (inner ++ outer) = outer := by
  unfold unwound
  rw [List.dropWhile_append_of_pos fun entry member =>
    decide_eq_true (below entry member)]
  cases outer with
  | nil => rfl
  | cons entry rest =>
      have stays := above entry List.mem_cons_self
      rw [List.dropWhile_cons, if_neg (by simpa using stays)]

/-- Slots are added for the current scope, on top of those that were there,
and only to names that are used. -/
def Layered (used : List NameUse) (context later : FunctionContext) : Prop :=
  ∀ name, ∃ inner, later.stack name = inner ++ context.stack name ∧
    (∀ entry ∈ inner, entry.depth = context.depth) ∧
    ((∀ use ∈ used, use.name ≠ name) → inner = [])

theorem Layered.of_stacks (same : ∀ name, later.stack name =
    context.stack name) : Layered used context later :=
  fun name => ⟨[], same name, List.forall_mem_nil _, fun _ => rfl⟩

theorem layered_pushSlot (context : FunctionContext) {use : NameUse}
    (slot : Value) (type : TypeId) :
    Layered [use] context (context.pushSlot use.name slot type) := by
  intro name
  rw [stack_pushSlot]
  split
  · next same =>
      refine ⟨[⟨context.depth, slot, type⟩], by rw [same]; rfl,
        List.forall_mem_singleton.mpr rfl, fun absent => ?_⟩
      exact absurd same.symm (absent use List.mem_cons_self)
  · exact ⟨[], rfl, List.forall_mem_nil _, fun _ => rfl⟩

theorem Layered.withinDepth (layered : Layered used context later)
    (depth : later.depth = context.depth) (within : context.WithinDepth) :
    later.WithinDepth := by
  intro name entry member
  obtain ⟨inner, layers, own, -⟩ := layered name
  rw [layers] at member
  rw [depth]
  rcases List.mem_append.mp member with new | old
  · exact (own entry new).le
  · exact within name entry old

/-- Leaving a scope takes away the slots that were added in it. -/
theorem Layered.unwindTo (layered : Layered used context.enterScope later)
    (within : context.WithinDepth) (name : String) :
    (later.unwindTo context.depth).stack name = context.stack name := by
  obtain ⟨inner, layers, own, -⟩ := layered name
  rw [stack_unwindTo, layers]
  refine unwound_append (fun entry member => ?_) (within name)
  rw [own entry member]
  exact Nat.lt_succ_self context.depth

theorem WithinDepth.enterScope (within : context.WithinDepth) :
    context.enterScope.WithinDepth :=
  fun name entry member => (within name entry member).trans (Nat.le_succ _)

theorem Touches.layered (touches : Touches used context later)
    (within : context.WithinDepth) : Layered used context later := by
  induction touches with
  | done same =>
      refine .of_stacks fun name => ?_
      rw [stack, same.slotStacks]
      rfl
  | publish | bind | rename => exact .of_stacks fun _ => rfl
  | back slot type => exact layered_pushSlot _ slot type
  | slot _ _ slot type => exact layered_pushSlot _ slot type
  | scope _ ih => exact .of_stacks ((ih within.enterScope).unwindTo within)
  | @trans first second context later last early _ ih laterIh =>
      have layered := ih within
      have further := laterIh (layered.withinDepth early.depth within)
      intro name
      obtain ⟨inner, layers, own, unused⟩ := layered name
      obtain ⟨more, moreLayers, moreOwn, moreUnused⟩ := further name
      refine ⟨more ++ inner, ?_, ?_, fun absent => ?_⟩
      · rw [moreLayers, layers, List.append_assoc]
      · rw [early.depth] at moreOwn
        exact List.forall_mem_append.mpr ⟨moreOwn, own⟩
      · rw [List.forall_mem_append] at absent
        rw [unused absent.1, moreUnused absent.2]
        rfl

/-- A body starts without slots. -/
theorem withinDepth_ofMutableNames (names : List String) :
    (ofMutableNames names).WithinDepth :=
  fun _ => List.forall_mem_nil _

theorem Touches.withinDepth (touches : Touches used context later)
    (within : context.WithinDepth) : later.WithinDepth :=
  (touches.layered within).withinDepth touches.depth within

/-! ## Names that are not used -/

/-- A name that is not used keeps its slots. -/
theorem Touches.stack_eq (touches : Touches used context later)
    (within : context.WithinDepth) {name : String}
    (absent : ∀ use ∈ used, use.name ≠ name) :
    later.stack name = context.stack name := by
  obtain ⟨inner, layers, -, unused⟩ := touches.layered within name
  rw [layers, unused absent]
  rfl

/-- A name that is not used keeps its value. -/
theorem Touches.value?_eq (touches : Touches used context later)
    (within : context.WithinDepth) {name : String}
    (absent : ∀ use ∈ used, use.name ≠ name) :
    later.value? name = context.value? name := by
  have binds (context : FunctionContext) {other : String} (value : Value)
      (type : TypeId) (different : other ≠ name) :
      (context.bind other value type).value? name = context.value? name := by
    unfold value? FunctionContext.bind
    rw [NameMap.find?_insert, if_neg different.symm]
  induction touches with
  | done same => rw [value?, same.values]; rfl
  | publish context _ value type =>
      exact binds context value type (absent _ List.mem_cons_self)
  | back | slot | rename => rfl
  | bind context _ value type =>
      exact binds context value type (absent _ List.mem_cons_self)
  | @scope used context later touches ih =>
      rw [value?_unwindTo]
      · exact ih within.enterScope absent
      · -- A slot around the scope is left, or there was none.
        have stack : later.stack name = context.stack name :=
          touches.stack_eq within.enterScope absent
        have left : unwound context.depth (context.stack name) =
            context.stack name :=
          unwound_append (List.forall_mem_nil _) (within name)
        rw [stack, left]
        exact em _
  | trans first _ ih laterIh =>
      rw [List.forall_mem_append] at absent
      exact (laterIh (first.withinDepth within) absent.2).trans
        (ih within absent.1)

/-- A name that initializes no variable stands for what it did. -/
theorem Touches.alias?_eq (touches : Touches used context later)
    {name : String} (absent : .aliased name ∉ used) :
    later.alias? name = context.alias? name := by
  induction touches with
  | done same => rw [alias?, same.aliases]; rfl
  | publish | back | slot | bind => rfl
  | rename context initial target =>
      have different : name ≠ initial := fun same =>
        absent (by rw [same]; exact List.mem_cons_self)
      unfold alias? setAlias
      rw [NameMap.find?_insert, if_neg different]
  | scope _ ih =>
      rw [alias?, aliases_unwindTo]
      exact ih absent
  | trans _ _ ih laterIh =>
      rw [List.mem_append, not_or] at absent
      exact (laterIh absent.2).trans (ih absent.1)

/-! ## Resolution -/

/-- What a name is read from. -/
inductive Source where
  | slot (name : String) (slot : Value)
  | value (value : Value)

def slotSource? (context : FunctionContext) (name : String) : Option Source :=
  (context.slot? name).map (.slot name)

def valueSource? (context : FunctionContext) (name : String) : Option Source :=
  (context.value? name).map .value

/-- The variable that a name initialized, unless it is gone. -/
def aliasedSource? (context : FunctionContext) (initial : String) :
    Option Source :=
  (context.alias? initial).bind fun target =>
    (context.slotSource? target).or (context.valueSource? target)

/-- What a name is resolved to. -/
def resolution? (context : FunctionContext) (name : String) : Option Source :=
  (context.slotSource? name).or <|
    (context.aliasedSource? name).or <|
      ((temporaryBase? name).bind context.aliasedSource?).or <|
        context.valueSource? name

/-- A name is not used, nor are the names that it is resolved through, apart
from variables that have slots. -/
structure Undisturbed (context : FunctionContext) (used : List NameUse)
    (name : String) : Prop where
  own : ∀ use ∈ used, use.name ≠ name
  base : ∀ base, temporaryBase? name = some base → .aliased base ∉ used
  target : ∀ initial target,
    (initial = name ∨ temporaryBase? name = some initial) →
    context.alias? initial = some target →
    context.slot? target ≠ none ∨ ∀ use ∈ used, use.name ≠ target

theorem Undisturbed.mono {name : String} {more : List NameUse}
    (undisturbed : context.Undisturbed more name) (subset : used ⊆ more) :
    context.Undisturbed used name where
  own use member := undisturbed.own use (subset member)
  base base same member := undisturbed.base base same (subset member)
  target initial target through same :=
    (undisturbed.target initial target through same).imp_right
      fun unused use member => unused use (subset member)

theorem slotSource?_eq (stack : ∀ name, later.stack name = context.stack name)
    (name : String) : later.slotSource? name = context.slotSource? name := by
  unfold slotSource?
  rw [slot?_eq, slot?_eq, stack name]

/-- Where slots are as before, so are undisturbed names. -/
theorem Undisturbed.resolution?_eq {name : String}
    (undisturbed : context.Undisturbed used name)
    (touches : Touches used context later) (within : context.WithinDepth)
    (stack : ∀ name, later.stack name = context.stack name) :
    later.resolution? name = context.resolution? name := by
  have slots := slotSource?_eq stack
  have values {other : String} (absent : ∀ use ∈ used, use.name ≠ other) :
      later.valueSource? other = context.valueSource? other := by
    rw [valueSource?, touches.value?_eq within absent]
    rfl
  have aliased {initial : String}
      (through : initial = name ∨ temporaryBase? name = some initial)
      (absent : .aliased initial ∉ used) :
      later.aliasedSource? initial = context.aliasedSource? initial := by
    unfold aliasedSource?
    rw [touches.alias?_eq absent]
    cases found : context.alias? initial with
    | none => rfl
    | some target =>
        rw [Option.bind_some, Option.bind_some, slots]
        rcases undisturbed.target initial target through found with
          held | unused
        · obtain ⟨slot, isSlot⟩ := Option.ne_none_iff_exists'.mp held
          rw [slotSource?, isSlot]
          rfl
        · rw [values unused]
  have own : later.aliasedSource? name = context.aliasedSource? name :=
    aliased (.inl rfl) fun member => undisturbed.own _ member rfl
  have base : (temporaryBase? name).bind later.aliasedSource? =
      (temporaryBase? name).bind context.aliasedSource? := by
    cases found : temporaryBase? name with
    | none => rfl
    | some base => exact aliased (.inr found) (undisturbed.base base found)
  rw [resolution?, slots, own, base, values undisturbed.own]
  rfl

end FunctionContext

section Reading

variable {Result : Type} {environment : Environment} {state : EmitState}
  {source : FunctionContext.Source}

/-- Reads a value from where it is. -/
def FunctionContext.Source.read : Source → Emission (Option Value)
  | .slot name address => Builder.load address name
  | .value held => pure (some held)

/-- What a search finds if there is a place to search in. -/
def Finds (search : Emission (Option Value)) (environment : Environment)
    (state : EmitState) (place : Option FunctionContext.Source) : Prop :=
  (place = none → search environment state = (none, state)) ∧
    ∀ source, place = some source →
      (source.read environment state).1 ≠ none →
      search environment state = source.read environment state

theorem Finds.orElse {first second : Emission (Option Value)}
    {place other : Option FunctionContext.Source}
    (finds : Finds first environment state place)
    (otherwise : Finds second environment state other) :
    Finds (orElseFind first second) environment state (place.or other) := by
  have run : orElseFind first second environment state =
      match first environment state with
      | (some result, later) => (some result, later)
      | (none, later) => second environment later := by
    unfold orElseFind
    rw [reader_bind_apply]
    obtain ⟨result, later⟩ := first environment state
    cases result <;> rfl
  cases place with
  | none =>
      rw [Finds, run, finds.1 rfl]
      exact otherwise
  | some source =>
      refine ⟨nofun, ?_⟩
      rintro _ ⟨⟩ succeeds
      rw [run, finds.2 source rfl succeeds]
      generalize source.read environment state = outcome at succeeds
      obtain ⟨result, later⟩ := outcome
      cases result with
      | none => exact absurd rfl succeeds
      | some result => rfl

theorem finds_loadSlot (name : String) :
    Finds (loadSlot name) environment state
      (state.context.slotSource? name) := by
  unfold loadSlot FunctionContext.slotSource?
  have looks : context environment state = (state.context, state) := rfl
  rw [Finds, reader_bind_apply, looks]
  dsimp only
  cases state.context.slot? name with
  | none => exact ⟨fun _ => rfl, nofun⟩
  | some slot =>
      refine ⟨nofun, ?_⟩
      rintro _ ⟨⟩ -
      rfl

theorem finds_boundValue (name : String) :
    Finds (boundValue name) environment state
      (state.context.valueSource? name) := by
  have looks : boundValue name environment state =
      (state.context.value? name, state) := rfl
  unfold FunctionContext.valueSource?
  rw [Finds, looks]
  cases state.context.value? name with
  | none => exact ⟨fun _ => rfl, nofun⟩
  | some value =>
      refine ⟨nofun, ?_⟩
      rintro _ ⟨⟩ -
      rfl

theorem finds_readAliased (initial : String) :
    Finds (readAliased initial) environment state
      (state.context.aliasedSource? initial) := by
  unfold readAliased FunctionContext.aliasedSource?
  have looks : context environment state = (state.context, state) := rfl
  rw [Finds, reader_bind_apply, looks]
  dsimp only
  cases state.context.alias? initial with
  | none => exact ⟨fun _ => rfl, nofun⟩
  | some target =>
      exact (finds_loadSlot target).orElse (finds_boundValue target)

/-- A name is read from what it is resolved to, unless it cannot be loaded
from there. -/
theorem finds_getValue (name : String) :
    Finds (getValue name) environment state
      (state.context.resolution? name) := by
  refine (finds_loadSlot name).orElse ((finds_readAliased name).orElse
    (.orElse ?_ (finds_boundValue name)))
  cases temporaryBase? name with
  | none => exact ⟨fun _ => rfl, nofun⟩
  | some base => exact finds_readAliased base

end Reading

/-! ## Blocks -/

/-- Names were used as accounted for, and have the slots that they had. -/
structure EmitState.Restores (environment : Environment)
    (uses : List NameUse) (state later : EmitState) : Prop where
  uses : state.Uses environment uses later
  slots : state.context.WithinDepth → ∀ name,
    later.context.stack name = state.context.stack name

theorem EmitState.Uses.withinDepth {environment : Environment}
    {uses : List NameUse} {state later : EmitState}
    (used : state.Uses environment uses later)
    (within : state.context.WithinDepth) : later.context.WithinDepth := by
  obtain ⟨_, -, touches⟩ := used
  exact touches.withinDepth within

instance : Graded EmitState.Restores where
  refl environment state := ⟨Graded.refl environment state, fun _ _ => rfl⟩
  trans first second := ⟨Graded.trans first.uses second.uses,
    fun within name => (second.slots (first.uses.withinDepth within)
      name).trans (first.slots within name)⟩
  mono subperm restores :=
    ⟨Graded.mono subperm restores.uses, restores.slots⟩

section Blocks

variable {Result : Type} {uses : List NameUse} {emit : FormEmitter}

/-- Where no names are used, no slots are made. -/
theorem Does.restores {emission : Emission Result}
    (does : Does EmitState.Plainly [] emission) :
    Does EmitState.Restores [] emission := by
  intro environment state
  obtain ⟨used, fits, touches⟩ := (does environment state).uses
  refine ⟨⟨used, fits, touches⟩, fun within name => ?_⟩
  cases List.subperm_nil.mp fits
  exact touches.stack_eq within (List.forall_mem_nil _)

theorem restores_inScope {emission : Emission Unit}
    (does : Does EmitState.Uses uses emission) :
    Does EmitState.Restores uses (inScope emission) := by
  intro environment state
  obtain ⟨used, fits, touches⟩ := does environment
    { state with context := state.context.enterScope }
  refine ⟨⟨used, fits, .scope touches⟩, fun within => ?_⟩
  exact (touches.layered within.enterScope).unwindTo within

theorem restores_emitBlock
    (emits : ∀ form, Does (EmitState.Keeps []) (formUses form) (emit form))
    (items : List Form) :
    Tries EmitState.Restores (items.flatMap formUses)
      (emitBlock emit items) := by
  refine .parse fun (locals, body) found => ?_
  refine .known (.mapM fun form _ => Does.restores (tries_readLocal _ form))
    (Gives.mapM (gives_readLocal _) locals) fun declared fits => ?_
  refine .mono (.lift (restores_inScope ?_))
    ((fits.append (.refl _)).trans (uses_of_blockParts found))
  refine .bind (.forM fun (name, type) _ => ?_) fun _ =>
    (keeps_emitSequence emits body : Does (EmitState.Keeps []) _ _).onlyNames
  exact .last (does_declareSlot name type).names fun _ => .pure ()

theorem restores_atPlaceOf (form : Form) {emission : Emission Unit}
    (restores : Does EmitState.Restores uses emission) :
    Does EmitState.Restores uses (atPlaceOf form emission) := by
  have moves (span : Option Span) : Does EmitState.Restores []
      (modify fun state => { state with span } : Emission Unit) :=
    Does.restores fun _ _ => .of_same rfl rfl rfl rfl
  refine .step does_get.restores fun state => .step (moves _) fun _ => ?_
  exact .last restores fun _ => moves _

/-- Every name has the slots after a block that it had before. -/
theorem restores_emitWithin (depth : Nat) {form : Form}
    (isBlock : form.head? = some "block") :
    Does EmitState.Restores (formUses form) (emitWithin depth form) := by
  have reports (operation : String) (cause : ProblemCause) :
      Does EmitState.Restores [] (report operation cause) :=
    (does_report operation cause).restores
  cases depth with
  | zero => exact .mono (reports _ _) List.nil_subperm
  | succ depth =>
      unfold emitWithin
      split
      · next items found =>
          refine restores_atPlaceOf form ?_
          have block : form.head?.bind Opcode.ofHead? = some .block := by
            rw [isBlock]
            decide
          dsimp only
          rw [block]
          have own := restores_emitBlock (keeps_emitWithin depth) items
          refine .last (.mono own ?_) fun outcome => ?_
          · rw [formUses_of_list found]
            exact (List.sublist_append_right _ _).subperm
          · split
            · exact .pure ()
            · exact reports _ _
      · exact .mono (reports _ _) List.nil_subperm

end Blocks

/-- `(block [(as %v i32 1)])` -/
def shadowingBlock : Form :=
  Form.list [Form.symbol "block", Form.vector [
    Form.list [Form.symbol "as", Form.symbol "%v", Form.symbol "i32",
      .atom .empty (.int 1)]]]

/-- A function that initializes, in a block, a variable from its parameter
while a variable of the same name is around the block. -/
def shadowingInitializer : Form :=
  Form.list [Form.symbol "module",
    Form.keywordCall "fn" [("name", Form.symbol "f"),
      ("ret", Form.symbol "i32"),
      ("params", Form.vector [Form.list [Form.symbol "param",
        Form.symbol "i32", Form.symbol "%x"]]),
      ("body", Form.vector [
        Form.list [Form.symbol "as", Form.symbol "%v", Form.symbol "i32",
          .atom .empty (.int 7)],
        Form.list [Form.symbol "block", Form.vector [
          Form.list [Form.symbol "as", Form.symbol "%v", Form.symbol "i32",
            Form.symbol "%x"]]],
        Form.list [Form.symbol "ret", Form.symbol "i32",
          Form.symbol "%x"]])]]

end FormCompiler
