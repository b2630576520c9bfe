import FormCompiler.Emit.Mutability
import FormCompiler.Emit.TypeForm
import FormCompiler.Proofs.Execution
import FormCompiler.Proofs.FormUses

/-!
# Straight-line code

The statements of functions without branches, calls and addresses, the forms
they are written as, and what they mean: a reference interpreter runs them in
a stack of scopes.  A name that is defined once, and neither declared nor
assigned, is a constant of the whole function; any other name is a variable,
and lives in the scope that it was first written in.
-/

namespace FormCompiler

open Ir

/-! ## Statements -/

/-- A literal that stands for an integer. -/
inductive IntLiteral where
  | int (value : Int)
  | bool (value : Bool)
deriving DecidableEq, Repr

inductive Argument where
  | numeral (value : IntLiteral)
  | name (name : String)
deriving DecidableEq, Repr

inductive Statement where
  /-- `(const %name iN value)` -/
  | constant (name : String) (bits : Nat) (value : IntLiteral)
  /-- `(op %name iN left right)` -/
  | compute (operator : ModularOperator) (name : String) (bits : Nat)
      (left right : Argument)
  /-- `(as %name T initial)` -/
  | declare (name : String) (type : IrType) (initial : IntLiteral)
  /-- `(assign %name %source)` -/
  | assign (name source : String)
  /-- `(block :locals [(local T %name)..] :body [..])` -/
  | block (locals : List String) (body : List Statement)
  /-- `(ret T argument)` -/
  | ret (type : IrType) (argument : Argument)
  /-- `(ret)` -/
  | leave

/-! ## Meaning -/

/-- A literal at a type.  At a type that is no number it is zero, whatever
number is written. -/
def IntLiteral.at (type : IrType) : IntLiteral → Quantity
  | .int value =>
      if type.isFloat then .ofDouble type (.ofInt value)
      else .ofInt type value
  | .bool value => .ofInt type (if value then 1 else 0)

/-- What names stand for: constants in the whole function, and variables in
the scopes that are open, the innermost first. -/
structure Scopes where
  constants : NameMap Quantity := {}
  frames : List (NameMap Quantity) := [{}]

/-- Writes a name in the innermost scope that has it, if one does. -/
def writeVisible (name : String) (value : Quantity) :
    List (NameMap Quantity) → Option (List (NameMap Quantity))
  | [] => none
  | scope :: outer =>
      if (scope.find? name).isSome then some (scope.insert name value :: outer)
      else (writeVisible name value outer).map (scope :: ·)

namespace Scopes

/-- The innermost variable of a name, or its constant. -/
def read? (scopes : Scopes) (name : String) : Option Quantity :=
  (scopes.frames.findSome? fun scope => scope.find? name).or
    (scopes.constants.find? name)

/-- Writes a name in the innermost scope. -/
def declare (scopes : Scopes) (name : String) (value : Quantity) : Scopes :=
  match scopes.frames with
  | [] => scopes
  | scope :: outer =>
      { scopes with frames := scope.insert name value :: outer }

/-- Writes the innermost variable of a name, which is made in the innermost
scope where there is none. -/
def assign (scopes : Scopes) (name : String) (value : Quantity) : Scopes :=
  match writeVisible name value scopes.frames with
  | some frames => { scopes with frames }
  | none => scopes.declare name value

/-- Gives a name the result of a definition. -/
def define (isVariable : String → Bool) (scopes : Scopes) (name : String)
    (value : Quantity) : Scopes :=
  if isVariable name then scopes.assign name value
  else { scopes with constants := scopes.constants.insert name value }

/-- Opens a scope with variables that nothing was written in. -/
def enter (scopes : Scopes) (locals : List String) : Scopes :=
  { scopes with
    frames := ⟨locals.map fun name => (name, .undefined)⟩ ::
      scopes.frames }

/-- Closes the innermost scope. -/
def leave (scopes : Scopes) : Scopes :=
  { scopes with frames := scopes.frames.tail }

def value? (scopes : Scopes) (type : IrType) : Argument → Option Quantity
  | .numeral value => some (value.at type)
  | .name name => scopes.read? name

end Scopes

mutual

/-- Runs a statement of a function that gives something back where nothing
else is said. -/
def Statement.run (isVariable : String → Bool) (fallback : Option Quantity) :
    Statement → Scopes → Progress Scopes
  | .constant name bits value, scopes =>
      .goesOn (scopes.define isVariable name (value.at (.int bits)))
  | .compute operator name bits left right, scopes =>
      match scopes.value? (.int bits) left,
        scopes.value? (.int bits) right with
      | some left, some right =>
          .goesOn (scopes.define isVariable name (left.combine operator right))
      | _, _ => .stuck
  | .declare name type initial, scopes =>
      .goesOn (scopes.declare name (initial.at type))
  | .assign name source, scopes =>
      match scopes.read? source with
      | some value => .goesOn (scopes.assign name value)
      | none => .stuck
  | .block locals body, scopes =>
      match runAll isVariable fallback body (scopes.enter locals) with
      | .goesOn inner => .goesOn inner.leave
      | ended => ended
  | .ret type argument, scopes =>
      match scopes.value? type argument with
      | some value => .returns (some value)
      | none => .stuck
  | .leave, _ => .returns fallback

/-- Runs statements in order. -/
def Statement.runAll (isVariable : String → Bool)
    (fallback : Option Quantity) :
    List Statement → Scopes → Progress Scopes
  | [], scopes => .goesOn scopes
  | statement :: rest, scopes =>
      match statement.run isVariable fallback scopes with
      | .goesOn later => runAll isVariable fallback rest later
      | ended => ended

end

mutual

/-- The names that a statement defines, with repetitions. -/
def Statement.defined : Statement → List String
  | .constant name .. => [name]
  | .compute _ name .. => [name]
  | .block _ body => definedAll body
  | .declare .. | .assign .. | .ret .. | .leave => []

def Statement.definedAll : List Statement → List String
  | [] => []
  | statement :: rest => statement.defined ++ definedAll rest

end

mutual

/-- The names that a statement declares or assigns. -/
def Statement.written : Statement → List String
  | .declare name .. => [name]
  | .assign name _ => [name]
  | .block locals body => locals ++ writtenAll body
  | .constant .. | .compute .. | .ret .. | .leave => []

def Statement.writtenAll : List Statement → List String
  | [] => []
  | statement :: rest => statement.written ++ writtenAll rest

end

/-- Whether a name of a function is a variable.  Parameters are
definitions. -/
def isVariable (parameters : List String) (body : List Statement)
    (name : String) : Bool :=
  1 < (parameters ++ Statement.definedAll body).count name ||
    (Statement.writtenAll body).contains name

/-- The scopes that a body starts in. -/
def Scopes.ofArguments (isVariable : String → Bool)
    (arguments : List (String × Quantity)) : Scopes :=
  arguments.foldl
    (fun scopes argument =>
      scopes.define isVariable argument.1 argument.2) {}

/-- What a function gives back for certain arguments.  There is no value where
some name is not known. -/
def meaning (parameters : List String) (fallback : Option Quantity)
    (body : List Statement) (arguments : List Quantity) :
    Option (Option Quantity) :=
  let isVariable := isVariable parameters body
  match Statement.runAll isVariable fallback body
      (.ofArguments isVariable (parameters.zip arguments)) with
  | .goesOn _ => some fallback
  | .returns value => some value
  | .stuck => none

/-! ## Forms -/

/-- A list form with a symbol at its head. -/
def Form.Heads (form : Form) (head : String) (items : List Form) : Prop :=
  ∃ note headNote,
    form = .group note .list (.atom headNote (.symbol head) :: items)

/-- The instruction type that a symbol is lowered to. -/
def symbolIrType (name : String) : IrType :=
  match name with
  | "i1" => .int 1
  | "i8" => .int 8
  | "u8" => .int 8
  | "i16" => .int 16
  | "u16" => .int 16
  | "i32" => .int 32
  | "u32" => .int 32
  | "i64" => .int 64
  | "u64" => .int 64
  | "f32" => .float
  | "f64" => .double
  | name => .named (nameBeforeNul (structTypeName name))

/-- The heads of lists that build types. -/
def typeHeads : List String := ["ptr", "struct-ref", "array", "fn-type"]

/-- A form is written as types are: no instruction stands in it. -/
inductive SpellsType : Form → Prop
  | atom {form : Form} : form.isAtom = true → SpellsType form
  | vector {form : Form} {items : List Form} :
      form.vector? = some items → (∀ item ∈ items, SpellsType item) →
      SpellsType form
  | list {form : Form} {head : String} {items : List Form} :
      form.Heads head items → head ∈ typeHeads →
      (∀ item ∈ items, SpellsType item) → SpellsType form

/-- A form names a type that values of a variable may have, within a number of
levels. -/
inductive NamesType : (levels : Nat) → Form → IrType → Prop
  | symbol {levels : Nat} {form : Form} {name : String} :
      form.symbol? = some name → name ≠ "void" →
      NamesType (levels + 1) form (symbolIrType name)
  | pointer {levels : Nat} {form : Form} {items : List Form} :
      form.Heads "ptr" items → (∀ item ∈ items, SpellsType item) →
      NamesType (levels + 1) form .pointer
  | struct {levels : Nat} {form nameForm : Form} {name : String} :
      form.Heads "struct-ref" [nameForm] → nameForm.name? = some name →
      NamesType (levels + 1) form
        (.named (nameBeforeNul (structTypeName name)))
  | array {levels length : Nat} {form element : Form} {items : List Form}
      {type : IrType} :
      form.Heads "array" items → (∀ item ∈ items, SpellsType item) →
      (KeywordArguments.ofItems items).get? "elem" = some element →
      NamesType levels element type →
      ((KeywordArguments.ofItems items).get? "size").bind arrayLength? =
        some length →
      NamesType (levels + 1) form (.array (min length 0xFFFFFFFF) type)

/-- A form names a type. -/
abbrev IsType (form : Form) (type : IrType) : Prop :=
  NamesType loweringLevels form type

inductive IntLiteral.Written : IntLiteral → Form → Prop
  | int {form : Form} {value : Int64} :
      form.int? = some value → Written (.int value.toInt) form
  | bool {form : Form} {value : Bool} :
      form.bool? = some value → Written (.bool value) form

inductive Argument.Written : Argument → Form → Prop
  | numeral {value : IntLiteral} {form : Form} :
      value.Written form → Written (.numeral value) form
  | name {name : String} {form : Form} :
      localName? form = some name → Written (.name name) form

/-- `(local T %name)` -/
def LocalWritten (name : String) (form : Form) : Prop :=
  ∃ typeForm nameForm type, form.Heads "local" [typeForm, nameForm] ∧
    IsType typeForm type ∧ localName? nameForm = some name

/-- The items of a block after its head, with its locals and its body. -/
inductive BlockItems : List Form → List Form → List Form → Prop
  | plain {bodyForm : Form} {body : List Form} :
      bodyForm.vector? = some body → BlockItems [bodyForm] [] body
  | body {bodyKey bodyForm : Form} {body : List Form} :
      bodyKey.keyword? = some "body" → bodyForm.vector? = some body →
      BlockItems [bodyKey, bodyForm] [] body
  | localsFirst {localsKey localsForm bodyKey bodyForm : Form}
      {locals body : List Form} :
      localsKey.keyword? = some "locals" →
      localsForm.vector? = some locals →
      bodyKey.keyword? = some "body" → bodyForm.vector? = some body →
      BlockItems [localsKey, localsForm, bodyKey, bodyForm] locals body
  | bodyFirst {localsKey localsForm bodyKey bodyForm : Form}
      {locals body : List Form} :
      bodyKey.keyword? = some "body" → bodyForm.vector? = some body →
      localsKey.keyword? = some "locals" →
      localsForm.vector? = some locals →
      BlockItems [bodyKey, bodyForm, localsKey, localsForm] locals body

/-- A statement is written as a form. -/
inductive Statement.Written : Statement → Form → Prop
  | constant {name : String} {bits : Nat} {value : IntLiteral}
      {form destination typeForm literal : Form} :
      form.Heads "const" [destination, typeForm, literal] →
      localName? destination = some name → IsType typeForm (.int bits) →
      value.Written literal → Written (.constant name bits value) form
  | compute {operator : ModularOperator} {name : String} {bits : Nat}
      {left right : Argument}
      {form destination typeForm leftForm rightForm : Form} :
      form.Heads operator.operator.mnemonic
        [destination, typeForm, leftForm, rightForm] →
      localName? destination = some name → IsType typeForm (.int bits) →
      left.Written leftForm → right.Written rightForm →
      Written (.compute operator name bits left right) form
  | declare {name : String} {type : IrType} {initial : IntLiteral}
      {form destination typeForm literal : Form} :
      form.Heads "as" [destination, typeForm, literal] →
      localName? destination = some name → IsType typeForm type →
      initial.Written literal → Written (.declare name type initial) form
  | assign {name source : String} {form destination sourceForm : Form} :
      form.Heads "assign" [destination, sourceForm] →
      localName? destination = some name →
      localName? sourceForm = some source →
      Written (.assign name source) form
  | block {locals : List String} {body : List Statement} {form : Form}
      {items localForms bodyForms : List Form} :
      form.Heads "block" items → BlockItems items localForms bodyForms →
      List.Forall₂ LocalWritten locals localForms →
      List.Forall₂ Written body bodyForms →
      Written (.block locals body) form
  | ret {type : IrType} {argument : Argument}
      {form typeForm valueForm : Form} :
      form.Heads "ret" [typeForm, valueForm] → IsType typeForm type →
      argument.Written valueForm → Written (.ret type argument) form
  | leave {form : Form} : form.Heads "ret" [] → Written .leave form
  | leaveTyped {form typeForm : Form} :
      form.Heads "ret" [typeForm] → SpellsType typeForm →
      Written .leave form

/-! ## Names that need a slot -/

/-- The names that the lists in a form show, each list by itself. -/
def Form.shown (own? : Form → Option String) (form : Form) : List String :=
  (nestedLists form).filterMap own?

/-- No list in a form defines or marks a name. -/
def Form.Inert (form : Form) : Prop :=
  form.shown definedName? = [] ∧ form.shown markedName? = []

theorem Form.inert_of_isAtom {form : Form} (atom : form.isAtom = true) :
    form.Inert := by
  cases form with
  | atom note value => exact ⟨rfl, rfl⟩
  | group | tagged => cases atom

theorem isAtom_of_symbol? {form : Form} {name : String}
    (symbol : form.symbol? = some name) : form.isAtom = true := by
  unfold Tree.symbol? at symbol
  split at symbol
  · rfl
  · cases symbol

theorem isAtom_of_keyword? {form : Form} {name : String}
    (keyword : form.keyword? = some name) : form.isAtom = true := by
  unfold Tree.keyword? at keyword
  split at keyword
  · rfl
  · cases keyword

theorem isAtom_of_name? {form : Form} {name : String}
    (named : form.name? = some name) : form.isAtom = true := by
  unfold Tree.name? at named
  split at named
  · rfl
  · rfl
  · cases named

theorem isAtom_of_localName? {form : Form} {name : String}
    (named : localName? form = some name) : form.isAtom = true := by
  obtain ⟨written, found, -⟩ := Option.bind_eq_some_iff.mp named
  exact isAtom_of_name? found

theorem IntLiteral.Written.isAtom {value : IntLiteral} {form : Form}
    (written : value.Written form) : form.isAtom = true := by
  cases written with
  | int found =>
      unfold Tree.int? at found
      split at found
      · rfl
      · cases found
  | bool found =>
      unfold Tree.bool? at found
      split at found
      · rfl
      · cases found

theorem Argument.Written.isAtom {argument : Argument} {form : Form}
    (written : argument.Written form) : form.isAtom = true := by
  cases written with
  | numeral written => exact written.isAtom
  | name named => exact isAtom_of_localName? named

theorem Form.Heads.shown_eq {form : Form} {head : String}
    {items : List Form} (heads : form.Heads head items)
    (own? : Form → Option String) :
    form.shown own? =
      (own? form).toList ++ items.flatMap (Form.shown own?) := by
  obtain ⟨note, headNote, rfl⟩ := heads
  have atom : nestedLists (.atom headNote (.symbol head) : Form) = [] := by
    simp [nestedLists]
  unfold Form.shown
  rw [nestedLists, nestedListsAll, atom, List.nil_append,
    List.filterMap_cons, nestedListsAll_eq, List.filterMap_flatMap]
  cases own? _ <;> rfl

theorem Form.Heads.head?_eq {form : Form} {head : String}
    {items : List Form} (heads : form.Heads head items) :
    form.head? = some head := by
  obtain ⟨note, headNote, rfl⟩ := heads
  rfl

theorem Form.shown_of_vector? {form : Form} {items : List Form}
    (vector : form.vector? = some items) (own? : Form → Option String) :
    form.shown own? = items.flatMap (Form.shown own?) := by
  unfold Tree.vector? at vector
  split at vector <;> cases vector
  unfold Form.shown
  rw [nestedLists, nestedListsAll_eq, List.filterMap_flatMap]

/-- A list form around forms without names shows its own names only. -/
theorem Form.Heads.shown_of_inert {form : Form} {head : String}
    {items : List Form} (heads : form.Heads head items)
    (inert : ∀ item ∈ items, item.Inert) :
    form.shown definedName? = (definedName? form).toList ∧
      form.shown markedName? = (markedName? form).toList := by
  constructor
  · rw [heads.shown_eq, List.append_right_eq_self, List.flatMap_eq_nil_iff]
    exact fun item member => (inert item member).1
  · rw [heads.shown_eq, List.append_right_eq_self, List.flatMap_eq_nil_iff]
    exact fun item member => (inert item member).2

theorem Form.Heads.inert {form : Form} {head : String} {items : List Form}
    (heads : form.Heads head items)
    (silent : definedName? form = none ∧ markedName? form = none)
    (inert : ∀ item ∈ items, item.Inert) : form.Inert := by
  obtain ⟨defined, marked⟩ := heads.shown_of_inert inert
  exact ⟨by rw [defined, silent.1]; rfl, by rw [marked, silent.2]; rfl⟩

/-- A form whose head is no opcode neither defines nor marks a name. -/
theorem silent_of_head? {form : Form} {head : String}
    (found : form.head? = some head) (notLocal : head ≠ "local")
    (notBind : head ≠ "bind") (unknown : Opcode.ofHead? head = none) :
    definedName? form = none ∧ markedName? form = none := by
  unfold definedName? markedName?
  rw [found]
  split
  · next same => cases same
  · next same =>
      cases same
      exact absurd rfl notLocal
  · next same =>
      cases same
      exact absurd rfl notBind
  · next same =>
      cases same
      rw [unknown]
      exact ⟨rfl, rfl⟩

theorem SpellsType.inert {form : Form} (spells : SpellsType form) :
    form.Inert := by
  induction spells with
  | atom isAtom => exact Form.inert_of_isAtom isAtom
  | vector vector _ ih =>
      constructor
      · rw [Form.shown_of_vector? vector, List.flatMap_eq_nil_iff]
        exact fun item member => (ih item member).1
      · rw [Form.shown_of_vector? vector, List.flatMap_eq_nil_iff]
        exact fun item member => (ih item member).2
  | @list _ head _ heads isType _ ih =>
      have noInstruction : ∀ head ∈ typeHeads,
          head ≠ "local" ∧ head ≠ "bind" ∧ Opcode.ofHead? head = none := by
        decide
      obtain ⟨notLocal, notBind, unknown⟩ := noInstruction head isType
      exact heads.inert
        (silent_of_head? heads.head?_eq notLocal notBind unknown) ih

theorem NamesType.spells {levels : Nat} {form : Form} {type : IrType}
    (names : NamesType levels form type) : SpellsType form := by
  cases names with
  | symbol found _ => exact .atom (isAtom_of_symbol? found)
  | pointer heads items => exact .list heads (by decide) items
  | struct heads named =>
      refine .list heads (by decide) ?_
      simpa using SpellsType.atom (isAtom_of_name? named)
  | array heads items => exact .list heads (by decide) items

theorem NamesType.inert {levels : Nat} {form : Form} {type : IrType}
    (names : NamesType levels form type) : form.Inert := names.spells.inert

theorem BlockItems.shown {items locals body : List Form}
    (parts : BlockItems items locals body) (own? : Form → Option String)
    (silent : ∀ form : Form, form.isAtom = true → form.shown own? = []) :
    (items.flatMap (Form.shown own?)).Perm
      (locals.flatMap (Form.shown own?) ++
        body.flatMap (Form.shown own?)) := by
  cases parts with
  | plain isBody => simp [Form.shown_of_vector? isBody]
  | body key isBody =>
      simp [silent _ (isAtom_of_keyword? key), Form.shown_of_vector? isBody]
  | localsFirst localsKey isLocals bodyKey isBody =>
      simp [silent _ (isAtom_of_keyword? localsKey),
        silent _ (isAtom_of_keyword? bodyKey),
        Form.shown_of_vector? isLocals, Form.shown_of_vector? isBody]
  | bodyFirst bodyKey isBody localsKey isLocals =>
      simpa [silent _ (isAtom_of_keyword? localsKey),
        silent _ (isAtom_of_keyword? bodyKey),
        Form.shown_of_vector? isLocals, Form.shown_of_vector? isBody]
        using List.perm_append_comm

theorem LocalWritten.shown {name : String} {form : Form}
    (written : LocalWritten name form) :
    form.shown definedName? = [] ∧ form.shown markedName? = [name] := by
  obtain ⟨typeForm, nameForm, type, heads, isType, named⟩ := written
  have inert : ∀ item ∈ [typeForm, nameForm], item.Inert := by
    simpa using ⟨isType.inert,
      Form.inert_of_isAtom (isAtom_of_localName? named)⟩
  obtain ⟨defined, marked⟩ := heads.shown_of_inert inert
  obtain ⟨note, headNote, rfl⟩ := heads
  rw [defined, marked]
  exact ⟨rfl, congrArg Option.toList named⟩

/-- The scan of a form sees the names that its statement writes, and how often
it defines any other name. -/
structure Statement.Scanned (defined written : List String)
    (forms : List Form) : Prop where
  marked : ∀ name, name ∈ forms.flatMap (Form.shown markedName?) ↔
    name ∈ written
  count : ∀ name, name ∉ written →
    (forms.flatMap (Form.shown definedName?)).count name = defined.count name

theorem Statement.Scanned.append {defined written moreDefined moreWritten :
      List String} {forms more : List Form}
    (first : Statement.Scanned defined written forms)
    (second : Statement.Scanned moreDefined moreWritten more) :
    Statement.Scanned (defined ++ moreDefined) (written ++ moreWritten)
      (forms ++ more) := by
  constructor
  · intro name
    rw [List.flatMap_append, List.mem_append, List.mem_append,
      first.marked, second.marked]
  · intro name unwritten
    rw [List.mem_append, not_or] at unwritten
    rw [List.flatMap_append, List.count_append, List.count_append,
      first.count name unwritten.1, second.count name unwritten.2]

/-- A statement without a body, which may define one name and write another
one. -/
theorem Form.Heads.scanned {form : Form} {head : String} {items : List Form}
    {written : List String} {own : Option String}
    (heads : form.Heads head items) (inert : ∀ item ∈ items, item.Inert)
    (marks : (markedName? form).toList = written)
    (defines : definedName? form = own) (defined : List String)
    (same : ∀ name, name ∉ written →
      own.toList.count name = defined.count name) :
    Statement.Scanned defined written [form] := by
  obtain ⟨ownDefined, ownMarked⟩ := heads.shown_of_inert inert
  constructor
  · intro name
    rw [List.flatMap_singleton, ownMarked, marks]
  · intro name unwritten
    rw [List.flatMap_singleton, ownDefined, defines]
    exact same name unwritten

theorem scanned_locals {locals : List String} {forms : List Form}
    (written : List.Forall₂ LocalWritten locals forms) :
    Statement.Scanned [] locals forms := by
  induction written with
  | nil => exact ⟨fun _ => Iff.rfl, fun _ _ => rfl⟩
  | @cons name form _ _ first _ ih =>
      obtain ⟨defined, marked⟩ := first.shown
      have here : Statement.Scanned [] [name] [form] := by
        constructor
        · intro other
          rw [List.flatMap_singleton, marked]
        · intro other _
          rw [List.flatMap_singleton, defined]
      exact here.append ih

theorem mnemonic_ofHead? (operator : ModularOperator) :
    Opcode.ofHead? operator.operator.mnemonic =
      some (.binary operator.operator) := by
  cases operator <;> decide

mutual

theorem Statement.Written.scanned : {statement : Statement} →
    {form : Form} → statement.Written form →
    Statement.Scanned statement.defined statement.written [form]
  | .constant name _ _, _, .constant heads named isType literal => by
      obtain ⟨note, headNote, rfl⟩ := id heads
      refine heads.scanned ?_ rfl named _
        fun _ _ => rfl
      simpa using ⟨Form.inert_of_isAtom (isAtom_of_localName? named),
        isType.inert, Form.inert_of_isAtom literal.isAtom⟩
  | .compute operator name _ left right, _,
      .compute heads named isType leftWritten rightWritten => by
      obtain ⟨note, headNote, rfl⟩ := id heads
      have target := Form.inert_of_isAtom (isAtom_of_localName? named)
      have first := Form.inert_of_isAtom leftWritten.isAtom
      have second := Form.inert_of_isAtom rightWritten.isAtom
      cases operator <;>
        exact heads.scanned (by simp [target, isType.inert, first, second])
          rfl named _ fun _ _ => rfl
  | .declare name _ _, _, .declare heads named isType literal => by
      obtain ⟨note, headNote, rfl⟩ := id heads
      refine heads.scanned ?_
        (congrArg Option.toList named) named _ ?_
      · simpa using ⟨Form.inert_of_isAtom (isAtom_of_localName? named),
          isType.inert, Form.inert_of_isAtom literal.isAtom⟩
      · intro other unwritten
        exact List.count_eq_zero.mpr unwritten
  | .assign name source, _, .assign heads named found => by
      obtain ⟨note, headNote, rfl⟩ := id heads
      refine heads.scanned ?_
        (congrArg Option.toList named) named _ ?_
      · simpa using ⟨Form.inert_of_isAtom (isAtom_of_localName? named),
          Form.inert_of_isAtom (isAtom_of_localName? found)⟩
      · intro other unwritten
        exact List.count_eq_zero.mpr unwritten
  | .block locals body, _, .block heads parts localsWritten written => by
      have inner := (scanned_locals localsWritten).append
        (Statement.scanned_all written)
      obtain ⟨note, headNote, rfl⟩ := id heads
      constructor
      · intro name
        rw [List.flatMap_singleton, heads.shown_eq]
        show name ∈ List.flatMap _ _ ↔ _
        rw [(parts.shown _ fun _ atom =>
          (Form.inert_of_isAtom atom).2).mem_iff, ← List.flatMap_append]
        exact inner.marked name
      · intro name unwritten
        rw [List.flatMap_singleton, heads.shown_eq]
        show List.count name (List.flatMap _ _) = _
        rw [(parts.shown _ fun _ atom =>
          (Form.inert_of_isAtom atom).1).count_eq, ← List.flatMap_append]
        exact inner.count name unwritten
  | .ret type argument, _, .ret heads isType written => by
      obtain ⟨note, headNote, rfl⟩ := id heads
      refine heads.scanned ?_ rfl rfl _
        fun _ _ => rfl
      simpa using ⟨isType.inert, Form.inert_of_isAtom written.isAtom⟩
  | .leave, _, .leave heads => by
      obtain ⟨note, headNote, rfl⟩ := id heads
      exact heads.scanned (by simp) rfl rfl _
        fun _ _ => rfl
  | .leave, _, .leaveTyped heads spells => by
      obtain ⟨note, headNote, rfl⟩ := id heads
      refine heads.scanned ?_ rfl rfl _
        fun _ _ => rfl
      simpa using spells.inert

theorem Statement.scanned_all : {body : List Statement} →
    {forms : List Form} → List.Forall₂ Statement.Written body forms →
    Statement.Scanned (Statement.definedAll body) (Statement.writtenAll body)
      forms
  | [], [], .nil => ⟨fun _ => Iff.rfl, fun _ _ => rfl⟩
  | _ :: _, _ :: _, .cons first rest =>
      Statement.Scanned.append first.scanned (Statement.scanned_all rest)

end

/-- The names that live in slots are the variables. -/
theorem contains_mutableNames {body : List Statement} {forms : List Form}
    (written : List.Forall₂ Statement.Written body forms)
    (parameters : List String) (name : String) :
    (mutableNames parameters forms).contains name =
      isVariable parameters body name := by
  obtain ⟨marked, count⟩ := Statement.scanned_all written
  have markedEq : markedNames forms =
      forms.flatMap (Form.shown markedName?) := by
    rw [markedNames, nestedListsAll_eq, List.filterMap_flatMap]
    rfl
  have definedEq : definedNames forms =
      forms.flatMap (Form.shown definedName?) := by
    rw [definedNames, nestedListsAll_eq, List.filterMap_flatMap]
    rfl
  rw [Bool.eq_iff_iff, List.contains_iff_mem, mutableNames, List.mem_eraseDups,
    List.mem_append, List.mem_filter, decide_eq_true_iff, markedEq, marked,
    isVariable, Bool.or_eq_true, decide_eq_true_iff, List.contains_iff_mem]
  by_cases member : name ∈ Statement.writtenAll body
  · simp [member]
  · simp only [member, or_false, List.count_append, definedEq,
      count name member]
    constructor
    · exact And.right
    · intro often
      refine ⟨?_, often⟩
      rw [← List.count_pos_iff, List.count_append, count name member]
      omega

end FormCompiler
