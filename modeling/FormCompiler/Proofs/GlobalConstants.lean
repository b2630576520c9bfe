import FormCompiler.Emit.ModuleForm
import FormCompiler.Proofs.Building
import FormCompiler.Proofs.LiteralGlobals
import FormCompiler.Proofs.SettledTypes

/-!
# Constants of globals

A declared global begins with a constant of its type, which the type and the
literal of the declaration determine: an integer or a float, null, the bytes of
a text, or zero.

A text needs an array of bytes.  For an array of anything else it is taken as
bytes all the same, and then the constant does not have the type of the global.
-/

namespace FormCompiler

open Ir

/-! ## Literals -/

/-- The integer that a literal is; a truth value is one or zero. -/
def integerOf (literal : Option Form) : Int64 :=
  (literal.bind fun form =>
    form.int?.or (form.bool?.map fun value => if value then 1 else 0)).getD 0

/-- The float that a literal is; an integer is converted. -/
def floatOf (literal : Option Form) : Double :=
  (literal.bind fun form =>
    form.float?.or (form.int?.map fun value => .ofInt value.toInt)).getD .zero

/-- The text that a literal is, if it is one. -/
def textOf? (literal : Option Form) : Option String :=
  literal.bind Tree.string?

namespace TypeTable

variable {table later : TypeTable} {type : TypeId} {literal : Option Form}
  {initializer : Initializer} {operand : Operand}

/-! ## Constants of types -/

/-- The instruction type of a global; a byte stands in for a type that has no
values in memory. -/
def storedType (table : TypeTable) (type : TypeId) : IrType :=
  let irType := lowered table loweringLevels type
  if irType.isFirstClass then irType else .int 8

/-- A text stands for an array of bytes only, of a length that can be
lowered. -/
def Suits (table : TypeTable) (type : TypeId) (literal : Option Form) : Prop :=
  ∀ text element length, textOf? literal = some text →
    table.kind type = .array element length →
      table.kind element = .int 8 ∧ length ≤ 0xFFFFFFFF

/-- The initial value and the constant that a global of a type begins with. -/
inductive Begins (table : TypeTable) (type : TypeId)
    (literal : Option Form) : Initializer → Operand → Prop
  | int {bits : Nat} (kind : table.kind type = .int bits) :
      Begins table type literal (.int (integerOf literal))
        (.ofInt bits (integerOf literal).toInt)
  | float (kind : table.kind type = .float) :
      Begins table type literal (.float (floatOf literal))
        (.float (floatOf literal).toSingle)
  | double (kind : table.kind type = .double) :
      Begins table type literal (.float (floatOf literal))
        (.double (floatOf literal))
  | pointer {pointee : TypeId} (kind : table.kind type = .pointer pointee) :
      Begins table type literal .null (.null .pointer)
  | text {element : TypeId} {length : Nat} {text : String}
      {contents : List UInt8} (kind : table.kind type = .array element length)
      (byte : table.kind element = .int 8)
      (isText : textOf? literal = some text)
      (filled : contents.length = length)
      (bytes : ∀ index < length, contents[index]? =
        some ((utf8Bytes text)[index]?.getD 0)) :
      Begins table type literal (.bytes contents) (.bytes contents)
  | array {element : TypeId} {length : Nat}
      (kind : table.kind type = .array element length)
      (noText : textOf? literal = none) :
      Begins table type literal .zero (.zero (table.storedType type))
  | other (number : table.isInt type = false ∧ table.isFloat type = false)
      (pointer : table.isPointer type = false)
      (array : ∀ element length, table.kind type ≠ .array element length) :
      Begins table type literal .zero (.zero (table.storedType type))

/-- The contents that a text has in an array. -/
theorem bytes_filled (bytes : List UInt8) (length : Nat) :
    let contents := bytes.take length ++
      List.replicate (length - bytes.length) 0
    contents.length = length ∧ ∀ index < length,
      contents[index]? = some (bytes[index]?.getD 0) := by
  refine ⟨?_, fun index inside => ?_⟩
  · simp only [List.length_append, List.length_take, List.length_replicate]
    omega
  · by_cases early : index < bytes.length
    · have both : index < (bytes.take length).length := by
        rw [List.length_take]
        omega
      rw [List.getElem?_append_left both, List.getElem?_take_of_lt inside,
        List.getElem?_eq_getElem early, Option.getD_some]
    · have after : (bytes.take length).length ≤ index := by
        rw [List.length_take]
        omega
      have late : bytes[index]? = none :=
        List.getElem?_eq_none (Nat.le_of_not_lt early)
      rw [List.getElem?_append_right after, List.getElem?_replicate, late,
        if_pos]
      · rfl
      · rw [List.length_take]
        omega

/-- The type that a global gets, which is the same for all structs. -/
theorem lowerFirstClass?_getD (module : Module) (type : TypeId) :
    (Module.lowerFirstClass? type module).1.getD (.int 8) =
      module.types.storedType type := by
  have lowers : (Module.lower type module).1 =
      lowered module.types loweringLevels type :=
    lowerWithin_fst module.types loweringLevels type module.structs
  show (if (Module.lower type module).1.isFirstClass then
    some (Module.lower type module).1 else none).getD (.int 8) = _
  rw [lowers, storedType]
  split <;> rfl

/-- A scalar type is stored as what it is lowered to on any level. -/
theorem storedType_scalar {irType : IrType}
    (lowers : ∀ levels, lowered table (levels + 1) type = irType)
    (firstClass : irType.isFirstClass = true) :
    table.storedType type = irType := by
  rw [storedType, loweringLevels, lowers 64, if_pos firstClass]

theorem storedType_int {bits : Nat} (kind : table.kind type = .int bits) :
    table.storedType type = .int bits :=
  storedType_scalar (fun _ => by rw [lowered, kind]) rfl

theorem storedType_float (kind : table.kind type = .float) :
    table.storedType type = .float :=
  storedType_scalar (fun _ => by rw [lowered, kind]) rfl

theorem storedType_double (kind : table.kind type = .double) :
    table.storedType type = .double :=
  storedType_scalar (fun _ => by rw [lowered, kind]) rfl

theorem storedType_pointer {pointee : TypeId}
    (kind : table.kind type = .pointer pointee) :
    table.storedType type = .pointer :=
  storedType_scalar (fun _ => by rw [lowered, kind]) rfl

theorem storedType_bytes {element : TypeId} {length : Nat}
    (kind : table.kind type = .array element length)
    (byte : table.kind element = .int 8) (short : length ≤ 0xFFFFFFFF) :
    table.storedType type = .array length (.int 8) := by
  simp [storedType, loweringLevels, lowered, kind, byte,
    IrType.isFirstClass, Nat.min_eq_left short]

/-- A global begins with what its type and the literal say, if they suit. -/
theorem begins_globalInitializer (suits : table.Suits type literal) :
    table.Begins type literal (globalInitializer table type literal)
      (Module.initialOperand (table.storedType type)
        (globalInitializer table type literal)) := by
  unfold globalInitializer
  cases kind : table.kind type with
  | int bits =>
      rw [storedType_int kind]
      exact .int kind
  | float =>
      rw [storedType_float kind]
      exact .float kind
  | double =>
      rw [storedType_double kind]
      exact .double kind
  | pointer pointee =>
      rw [storedType_pointer kind]
      exact .pointer kind
  | array element length =>
      cases isText : textOf? literal with
      | none =>
          have read : literal.bind Tree.string? = none := isText
          simp only [read]
          exact .array kind isText
      | some text =>
          have read : literal.bind Tree.string? = some text := isText
          obtain ⟨byte, short⟩ := suits text element length isText kind
          simp only [read, storedType_bytes kind byte short]
          obtain ⟨filled, bytes⟩ := bytes_filled (utf8Bytes text) length
          exact .text kind byte isText filled bytes
  | _ =>
      refine .other ⟨?_, ?_⟩ ?_ ?_
      all_goals simp [isInt, intWidth?, isFloat, isPointer, pointee?, kind]

/-- What a global begins with is a constant of the type of the global. -/
theorem Begins.ofType (begins : table.Begins type literal initializer operand)
    (suits : table.Suits type literal) :
    operand.type = table.storedType type ∧ operand.isConstant = true := by
  cases begins with
  | int kind => exact ⟨(storedType_int kind).symm, rfl⟩
  | float kind => exact ⟨(storedType_float kind).symm, rfl⟩
  | double kind => exact ⟨(storedType_double kind).symm, rfl⟩
  | pointer kind => exact ⟨(storedType_pointer kind).symm, rfl⟩
  | text kind byte isText filled bytes =>
      obtain ⟨-, short⟩ := suits _ _ _ isText kind
      rw [storedType_bytes kind byte short, Operand.type, filled]
      exact ⟨rfl, rfl⟩
  | array | other =>
      refine ⟨Builder.zero_type _, ?_⟩
      cases table.storedType type <;> rfl

/-! ## Later tables -/

theorem storedType_kept (closed : table.Closed) (grows : table.Grows later)
    (has : table.Has type) :
    later.storedType type = table.storedType type := by
  rw [storedType, storedType, lowered_eq closed grows has]

/-- The elements of an array keep their kind as the array does. -/
theorem kind_kept_array (closed : table.Closed) (grows : table.Grows later)
    {element : TypeId} {length : Nat}
    (kind : table.kind type = .array element length) :
    later.kind element = table.kind element := by
  have part : table.Has element :=
    closed.part type (by rw [kind]; exact List.mem_singleton_self element)
  exact part.kind_eq grows

theorem Suits.of_later (closed : table.Closed) (grows : table.Grows later)
    (has : table.Has type) (suits : later.Suits type literal) :
    table.Suits type literal := by
  intro text element length isText kind
  rw [← kind_kept_array closed grows kind]
  exact suits text element length isText ((has.kind_eq grows).trans kind)

theorem Begins.mono (closed : table.Closed) (grows : table.Grows later)
    (has : table.Has type)
    (begins : table.Begins type literal initializer operand) :
    later.Begins type literal initializer operand := by
  have same := has.kind_eq grows
  cases begins with
  | int kind => exact .int (same.trans kind)
  | float kind => exact .float (same.trans kind)
  | double kind => exact .double (same.trans kind)
  | pointer kind => exact .pointer (same.trans kind)
  | text kind byte isText filled bytes =>
      exact .text (same.trans kind)
        ((kind_kept_array closed grows kind).trans byte) isText filled bytes
  | array kind noText =>
      rw [← storedType_kept closed grows has]
      exact .array (same.trans kind) noText
  | other number pointer array =>
      rw [← storedType_kept closed grows has]
      refine .other ?_ ?_ fun element length => same ▸ array element length
      · rw [isInt, intWidth?, isFloat, same]
        exact number
      · rw [isPointer, pointee?, same]
        exact pointer

end TypeTable

/-! ## Declarations -/

/-- A global is one that a form declares: its name and its type are those of
the form, and unless the literal does not suit the type, it begins with a
constant of that type. -/
structure Ir.Global.DeclaredBy (table : TypeTable) (form : Form)
    (global : Global) : Prop where
  name : (KeywordArguments.ofForm form).symbol? "name" = some global.name
  type : ∃ typeForm, (KeywordArguments.ofForm form).get? "type" =
      some typeForm ∧
    (readType typeForm).run table = (.ok global.type, table)
  stored : global.irType = table.storedType global.type
  isConstant : global.isConstant = (KeywordArguments.ofForm form).flag "const"
  linkage : global.linkage = .external
  begins : table.Suits global.type
      ((KeywordArguments.ofForm form).get? "init") →
    ∃ initializer operand, global.initializer = some initializer ∧
      global.initialOperand = some operand ∧
      operand.type = global.irType ∧ operand.isConstant = true ∧
      table.Begins global.type ((KeywordArguments.ofForm form).get? "init")
        initializer operand

/-- It stays one while the type table grows. -/
theorem Ir.Global.DeclaredBy.mono {table later : TypeTable} {form : Form}
    {global : Global} (declared : global.DeclaredBy table form)
    (closed : table.Closed) (grows : table.Grows later) :
    global.DeclaredBy later form := by
  obtain ⟨typeForm, isType, read⟩ := declared.type
  have settles := readType_again typeForm table
  rw [read] at settles
  obtain ⟨has, again⟩ := settles global.type rfl
  have stored := TypeTable.storedType_kept closed grows has
  refine ⟨declared.name, ⟨typeForm, isType, again later grows.holds⟩,
    declared.stored.trans stored.symm, declared.isConstant, declared.linkage,
    fun suits => ?_⟩
  obtain ⟨initializer, operand, isInitializer, isOperand, ofType, isConstant,
    begins⟩ := declared.begins (suits.of_later closed grows has)
  exact ⟨initializer, operand, isInitializer, isOperand, ofType, isConstant,
    begins.mono closed grows has⟩

theorem Ir.Module.types_addGlobal (name : String) (type : TypeId)
    (initializer : Option Initializer) (isConstant : Bool)
    (linkage : Linkage) (module : Module) :
    (addGlobal name type initializer isConstant linkage module).2.types =
      module.types := by
  unfold addGlobal
  rw [stateM_get_bind]
  cases module.global? name with
  | some id => rfl
  | none => rfl

/-- A global that is asked for is there. -/
theorem Ir.Module.isSome_global?_addGlobal (name : String) (type : TypeId)
    (initializer : Option Initializer) (isConstant : Bool)
    (linkage : Linkage) (module : Module) :
    ((addGlobal name type initializer isConstant linkage
      module).2.global? name).isSome = true := by
  cases found : module.global? name with
  | some id => rw [addGlobal_of_found found, found, Option.isSome_some]
  | none =>
      obtain ⟨-, symbol, globals⟩ :=
        addGlobal_eq found type initializer isConstant linkage
      rw [Module.global?, globals, List.findIdx?_isSome]
      simp

/-- Adding the global of a form whose type has been read. -/
theorem Ir.Module.addGlobal_declared {module : Module} {form typeForm : Form}
    {name : String} {type : TypeId}
    (isName : (KeywordArguments.ofForm form).symbol? "name" = some name)
    (isType : (KeywordArguments.ofForm form).get? "type" = some typeForm)
    (read : (readType typeForm).run module.types =
      (.ok type, module.types)) (missing : module.global? name = none) :
    ∃ global, (addGlobal name type
        (some (globalInitializer module.types type
          ((KeywordArguments.ofForm form).get? "init")))
        ((KeywordArguments.ofForm form).flag "const") .external
        module).2.globals = module.globals ++ [global] ∧
      global.DeclaredBy module.types form := by
  obtain ⟨-, symbol, globals⟩ := addGlobal_eq missing type
    (some (globalInitializer module.types type
      ((KeywordArguments.ofForm form).get? "init")))
    ((KeywordArguments.ofForm form).flag "const") .external
  refine ⟨_, globals, isName, ⟨typeForm, isType, read⟩,
    TypeTable.lowerFirstClass?_getD module type, rfl, rfl, fun suits => ?_⟩
  have begins := TypeTable.begins_globalInitializer suits
  rw [TypeTable.lowerFirstClass?_getD]
  obtain ⟨ofType, isConstant⟩ := begins.ofType suits
  exact ⟨_, _, rfl, rfl, ofType, isConstant, begins⟩

namespace ModuleState

variable {state : ModuleState}

/-- Reading types changes the type table, and notes a problem if it fails. -/
theorem reading_eq {Result : Type} (operation : String) (span : Option Span)
    (reader : TypeReader Result) (state : ModuleState) :
    ∃ problems, reading operation span reader state =
      ((reader.run state.module.types).1.toOption, { state with
        module := { state.module with
          types := (reader.run state.module.types).2 }
        problems }) := by
  have ran : onModule (Module.withTypes reader.run) state =
      ((reader.run state.module.types).1, { state with
        module := { state.module with
          types := (reader.run state.module.types).2 } }) := rfl
  unfold reading
  rw [stateM_bind_apply, ran]
  cases (reader.run state.module.types).1 with
  | ok result => exact ⟨_, rfl⟩
  | error cause => exact ⟨_, rfl⟩

/-- The name of the global that a form declares, if its type can be read. -/
def Declarable (table : TypeTable) (form : Form) (name : String) : Prop :=
  (KeywordArguments.ofForm form).symbol? "name" = some name ∧
    ∃ typeForm type, (KeywordArguments.ofForm form).get? "type" =
        some typeForm ∧
      ((readType typeForm).run table).1 = .ok type

/-- The state has at most one more global, which a form declares, and has one
of the name that the form declares. -/
structure Gains (form : Form) (state later : ModuleState) : Prop where
  literals : later.literals = state.literals
  functions : later.module.functions = state.module.functions
  globals : later.module.globals = state.module.globals ∨
    ∃ global, later.module.globals = state.module.globals ++ [global] ∧
      global.DeclaredBy later.module.types form
  recorded : ∀ name, Declarable state.module.types form name →
    (later.module.global? name).isSome = true

/-- Where the type of a form cannot be read no global is added, and otherwise
one is, unless its name is taken. -/
theorem declareGlobal_cases (form : Form) (state : ModuleState) :
    ∃ (module : Module) (problems : List Problem),
      module.functions = state.module.functions ∧
      module.globals = state.module.globals ∧
      ((∀ name, ¬ Declarable state.module.types form name) ∧
          (declareGlobal form state).2 = { state with module, problems } ∨
        ∃ name typeForm type,
          (KeywordArguments.ofForm form).symbol? "name" = some name ∧
          (KeywordArguments.ofForm form).get? "type" = some typeForm ∧
          (readType typeForm).run module.types = (.ok type, module.types) ∧
          (declareGlobal form state).2 = { state with
            module := (Module.addGlobal name type
              (some (globalInitializer module.types type
                ((KeywordArguments.ofForm form).get? "init")))
              ((KeywordArguments.ofForm form).flag "const") .external
              module).2
            problems }) := by
  unfold declareGlobal
  cases isName : (KeywordArguments.ofForm form).symbol? "name" with
  | none =>
      refine ⟨state.module, _, rfl, rfl, .inl ⟨?_, rfl⟩⟩
      rintro name ⟨declared, -⟩
      cases isName.symm.trans declared
  | some name =>
  cases isType : (KeywordArguments.ofForm form).get? "type" with
  | none =>
      refine ⟨state.module, _, rfl, rfl, .inl ⟨?_, rfl⟩⟩
      rintro name ⟨-, typeForm, type, declared, -⟩
      cases isType.symm.trans declared
  | some typeForm =>
  obtain ⟨problems, reads⟩ :=
    reading_eq "global" form.span? (readType typeForm) state
  have settles := readType_again typeForm state.module.types
  dsimp only
  rw [stateM_bind_apply, reads]
  cases outcome : (readType typeForm).run state.module.types with
  | mk result types =>
  rw [outcome] at settles
  cases result with
  | error cause =>
      refine ⟨{ state.module with types }, problems, rfl, rfl,
        .inl ⟨?_, rfl⟩⟩
      rintro name ⟨-, other, type, declared, reads⟩
      cases Option.some.inj (isType.symm.trans declared)
      rw [outcome] at reads
      cases reads
  | ok type =>
      exact ⟨{ state.module with types }, problems, rfl, rfl,
        .inr ⟨name, typeForm, type, rfl, rfl,
          (settles type rfl).2 types (.refl types), rfl⟩⟩

theorem gains_declareGlobal (form : Form) (state : ModuleState) :
    state.Gains form (declareGlobal form state).2 := by
  obtain ⟨module, problems, functions, globals, ⟨none, same⟩ |
    ⟨name, typeForm, type, isName, isType, read, same⟩⟩ :=
    declareGlobal_cases form state
  · rw [same]
    exact ⟨rfl, functions, .inl globals, fun name can => (none name can).elim⟩
  · rw [same]
    refine ⟨rfl, (Module.functions_addGlobal _ _ _ _ _ _).trans functions,
      ?_, ?_⟩
    · rw [← globals]
      cases found : module.global? name with
      | some id => exact .inl (by rw [Module.addGlobal_of_found found])
      | none =>
          rw [Module.types_addGlobal]
          exact .inr (Module.addGlobal_declared isName isType read found)
    · rintro other ⟨isOther, -⟩
      cases Option.some.inj (isName.symm.trans isOther)
      exact Module.isSome_global?_addGlobal _ _ _ _ _ _

end ModuleState

end FormCompiler
