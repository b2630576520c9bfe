import FormCompiler.Proofs.Blocks
import FormCompiler.Proofs.Lowering

/-!
# Modules under construction

A module only ever gains types, functions, globals and blocks.  A module is
sound when its types are closed, its functions are declared with function
types, typed parameters and the results that their types say, its globals have
types of the table, and the bodies of its functions are sound.

Most operations leave the bodies of functions alone.  Building inside a body
is quiet as long as no block is ended: existing blocks keep their names, their
terminators and the phis they start with, and a block that is added on the way
is finished and leads nowhere.
-/

namespace FormCompiler.Ir

namespace Module

/-- What is declared stays declared. -/
structure Extends (module later : Module) : Prop where
  types : module.types.Grows later.types
  count : module.functions.length ≤ later.functions.length
  functions : ∀ id < module.functions.length,
    (later.function id).name = (module.function id).name ∧
    (later.function id).type = (module.function id).type ∧
    (later.function id).parameters = (module.function id).parameters
  globals : module.globals <+: later.globals

/-- Changes that leave the bodies of all functions alone. -/
structure Still (module later : Module) : Prop extends
    module.Extends later where
  bodies : ∀ id, (later.function id).blocks = (module.function id).blocks ∧
    (later.function id).registerCount = (module.function id).registerCount

/-- What stays true of a module while it is built. -/
structure Sound (module : Module) : Prop where
  types : module.types.Closed
  functions : ∀ id < module.functions.length,
    (module.types.signature? (module.function id).type).isSome = true ∧
    ∀ parameter ∈ (module.function id).parameters,
      parameter.Typed module.types
  globals : ∀ global ∈ module.globals, module.types.Has global.type
  bodies : ∀ id, (module.function id).Sound id
  results : ∀ id < module.functions.length, ∀ signature,
    module.types.signature? (module.function id).type = some signature →
      (module.function id).result =
        lowered module.types boundaryLevels signature.result

variable {module later last : Module}

theorem Extends.refl (module : Module) : module.Extends module :=
  ⟨TypeTable.Grows.refl _, Nat.le_refl _, fun _ _ => ⟨rfl, rfl, rfl⟩,
    List.prefix_refl _⟩

theorem Extends.trans (first : module.Extends later)
    (second : later.Extends last) : module.Extends last := by
  refine ⟨first.types.trans second.types, first.count.trans second.count, ?_,
    first.globals.trans second.globals⟩
  intro id inside
  obtain ⟨name, type, parameters⟩ := first.functions id inside
  obtain ⟨laterName, laterType, laterParameters⟩ :=
    second.functions id (Nat.lt_of_lt_of_le inside first.count)
  exact ⟨laterName.trans name, laterType.trans type,
    laterParameters.trans parameters⟩

theorem Still.refl (module : Module) : module.Still module :=
  ⟨Extends.refl module, fun _ => ⟨rfl, rfl⟩⟩

theorem Still.trans (first : module.Still later)
    (second : later.Still last) : module.Still last :=
  ⟨first.toExtends.trans second.toExtends, fun id =>
    ⟨(second.bodies id).1.trans (first.bodies id).1,
      (second.bodies id).2.trans (first.bodies id).2⟩⟩

instance : Std.Refl Still := ⟨Still.refl⟩

instance : Trans Still Still Still := ⟨Still.trans⟩

/-- No instruction of a block is a phi. -/
def NoPhis (block : Block) : Prop :=
  ∀ instruction ∈ block.instructions, instruction.operation.isPhi = false

/-- A function gets no blocks, and its blocks without phis stay as they
are. -/
def Leaves (function : FunctionId) (module later : Module) : Prop :=
  (later.function function).blocks.length =
      (module.function function).blocks.length ∧
    ∀ (index : Nat) (block : Block),
      (module.function function).blocks[index]? = some block →
      NoPhis block → (later.function function).blocks[index]? = some block

theorem Leaves.of_blocks {function : FunctionId}
    (same : (later.function function).blocks =
      (module.function function).blocks) : module.Leaves function later := by
  rw [Leaves, same]
  exact ⟨rfl, fun _ _ found _ => found⟩

theorem Leaves.trans {function : FunctionId}
    (first : module.Leaves function later)
    (second : later.Leaves function last) : module.Leaves function last :=
  ⟨second.1.trans first.1, fun index block found noPhis =>
    second.2 index block (first.2 index block found noPhis) noPhis⟩

/-- Code goes to one function only, and to the thunks of closures. -/
def WorksIn (home : FunctionId) (module later : Module) : Prop :=
  ∀ id < module.functions.length, id ≠ home →
    ¬IsThunkName (module.function id).name → module.Leaves id later

theorem WorksIn.of_blocks {home : FunctionId}
    (same : ∀ id, id ≠ home →
      (later.function id).blocks = (module.function id).blocks) :
    module.WorksIn home later :=
  fun id _ other _ => .of_blocks (same id other)

theorem WorksIn.refl (home : FunctionId) (module : Module) :
    module.WorksIn home module := .of_blocks fun _ _ => rfl

theorem WorksIn.trans {home : FunctionId} (first : module.WorksIn home later)
    (extends_ : module.Extends later) (second : later.WorksIn home last) :
    module.WorksIn home last := by
  intro id inside other ordinary
  have named := (extends_.functions id inside).1
  exact (first id inside other ordinary).trans
    (second id (Nat.lt_of_lt_of_le inside extends_.count) other
      (named ▸ ordinary))

theorem Still.worksIn (still : module.Still later) (home : FunctionId) :
    module.WorksIn home later :=
  .of_blocks fun id _ => (still.bodies id).1

/-- An operation keeps a sound module sound and its bodies alone. -/
abbrev Runs {Result : Type} (module : Module)
    (operation : StateM Module Result) (good : Module → Result → Prop) :
    Prop :=
  Preserves Sound Still module operation good

/-- Every function has a type of the table, and so has what stands in for
one that is not there. -/
theorem Sound.function_has (sound : module.Sound)
    (inhabited : 0 < module.types.kinds.length) (id : FunctionId) :
    module.types.Has (module.function id).type := by
  by_cases inside : id < module.functions.length
  · have isSome := (sound.functions id inside).1
    obtain ⟨signature, found⟩ := Option.isSome_iff_exists.mp isSome
    exact TypeTable.has_of_signature found
  · rw [Module.function, List.getElem?_eq_none (Nat.le_of_not_lt inside)]
    exact inhabited

theorem Sound.global_has (sound : module.Sound)
    (inhabited : 0 < module.types.kinds.length) (id : GlobalId) :
    module.types.Has (module.global id).type := by
  rw [Module.global]
  cases found : module.globals[id]? with
  | some global =>
      exact sound.globals global (List.mem_of_getElem? found)
  | none => exact inhabited

/-! ## Operations that leave functions alone -/

theorem function_eq_of_functions_eq (same : later.functions = module.functions)
    (id : FunctionId) : later.function id = module.function id := by
  rw [Module.function, Module.function, same]

/-- Functions and globals stay, and types may be added. -/
theorem runs_of_same_functions {Result : Type}
    {operation : StateM Module Result} {good : Module → Result → Prop}
    (sound : module.Sound)
    (closed : (operation module).2.types.Closed)
    (types : module.types.Grows (operation module).2.types)
    (functions : (operation module).2.functions = module.functions)
    (globals : (operation module).2.globals = module.globals)
    (holds : good (operation module).2 (operation module).1) :
    Runs module operation good := by
  have same := function_eq_of_functions_eq functions
  refine ⟨⟨closed, ?_, ?_, ?_, ?_⟩, ⟨⟨types, ?_, ?_, ?_⟩, ?_⟩, holds⟩
  · rw [functions]
    intro id inside
    obtain ⟨signature, parameters⟩ := sound.functions id inside
    rw [same]
    constructor
    · have has : module.types.Has (module.function id).type := by
        obtain ⟨found, isSome⟩ := Option.isSome_iff_exists.mp signature
        exact TypeTable.has_of_signature isSome
      rw [has.signature_eq types]
      exact signature
    · intro parameter member
      exact (parameters parameter member).mono sound.types types
  · rw [globals]
    intro global member
    exact (sound.globals global member).mono types
  · intro id
    rw [same]
    exact sound.bodies id
  · rw [functions]
    intro id inside signature found
    rw [same] at found ⊢
    obtain ⟨declared, isSome⟩ :=
      Option.isSome_iff_exists.mp (sound.functions id inside).1
    have has := TypeTable.has_of_signature isSome
    rw [has.signature_eq types] at found
    rw [sound.results id inside signature found]
    exact (lowered_eq sound.types types (sound.types.signature found).1
      boundaryLevels).symm
  · rw [functions]
  · intro id _
    rw [same]
    exact ⟨rfl, rfl, rfl⟩
  · exact globals ▸ List.prefix_refl _
  · intro id
    rw [same]
    exact ⟨rfl, rfl⟩

theorem runs_withTypes {Result : Type} (sound : module.Sound)
    {operation : StateM TypeTable Result} {good : TypeTable → Result → Prop}
    (yields : module.types.Yields operation good) :
    Runs module (withTypes operation) fun later result =>
      good later.types result :=
  runs_of_same_functions sound yields.holds yields.follows rfl rfl yields.good

theorem runs_lower (sound : module.Sound) (type : TypeId) :
    Runs module (lower type) fun later irType =>
      later.types = module.types ∧
        irType = lowered module.types loweringLevels type := by
  apply runs_of_same_functions sound sound.types (TypeTable.Grows.refl _) rfl
    rfl
  exact ⟨rfl,
    lowerWithin_fst module.types loweringLevels type module.structs⟩

theorem runs_lowerFirstClass? (sound : module.Sound) (type : TypeId) :
    Runs module (lowerFirstClass? type) fun later found =>
      later.types = module.types ∧ found =
        if (lowered module.types loweringLevels type).isFirstClass then
          some (lowered module.types loweringLevels type) else none := by
  apply (runs_lower sound type).bind
  rintro later irType laterSound _ ⟨types, rfl⟩
  exact Preserves.pure laterSound ⟨types, rfl⟩

theorem runs_pushValue (sound : module.Sound) (content : Content)
    (type : TypeId) :
    Runs module (pushValue content type) fun later value =>
      later.types = module.types ∧ value.type = type ∧
        value.content = content :=
  runs_of_same_functions sound sound.types (TypeTable.Grows.refl _) rfl rfl
    ⟨rfl, rfl, rfl⟩

theorem runs_reserveSymbol (sound : module.Sound) (name : String) :
    Runs module (reserveSymbol name) fun later _ =>
      later.types = module.types ∧ later.functions = module.functions ∧
        later.globals = module.globals := by
  unfold reserveSymbol
  generalize module.symbols.reserve "." (nameBeforeNul name) = reserved
  exact runs_of_same_functions sound sound.types (TypeTable.Grows.refl _) rfl
    rfl ⟨rfl, rfl, rfl⟩

theorem runs_addGlobal (sound : module.Sound) (name : String) {type : TypeId}
    (has : module.types.Has type) (initializer : Option Initializer)
    (isConstant : Bool) (linkage : Linkage) :
    Runs module (addGlobal name type initializer isConstant linkage)
      fun _ _ => True := by
  unfold addGlobal
  apply Preserves.get_bind
  split
  · exact Preserves.pure sound trivial
  · apply (runs_lowerFirstClass? sound type).bind
    rintro middle found middleSound _ ⟨middleTypes, -⟩
    apply (runs_reserveSymbol middleSound name).bind
    rintro later symbol laterSound _ ⟨types, -, -⟩
    apply Preserves.get_bind
    refine ⟨⟨laterSound.types, laterSound.functions, ?_, laterSound.bodies,
      laterSound.results⟩,
      ⟨⟨TypeTable.Grows.refl _, Nat.le_refl _, fun _ _ => ⟨rfl, rfl, rfl⟩,
        List.prefix_append _ _⟩, fun _ => ⟨rfl, rfl⟩⟩, trivial⟩
    intro global member
    rcases List.mem_append.mp member with old | new
    · exact laterSound.globals global old
    · rw [List.mem_singleton.mp new]
      show later.types.Has type
      rw [types, middleTypes]
      exact has

/-! ## Operations on one function -/

theorem function_modifyFunction (module : Module) (id : FunctionId)
    (change : Function → Function) (other : FunctionId) :
    ((modifyFunction id change module).2.function other) =
      if other = id ∧ id < module.functions.length then
        change (module.function other)
      else module.function other := by
  unfold modifyFunction Module.function
  simp only [List.getElem?_modify]
  by_cases same : other = id
  · subst same
    by_cases inside : other < module.functions.length
    · simp [inside]
    · simp [inside]
  · have different : ¬id = other := fun both => same both.symm
    simp [same, different]

/-- The parts of a function that are fixed when it is declared. -/
structure SameHeader (function later : Function) : Prop where
  name : later.name = function.name
  type : later.type = function.type
  parameters : later.parameters = function.parameters
  result : later.result = function.result

/-- A change of one function that keeps its header and leaves its body
sound. -/
theorem Sound.changeFunction (sound : module.Sound) (id : FunctionId)
    (change : Function → Function)
    (header : SameHeader (module.function id) (change (module.function id)))
    (body : (change (module.function id)).Sound id) :
    (modifyFunction id change module).2.Sound ∧
      module.Extends (modifyFunction id change module).2 := by
  have functions (other : FunctionId) :=
    function_modifyFunction module id change other
  have length : (modifyFunction id change module).2.functions.length =
      module.functions.length := List.length_modify _ _ _
  have headers (other : FunctionId) : SameHeader (module.function other)
      ((modifyFunction id change module).2.function other) := by
    rw [functions]
    split
    · next same =>
        rw [same.1]
        exact header
    · exact ⟨rfl, rfl, rfl, rfl⟩
  refine ⟨⟨sound.types, ?_, sound.globals, ?_, ?_⟩,
    ⟨TypeTable.Grows.refl _, by rw [length], fun other _ =>
      ⟨(headers other).name, (headers other).type, (headers other).parameters⟩,
      List.prefix_refl _⟩⟩
  · intro other inside
    rw [length] at inside
    rw [(headers other).type, (headers other).parameters]
    exact sound.functions other inside
  · intro other
    rw [functions]
    split
    · next same =>
        rw [same.1]
        exact body
    · exact sound.bodies other
  · intro other inside
    rw [length] at inside
    rw [(headers other).type, (headers other).result]
    exact sound.results other inside

theorem runs_modifyFunction (sound : module.Sound) (id : FunctionId)
    (change : Function → Function)
    (header : SameHeader (module.function id) (change (module.function id)))
    (body : (change (module.function id)).Sound id)
    (still : (change (module.function id)).blocks =
        (module.function id).blocks ∧
      (change (module.function id)).registerCount =
        (module.function id).registerCount) :
    Runs module (modifyFunction id change) fun later _ =>
      later.types = module.types ∧ later.globals = module.globals := by
  obtain ⟨laterSound, extends_⟩ := sound.changeFunction id change header body
  refine ⟨laterSound, ⟨extends_, ?_⟩, rfl, rfl⟩
  intro other
  rw [function_modifyFunction]
  split
  · next same =>
      rw [same.1]
      exact still
  · exact ⟨rfl, rfl⟩

/-- A change that touches neither the header nor the body of a function. -/
theorem runs_annotate (sound : module.Sound) {id : FunctionId}
    {change : Function → Function}
    (header : ∀ function : Function, SameHeader function (change function))
    (body : ∀ function : Function,
      (change function).blocks = function.blocks ∧
      (change function).registerCount = function.registerCount ∧
      (change function).names = function.names ∧
      (change function).parameterNames = function.parameterNames) :
    Runs module (modifyFunction id change) fun later _ =>
      later.types = module.types ∧ later.globals = module.globals := by
  obtain ⟨blocks, registerCount, names, parameterNames⟩ :=
    body (module.function id)
  apply runs_modifyFunction sound id change (header _)
  · exact (sound.bodies id).congr (header _).name (header _).result blocks
      registerCount names parameterNames
  · exact ⟨blocks, registerCount⟩

theorem runs_addAttributes (sound : module.Sound) (id : FunctionId)
    (attributes : List Attribute) :
    Runs module (addAttributes id attributes) fun later _ =>
      later.types = module.types ∧ later.globals = module.globals :=
  runs_annotate sound (fun _ => ⟨rfl, rfl, rfl, rfl⟩)
    fun _ => ⟨rfl, rfl, rfl, rfl⟩

theorem runs_setPersonality (sound : module.Sound)
    (id personality : FunctionId) :
    Runs module (setPersonality id personality) fun later _ =>
      later.types = module.types ∧ later.globals = module.globals :=
  runs_annotate sound (fun _ => ⟨rfl, rfl, rfl, rfl⟩)
    fun _ => ⟨rfl, rfl, rfl, rfl⟩

theorem runs_setParameterName (sound : module.Sound) (id : FunctionId)
    (index : Nat) (name : String) :
    Runs module (setParameterName id index name) fun later _ =>
      later.types = module.types ∧ later.globals = module.globals := by
  have body := sound.bodies id
  apply runs_modifyFunction sound
  · split
    · simp only
      split <;> exact ⟨rfl, rfl, rfl, rfl⟩
    · exact ⟨rfl, rfl, rfl, rfl⟩
  · split
    · simp only
      split
      · exact body.rename rfl rfl rfl (nameBeforeNul name) rfl rfl rfl rfl
      · exact body
    · exact body
  · split
    · simp only
      split <;> exact ⟨rfl, rfl⟩
    · exact ⟨rfl, rfl⟩

theorem runs_pushParameters {table : TypeTable} (sound : module.Sound)
    (function : FunctionId) (index : Nat)
    (parameters : List (TypeId × IrType)) (grows : table.Grows module.types)
    (has : ∀ parameter ∈ parameters, table.Has parameter.1)
    (lowers : ∀ parameter ∈ parameters,
      parameter.2 = lowered table boundaryLevels parameter.1) :
    Runs module (pushParameters table function index parameters)
      fun later values => later.types = module.types ∧
        ∀ value ∈ values, value.Typed table := by
  induction parameters generalizing index module with
  | nil => exact Preserves.pure sound ⟨rfl, by simp⟩
  | cons parameter parameters ih =>
      obtain ⟨type, irType⟩ := parameter
      rw [List.forall_mem_cons] at has lowers
      unfold pushParameters
      simp only
      apply (runs_pushValue sound _ type).bind
      rintro later value laterSound quiet ⟨types, valueType, content⟩
      have laterGrows : table.Grows later.types := by
        rw [types]
        exact grows
      apply (ih laterSound (index + 1) laterGrows has.2 lowers.2).bind
      rintro last values lastSound _ ⟨lastTypes, typed⟩
      refine Preserves.pure lastSound ⟨lastTypes.trans types, ?_⟩
      rw [List.forall_mem_cons]
      refine ⟨⟨valueType ▸ has.1, ?_⟩, typed⟩
      rw [content, valueType]
      split
      · next token =>
          simp only [TypeTable.isToken, beq_iff_eq] at token
          simp [Content.Fits, boundaryLevels, loweringLevels, lowered, token,
            IrType.isFirstClass]
      · exact .inr lowers.1

/-! ## New functions -/

theorem function_append {added : Function}
    (same : later.functions = module.functions ++ [added])
    (id : FunctionId) :
    later.function id =
      if id = module.functions.length then added else module.function id := by
  unfold Module.function
  rw [same]
  rcases Nat.lt_trichotomy id module.functions.length with
    inside | rfl | outside
  · rw [List.getElem?_append_left inside, if_neg (Nat.ne_of_lt inside)]
  · rw [List.getElem?_concat_length, if_pos rfl, Option.getD_some]
  · rw [if_neg (Nat.ne_of_gt outside), List.getElem?_eq_none,
      List.getElem?_eq_none (Nat.le_of_lt outside)]
    rw [List.length_append, List.length_singleton]
    exact outside

/-- A function without a body is added. -/
theorem Sound.appendFunction (sound : module.Sound) (later : Module)
    {added : Function}
    (functions : later.functions = module.functions ++ [added])
    (types : later.types = module.types)
    (globals : later.globals = module.globals)
    {signature : TypeTable.Signature}
    (declared : module.types.signature? added.type = some signature)
    (result : added.result =
      lowered module.types boundaryLevels signature.result)
    (typed : ∀ parameter ∈ added.parameters, parameter.Typed module.types)
    (noBlocks : added.blocks = []) (noRegisters : added.registerCount = 0)
    (unnamed : ∀ name ∈ added.parameterNames, name = "") :
    later.Sound ∧ module.Still later := by
  have function (id : FunctionId) := function_append functions id
  have length : later.functions.length = module.functions.length + 1 := by
    rw [functions, List.length_append, List.length_singleton]
  have missing : module.function module.functions.length = default := by
    rw [Module.function, List.getElem?_eq_none (Nat.le_refl _)]
    rfl
  refine ⟨⟨?_, ?_, ?_, ?_, ?_⟩, ⟨⟨?_, ?_, ?_, ?_⟩, ?_⟩⟩
  · rw [types]
    exact sound.types
  · intro id inside
    rw [types, function]
    split
    · exact ⟨by rw [declared]; rfl, typed⟩
    · next different =>
        rw [length, Nat.lt_succ_iff] at inside
        exact sound.functions id (Nat.lt_of_le_of_ne inside different)
  · rw [types, globals]
    exact sound.globals
  · intro id
    rw [function]
    split
    · exact Function.sound_of_noBlocks noBlocks unnamed
    · exact sound.bodies id
  · intro id inside
    rw [types, function]
    split
    · intro other found
      cases declared.symm.trans found
      exact result
    · next different =>
        rw [length, Nat.lt_succ_iff] at inside
        exact sound.results id (Nat.lt_of_le_of_ne inside different)
  · rw [types]
    exact TypeTable.Grows.refl _
  · omega
  · intro id inside
    rw [function, if_neg (Nat.ne_of_lt inside)]
    exact ⟨rfl, rfl, rfl⟩
  · exact globals ▸ List.prefix_refl _
  · intro id
    rw [function]
    split
    · next same =>
        rw [noBlocks, noRegisters, same, missing]
        exact ⟨rfl, rfl⟩
    · exact ⟨rfl, rfl⟩

theorem lt_of_function? {name : String} {id : FunctionId}
    (found : module.function? name = some id) :
    id < module.functions.length :=
  (List.findIdx?_eq_some_iff_findIdx_eq.mp found).1

theorem runs_addFunction (sound : module.Sound) (name : String)
    {type : TypeId} {signature : TypeTable.Signature}
    (found : module.types.signature? type = some signature)
    (linkage : Linkage) :
    Runs module (addFunction name type linkage) fun later id =>
      id < later.functions.length := by
  have has := (sound.types.signature found).2
  unfold addFunction
  apply Preserves.get_bind
  split
  · next id exists_ =>
      exact Preserves.pure sound (lt_of_function? exists_)
  · apply (runs_lower sound type).bind
    rintro middle irType middleSound middleQuiet ⟨middleTypes, rfl⟩
    have lowersTo : lowered module.types loweringLevels type =
        .function (lowered module.types boundaryLevels signature.result)
          (signature.parameters.map (lowered module.types boundaryLevels))
          signature.variadic := lowered_function found 64
    rw [lowersTo]
    simp only [found]
    apply (runs_reserveSymbol middleSound name).bind
    rintro reserved symbol reservedSound reservedQuiet ⟨reservedTypes, -, -⟩
    have types : reserved.types = module.types :=
      reservedTypes.trans middleTypes
    rw [← List.map_prod_left_eq_zip]
    apply (runs_pushParameters reservedSound _ 0 _
      (types ▸ TypeTable.Grows.refl _) (by simpa using has) (by simp)).bind
    rintro pushed values pushedSound pushedQuiet ⟨pushedTypes, typed⟩
    have allTypes : pushed.types = module.types := pushedTypes.trans types
    have count : module.functions.length ≤ pushed.functions.length :=
      ((middleQuiet.trans reservedQuiet).trans pushedQuiet).count
    have append (added : Function) (addedType : added.type = type)
        (result : added.result =
          lowered module.types boundaryLevels signature.result)
        (parameters : added.parameters = values) (noBlocks : added.blocks = [])
        (noRegisters : added.registerCount = 0)
        (unnamed : ∀ name ∈ added.parameterNames, name = "") :
        Runs pushed
          (modify fun module =>
            { module with functions := module.functions ++ [added] })
          fun later _ =>
            later.functions.length = pushed.functions.length + 1 := by
      have kept := pushedSound.appendFunction
        { pushed with functions := pushed.functions ++ [added] } rfl rfl rfl
        (by rw [addedType, allTypes]; exact found)
        (by rw [allTypes]; exact result)
        (by rw [parameters, allTypes]; exact typed) noBlocks noRegisters
        unnamed
      exact Preserves.modify kept.1 kept.2 (by simp)
    apply (append _ rfl rfl rfl rfl rfl (by simp)).bind
    intro later _ laterSound _ length
    apply Preserves.pure laterSound
    rw [length]
    exact Nat.lt_succ_of_le count

theorem pushParameters_eq (table : TypeTable) (function : FunctionId)
    (index : Nat) (parameters : List (TypeId × IrType)) (module : Module) :
    (pushParameters table function index parameters module).2 =
      { module with valueCount := module.valueCount + parameters.length } := by
  induction parameters generalizing index module with
  | nil => rfl
  | cons parameter parameters ih =>
      refine (ih (index + 1) _).trans ?_
      show { module with valueCount := _ } = _
      rw [List.length_cons, Nat.add_right_comm, Nat.add_assoc]

/-- A function whose name is not there yet is the last one, without a
body. -/
theorem addFunction_append {name : String}
    (missing : module.function? name = none) (type : TypeId)
    (linkage : Linkage) :
    ∃ added : Function,
      (addFunction name type linkage module).1 = module.functions.length ∧
      (addFunction name type linkage module).2.functions =
        module.functions ++ [added] ∧
      added.name = name ∧ added.type = type ∧ added.blocks = [] := by
  have pushed (parameters : List (TypeId × IrType)) (middle : Module)
      (same : middle.functions = module.functions) :
      (pushParameters module.types module.functions.length 0 parameters
        middle).2.functions = module.functions := by
    rw [pushParameters_eq]
    exact same
  unfold addFunction
  rw [stateM_get_bind, missing]
  exact ⟨_, rfl, congrArg (· ++ [_]) (pushed _ _ rfl), rfl, rfl, rfl⟩

theorem addFunction_of_found {name : String} {id : FunctionId}
    (found : module.function? name = some id) (type : TypeId)
    (linkage : Linkage) :
    addFunction name type linkage module = (id, module) := by
  unfold addFunction
  rw [stateM_get_bind, found]
  rfl

theorem globals_addFunction (name : String) (type : TypeId)
    (linkage : Linkage) (module : Module) :
    (addFunction name type linkage module).2.globals = module.globals := by
  cases found : module.function? name with
  | some id => rw [addFunction_of_found found]
  | none =>
      unfold addFunction
      rw [stateM_get_bind, found]
      show (pushParameters _ _ 0 _ _).2.globals = _
      rw [pushParameters_eq]

theorem functions_addGlobal (name : String) (type : TypeId)
    (initializer : Option Initializer) (isConstant : Bool)
    (linkage : Linkage) (module : Module) :
    (addGlobal name type initializer isConstant linkage module).2.functions =
      module.functions := by
  unfold addGlobal
  rw [stateM_get_bind]
  cases module.global? name with
  | some id => rfl
  | none => rfl

/-- A function that is asked for is there. -/
theorem addFunction_known (module : Module) (name : String) (type : TypeId)
    (linkage : Linkage) :
    (addFunction name type linkage module).1 <
      (addFunction name type linkage module).2.functions.length := by
  cases found : module.function? name with
  | some id =>
      rw [addFunction_of_found found]
      exact (List.findIdx?_eq_some_iff_getElem.mp found).1
  | none =>
      obtain ⟨added, same, functions, -⟩ :=
        addFunction_append found type linkage
      rw [same, functions, List.length_append]
      exact Nat.lt_succ_self _

/-- A function bears the name that it is added under. -/
theorem name_addFunction (module : Module) (name : String) (type : TypeId)
    (linkage : Linkage) :
    ((addFunction name type linkage module).2.function
      (addFunction name type linkage module).1).name = name := by
  cases found : module.function? name with
  | some id =>
      rw [addFunction_of_found found]
      obtain ⟨inside, same, -⟩ := List.findIdx?_eq_some_iff_getElem.mp found
      rw [Module.function, List.getElem?_eq_getElem inside]
      simpa using same
  | none =>
      obtain ⟨added, id, functions, same, -⟩ :=
        addFunction_append found type linkage
      rw [id, function_append functions, if_pos rfl]
      exact same

/-! ## Quiet changes -/

theorem block?_eq (module : Module) (id : BlockId) :
    module.block? id = (module.function id.function).blocks[id.index]? := rfl

/-- Only functions of the module have blocks. -/
theorem lt_of_block? {id : BlockId} {block : Block}
    (found : module.block? id = some block) :
    id.function < module.functions.length := by
  by_contra outside
  rw [block?_eq, Module.function,
    List.getElem?_eq_none (Nat.le_of_not_lt outside)] at found
  cases found

/-- Blocks stay where a function is declared. -/
theorem block?_addFunction {id : BlockId} {block : Block}
    (found : module.block? id = some block) (name : String) (type : TypeId)
    (linkage : Linkage) :
    (addFunction name type linkage module).2.block? id = some block := by
  cases declared : module.function? name with
  | some function =>
      rw [addFunction_of_found declared]
      exact found
  | none =>
      obtain ⟨added, -, functions, -⟩ :=
        addFunction_append declared type linkage
      rw [block?_eq, function_append functions,
        if_neg (Nat.ne_of_lt (lt_of_block? found))]
      exact found

/-- Changes that leave the control flow of existing blocks alone. -/
structure Quiet (module later : Module) : Prop extends
    module.Extends later where
  registers : ∀ id, (module.function id).registerCount ≤
    (later.function id).registerCount
  blocks : ∀ id block, module.block? id = some block →
    ∃ laterBlock, later.block? id = some laterBlock ∧
      block.Keeps id.index laterBlock
  fresh : ∀ id laterBlock, module.block? id = none →
    later.block? id = some laterBlock →
      ∃ ending, laterBlock.terminator? = some ending ∧ ending.targets = []

theorem Still.block? (still : module.Still later) (id : BlockId) :
    later.block? id = module.block? id := by
  rw [block?_eq, block?_eq, (still.bodies id.function).1]

theorem Still.quiet (still : module.Still later) : module.Quiet later := by
  refine ⟨still.toExtends, fun id => Nat.le_of_eq (still.bodies id).2.symm,
    ?_, ?_⟩
  · intro id block found
    exact ⟨block, by rw [still.block?, found], Block.Keeps.refl _ _⟩
  · intro id laterBlock missing found
    rw [still.block?, missing] at found
    cases found

theorem Quiet.refl (module : Module) : module.Quiet module :=
  (Still.refl module).quiet

theorem Quiet.trans (first : module.Quiet later)
    (second : later.Quiet last) : module.Quiet last := by
  refine ⟨first.toExtends.trans second.toExtends,
    fun id => (first.registers id).trans (second.registers id), ?_, ?_⟩
  · intro id block found
    obtain ⟨laterBlock, laterFound, keeps⟩ := first.blocks id block found
    obtain ⟨lastBlock, lastFound, laterKeeps⟩ :=
      second.blocks id laterBlock laterFound
    exact ⟨lastBlock, lastFound, keeps.trans laterKeeps⟩
  · intro id lastBlock missing found
    cases laterFound : later.block? id with
    | none => exact second.fresh id lastBlock laterFound found
    | some laterBlock =>
        obtain ⟨same, sameFound, keeps⟩ :=
          second.blocks id laterBlock laterFound
        cases found.symm.trans sameFound
        rw [keeps.terminator]
        exact first.fresh id laterBlock missing laterFound

theorem Quiet.isSome_block? (quiet : module.Quiet later) {id : BlockId}
    (known : (module.block? id).isSome = true) :
    (later.block? id).isSome = true := by
  obtain ⟨block, found⟩ := Option.isSome_iff_exists.mp known
  obtain ⟨laterBlock, laterFound, -⟩ := quiet.blocks id block found
  rw [laterFound]
  rfl

/-- The operation that ends a block. -/
def terminator? (module : Module) (id : BlockId) : Option Operation :=
  (module.block? id).bind Block.terminator?

theorem Quiet.terminator? (quiet : module.Quiet later) {id : BlockId}
    (known : (module.block? id).isSome = true) :
    later.terminator? id = module.terminator? id := by
  obtain ⟨block, found⟩ := Option.isSome_iff_exists.mp known
  obtain ⟨laterBlock, laterFound, keeps⟩ := quiet.blocks id block found
  rw [Module.terminator?, Module.terminator?, found, laterFound,
    Option.bind_some, Option.bind_some, keeps.terminator]

/-! ## Insertion -/

/-- The function of a block after an insertion into the block. -/
def inserting (module : Module) (block : BlockId) (position : Block → Nat)
    (operation : Operation) (name : String) (function : Function) :
    Function :=
  let (name, names) :=
    match operation.resultType with
    | .void => ("", function.names)
    | _ => function.names.reserve "" name
  { function with
    names
    registerCount := function.registerCount + 1
    blocks := function.blocks.modify block.index fun inner =>
      inner.insertAt (position inner)
        ⟨⟨block.function, (module.function block.function).registerCount⟩,
          name, operation⟩ }

theorem insertInstruction_apply (module : Module) (block : BlockId)
    (position : Block → Nat) (operation : Operation) (name : String) :
    insertInstruction block position operation name module =
      (⟨block.function, (module.function block.function).registerCount⟩,
        (modifyFunction block.function
          (module.inserting block position operation name) module).2) := rfl

theorem inserted_inserting (module : Module) (block : BlockId)
    (position : Block → Nat) (operation : Operation) (name : String) :
    Function.Inserted block.function block.index position operation
      (module.function block.function)
      (module.inserting block position operation name
        (module.function block.function)) := by
  refine ⟨rfl, rfl, ⟨_, rfl⟩, rfl, ?_, rfl⟩
  show (module.function block.function).names.taken ⊆ _
  simp only [inserting]
  split
  · exact List.Subset.refl _
  · exact NameTable.taken_reserve _ _ _


theorem block?_insertInstruction_of_ne (module : Module) (block : BlockId)
    (position : Block → Nat) (operation : Operation) (name : String)
    {id : BlockId} (elsewhere : id ≠ block) :
    (insertInstruction block position operation name module).2.block? id =
      module.block? id := by
  rw [insertInstruction_apply, block?_eq, block?_eq,
    function_modifyFunction]
  split
  · next same =>
      have other : block.index ≠ id.index := by
        intro sameIndex
        apply elsewhere
        cases id
        cases block
        simp_all
      simp [inserting, other]
  · rfl

/-- An insertion changes one function only. -/
theorem function_insertInstruction_of_ne (module : Module) (block : BlockId)
    (position : Block → Nat) (operation : Operation) (name : String)
    {id : FunctionId} (elsewhere : id ≠ block.function) :
    (insertInstruction block position operation name module).2.function id =
      module.function id := by
  rw [insertInstruction_apply, function_modifyFunction,
    if_neg fun same => elsewhere same.1]

theorem registerCount_insertInstruction (position : Block → Nat)
    (operation : Operation) (name : String) {block : BlockId}
    (known : (module.block? block).isSome = true) :
    ((insertInstruction block position operation name module).2.function
        block.function).registerCount =
      (module.function block.function).registerCount + 1 := by
  obtain ⟨inner, found⟩ := Option.isSome_iff_exists.mp known
  rw [insertInstruction_apply, function_modifyFunction,
    if_pos ⟨rfl, lt_of_block? found⟩]
  rfl

theorem block?_insertInstruction (position : Block → Nat)
    (operation : Operation) (name : String) {block : BlockId} {inner : Block}
    (found : module.block? block = some inner) :
    ∃ final, (insertInstruction block position operation name module).2.block?
        block =
      some (inner.insertAt (position inner)
        ⟨⟨block.function, (module.function block.function).registerCount⟩,
          final, operation⟩) := by
  refine ⟨(match operation.resultType with
    | .void => ("", (module.function block.function).names)
    | _ => (module.function block.function).names.reserve "" name).1, ?_⟩
  rw [insertInstruction_apply, block?_eq, function_modifyFunction,
    if_pos ⟨rfl, lt_of_block? found⟩]
  rw [block?_eq] at found
  simp [inserting, found]

/-- An instruction that does not end its block. -/
theorem Sound.insert (sound : module.Sound) (block : BlockId)
    (position : Block → Nat) {operation : Operation}
    (notEnding : operation.isTerminator = false) (name : String)
    (admits : ∀ inner, module.block? block = some inner →
      inner.Admits (position inner))
    (behindPhi : ∀ inner, module.block? block = some inner →
      block.index ≠ 0 → inner.phi?.isSome = true → 0 < position inner) :
    (insertInstruction block position operation name module).2.Sound ∧
      module.Quiet
        (insertInstruction block position operation name module).2 := by
  have inserted := inserted_inserting module block position operation name
  obtain ⟨body, keeps⟩ := inserted.quiet (sound.bodies block.function)
    notEnding admits behindPhi
  obtain ⟨laterSound, extends_⟩ :=
    sound.changeFunction block.function _ ⟨rfl, rfl, rfl, rfl⟩ body
  rw [insertInstruction_apply]
  refine ⟨laterSound, extends_, ?_, ?_, ?_⟩
  · intro id
    rw [function_modifyFunction]
    split
    · next same =>
        rw [same.1, inserted.registerCount]
        exact Nat.le_succ _
    · exact Nat.le_refl _
  · intro id inner found
    by_cases same : id.function = block.function
    · have laterFound : ∃ laterInner,
          (module.inserting block position operation name
            (module.function block.function)).blocks[id.index]? =
              some laterInner := by
        rw [block?_eq, same] at found
        have inside := (List.getElem?_eq_some_iff.mp found).1
        rw [← inserted.length] at inside
        exact ⟨_, List.getElem?_eq_getElem inside⟩
      obtain ⟨laterInner, laterFound⟩ := laterFound
      refine ⟨laterInner, ?_, ?_⟩
      · rw [block?_eq, function_modifyFunction,
          if_pos ⟨same, same ▸ lt_of_block? found⟩, same]
        exact laterFound
      · rw [block?_eq, same] at found
        exact keeps id.index inner laterInner found laterFound
    · refine ⟨inner, ?_, Block.Keeps.refl _ _⟩
      rw [block?_eq, function_modifyFunction, if_neg fun both => same both.1]
      exact found
  · intro id laterInner missing found
    rw [block?_eq, function_modifyFunction] at found
    split at found
    · next same =>
        rw [block?_eq, List.getElem?_eq_none_iff] at missing
        have inside := (List.getElem?_eq_some_iff.mp found).1
        rw [same.1, inserted.length, ← same.1] at inside
        omega
    · rw [← block?_eq, missing] at found
      cases found

end Module

end FormCompiler.Ir
