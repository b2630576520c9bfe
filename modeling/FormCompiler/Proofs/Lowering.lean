import FormCompiler.Proofs.TypeTables

/-!
# Lowered types and typed values

Lowering a type only ever adds structs to a module; the instruction type it
gives is a function of the type table, and stays the same when the table
grows.  A value is well typed when its operand has the instruction type of
the value's own type.

The result and the parameters of a function are lowered one level deeper than
a type that stands alone.  The two agree except on types that nest so deeply
that the function boundary loses them.
-/

namespace FormCompiler.Ir

namespace IrType

mutual

theorem eq_of_equals (left right : IrType)
    (equal : left.equals right = true) : left = right := by
  cases left with
  | array length element =>
      cases right <;> simp only [equals, Bool.false_eq_true] at equal
      rw [Bool.and_eq_true, beq_iff_eq] at equal
      rw [equal.1, eq_of_equals element _ equal.2]
  | struct fields =>
      cases right <;> simp only [equals, Bool.false_eq_true] at equal
      rw [eq_of_equalsList fields _ equal]
  | function result parameters variadic =>
      cases right <;> simp only [equals, Bool.false_eq_true] at equal
      rw [Bool.and_eq_true, Bool.and_eq_true, beq_iff_eq] at equal
      rw [eq_of_equals result _ equal.1.1,
        eq_of_equalsList parameters _ equal.1.2, equal.2]
  | _ =>
      cases right <;> simp_all [equals]

theorem eq_of_equalsList (left right : List IrType)
    (equal : equalsList left right = true) : left = right := by
  cases left with
  | nil => cases right <;> simp_all [equalsList]
  | cons type left =>
      cases right with
      | nil => simp [equalsList] at equal
      | cons other right =>
          rw [equalsList, Bool.and_eq_true] at equal
          rw [eq_of_equals type other equal.1,
            eq_of_equalsList left right equal.2]

end

end IrType

/-- The instruction type that a type stands for within some levels. -/
def lowered (table : TypeTable) : (levels : Nat) → TypeId → IrType
  | 0, _ => .void
  | levels + 1, type =>
      match table.kind type with
      | .void => .void
      | .int bits => .int bits
      | .float => .float
      | .double => .double
      | .pointer _ => .pointer
      | .label => .label
      | .token => .token
      | .array element length =>
          let element := lowered table levels element
          if element.isFirstClass then .array (min length 0xFFFFFFFF) element
          else .void
      | .struct fields =>
          let fields := fields.map (lowered table levels)
          if fields.all IrType.isFirstClass then .struct fields else .void
      | .named name => .named (nameBeforeNul name)
      | .function result parameters variadic =>
          .function (lowered table levels result)
            (parameters.map (lowered table levels)) variadic

variable {table later : TypeTable} {type : TypeId}

theorem stateM_bind_apply {State Result Other : Type}
    (operation : StateM State Result) (next : Result → StateM State Other)
    (state : State) :
    (operation >>= next) state =
      next (operation state).1 (operation state).2 := rfl

theorem stateM_get_bind {State Result : Type}
    (next : State → StateM State Result) (state : State) :
    (get >>= next) state = next state state := rfl

theorem reader_bind_apply {Environment State Result Other : Type}
    (first : ReaderT Environment (StateM State) Result)
    (next : Result → ReaderT Environment (StateM State) Other)
    (environment : Environment) (state : State) :
    (first >>= next) environment state =
      next (first environment state).1 environment
        (first environment state).2 := rfl

theorem lowerFields_fst {lower : TypeId → StateM StructBodies IrType}
    {value : TypeId → IrType}
    (lowers : ∀ type structs, (lower type structs).1 = value type)
    (fields : List TypeId) (structs : StructBodies) :
    (lowerFields lower fields structs).1 =
      if (fields.map value).all IrType.isFirstClass then
        some (fields.map value) else none := by
  induction fields generalizing structs with
  | nil => rfl
  | cons field fields ih =>
      have step : (lowerFields lower (field :: fields) structs).1 =
          if (value field).isFirstClass then
            (lowerFields lower fields (lower field structs).2).1.map
              (value field :: ·)
          else none := by
        rw [← lowers field structs, lowerFields, stateM_bind_apply]
        split
        · rw [stateM_bind_apply]
          cases (lowerFields lower fields (lower field structs).2).1 <;> rfl
        · rfl
      rw [step, ih, List.map_cons, List.all_cons]
      cases (value field).isFirstClass with
      | false => rfl
      | true =>
          simp only [if_true, Bool.true_and]
          split <;> rfl

theorem mapM_lower_fst {lower : TypeId → StateM StructBodies IrType}
    {value : TypeId → IrType}
    (lowers : ∀ type structs, (lower type structs).1 = value type)
    (types : List TypeId) (structs : StructBodies) :
    (types.mapM lower structs).1 = types.map value := by
  induction types generalizing structs with
  | nil => rfl
  | cons type types ih =>
      rw [List.mapM_cons, List.map_cons, ← lowers type structs,
        ← ih (lower type structs).2]
      rfl

/-- Lowering gives what the type table says, whatever structs there are. -/
theorem lowerWithin_fst (table : TypeTable) (levels : Nat) (type : TypeId)
    (structs : StructBodies) :
    (lowerWithin table levels type structs).1 =
      lowered table levels type := by
  induction levels generalizing type structs with
  | zero => rfl
  | succ levels ih =>
      cases kind : table.kind type with
      | array element length =>
          simp only [lowerWithin, lowered, kind, ← ih element structs]
          rfl
      | struct fields =>
          have fieldsEq := lowerFields_fst ih fields structs
          simp only [lowerWithin, lowered, kind, stateM_bind_apply]
          rw [fieldsEq]
          split <;> rfl
      | function result parameters variadic =>
          simp only [lowerWithin, lowered, kind, ← ih result structs,
            ← mapM_lower_fst ih parameters
              (lowerWithin table levels result structs).2]
          rfl
      | _ =>
          simp only [lowerWithin, lowered, kind]
          rfl

/-- What a type is lowered to stays the same in later tables. -/
theorem lowered_eq (closed : table.Closed) (grows : table.Grows later)
    (has : table.Has type) (levels : Nat) :
    lowered later levels type = lowered table levels type := by
  induction levels generalizing type with
  | zero => rfl
  | succ levels ih =>
      have parts : ∀ part ∈ (table.kind type).parts,
          lowered later levels part = lowered table levels part :=
        fun part member => ih (closed.part type member)
      unfold lowered
      rw [has.kind_eq grows]
      cases kind : table.kind type with
      | array element length =>
          rw [kind] at parts
          simp only [parts element (by simp [TypeKind.parts])]
      | struct fields =>
          rw [kind] at parts
          have fieldParts : ∀ field ∈ fields,
              lowered later levels field = lowered table levels field := parts
          simp only [List.map_congr_left fieldParts]
      | function result parameters variadic =>
          rw [kind] at parts
          have parameterParts : ∀ parameter ∈ parameters,
              lowered later levels parameter =
                lowered table levels parameter := by
            intro parameter member
            exact parts parameter (by simp [TypeKind.parts, member])
          simp only [parts result (by simp [TypeKind.parts]),
            List.map_congr_left parameterParts]
      | _ => rfl

/-- One more level makes no difference to what is first-class already. -/
theorem lowered_succ {levels : Nat}
    (firstClass : (lowered table levels type).isFirstClass = true) :
    lowered table (levels + 1) type = lowered table levels type := by
  induction levels generalizing type with
  | zero => simp [lowered, IrType.isFirstClass] at firstClass
  | succ levels ih =>
      unfold lowered at firstClass ⊢
      cases kind : table.kind type with
      | array element length =>
          simp only [kind] at firstClass ⊢
          split at firstClass
          · next elementClass => simp only [ih elementClass]
          · simp [IrType.isFirstClass] at firstClass
      | struct fields =>
          simp only [kind] at firstClass ⊢
          split at firstClass
          · next fieldClasses =>
              have same : fields.map (lowered table (levels + 1)) =
                  fields.map (lowered table levels) := by
                apply List.map_congr_left
                intro field member
                apply ih
                rw [List.all_eq_true] at fieldClasses
                exact fieldClasses _ (List.mem_map_of_mem member)
              simp only [same]
          · simp [IrType.isFirstClass] at firstClass
      | function result parameters variadic =>
          simp [kind, IrType.isFirstClass] at firstClass
      | _ => rfl

/-- The parts of a function type are lowered one level deeper. -/
theorem lowered_function {signature : TypeTable.Signature}
    (found : table.signature? type = some signature) (levels : Nat) :
    lowered table (levels + 1) type =
      .function (lowered table levels signature.result)
        (signature.parameters.map (lowered table levels))
        signature.variadic := by
  unfold TypeTable.signature? at found
  split at found <;> cases found
  next kind => simp only [lowered, kind]

theorem lowered_void (kind : table.kind type = .void) (levels : Nat) :
    lowered table (levels + 1) type = .void := by
  simp only [lowered, kind]

/-! ## Typed values -/

/-- The levels within which results and parameters are lowered. -/
def boundaryLevels : Nat := loweringLevels - 1

/-- What a value of a type may stand for.  An operand has the instruction
type of the type, as it stands alone or as it crosses a function boundary;
only a type that is not first-class there has no operand. -/
def Content.Fits (table : TypeTable) (type : TypeId) : Content → Prop
  | .firstClass operand =>
      operand.type = lowered table loweringLevels type ∨
        operand.type = lowered table boundaryLevels type
  | .token _ | .nothing =>
      (lowered table boundaryLevels type).isFirstClass = false

structure Value.Typed (table : TypeTable) (value : Value) : Prop where
  has : table.Has value.type
  fits : value.content.Fits table value.type

theorem Content.Fits.mono {content : Content}
    (fits : content.Fits table type) (closed : table.Closed)
    (grows : table.Grows later) (has : table.Has type) :
    content.Fits later type := by
  cases content with
  | firstClass operand =>
      rw [Content.Fits, lowered_eq closed grows has,
        lowered_eq closed grows has]
      exact fits
  | token operand =>
      rw [Content.Fits, lowered_eq closed grows has]
      exact fits
  | nothing =>
      rw [Content.Fits, lowered_eq closed grows has]
      exact fits

namespace Value.Typed

variable {value : Value}

theorem mono (typed : value.Typed table) (closed : table.Closed)
    (grows : table.Grows later) : value.Typed later :=
  ⟨typed.has.mono grows, typed.fits.mono closed grows typed.has⟩

/-- Types that are lowered alike at every level have an operand. -/
theorem operand_type (typed : value.Typed table) {irType : IrType}
    (lowers : ∀ levels, lowered table (levels + 1) value.type = irType)
    (firstClass : irType.isFirstClass = true) :
    value.isFirstClass = true ∧ value.operand.type = irType := by
  have fits := typed.fits
  have alone : lowered table loweringLevels value.type = irType := lowers 64
  have across : lowered table boundaryLevels value.type = irType := lowers 63
  unfold Value.isFirstClass Value.operand
  cases content : value.content with
  | firstClass operand =>
      rw [content, Content.Fits, alone, across, or_self] at fits
      exact ⟨rfl, fits⟩
  | token operand =>
      rw [content, Content.Fits, across, firstClass] at fits
      cases fits
  | nothing =>
      rw [content, Content.Fits, across, firstClass] at fits
      cases fits

theorem operand_int (typed : value.Typed table) {bits : Nat}
    (width : table.intWidth? value.type = some bits) :
    value.isFirstClass = true ∧ value.operand.type = .int bits := by
  apply typed.operand_type _ rfl
  intro levels
  unfold TypeTable.intWidth? at width
  split at width <;> cases width
  next kind => simp only [lowered, kind]

theorem operand_float (typed : value.Typed table)
    (float : table.isFloat value.type = true) :
    value.isFirstClass = true := by
  unfold TypeTable.isFloat at float
  split at float
  · next kind =>
      have lowers (levels : Nat) :
          lowered table (levels + 1) value.type = .float := by
        simp only [lowered, kind]
      exact (typed.operand_type lowers rfl).1
  · next kind =>
      have lowers (levels : Nat) :
          lowered table (levels + 1) value.type = .double := by
        simp only [lowered, kind]
      exact (typed.operand_type lowers rfl).1
  · cases float

theorem operand_pointer (typed : value.Typed table)
    (pointer : table.isPointer value.type = true) :
    value.isFirstClass = true ∧ value.operand.type = .pointer := by
  apply typed.operand_type _ rfl
  intro levels
  unfold TypeTable.isPointer TypeTable.pointee? at pointer
  split at pointer
  · next kind => simp only [lowered, kind]
  · cases pointer

/-- The operand of a value has the type of the value, unless it does not fit
within the levels of types. -/
theorem operand_lowered (typed : value.Typed table)
    (firstClass :
      (lowered table boundaryLevels value.type).isFirstClass = true) :
    value.operand.type = lowered table loweringLevels value.type := by
  have same : lowered table loweringLevels value.type =
      lowered table boundaryLevels value.type := lowered_succ firstClass
  have fits := typed.fits
  unfold Value.operand
  cases content : value.content with
  | firstClass operand =>
      rw [content, Content.Fits, ← same, or_self] at fits
      exact fits
  | token operand =>
      rw [content, Content.Fits, firstClass] at fits
      cases fits
  | nothing =>
      rw [content, Content.Fits, firstClass] at fits
      cases fits

end Value.Typed

end FormCompiler.Ir
