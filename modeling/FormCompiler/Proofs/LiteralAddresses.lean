import FormCompiler.Proofs.Effects
import FormCompiler.Proofs.LiteralGlobals

/-!
# Addresses of literals

The instructions for literals take the address of the first byte of the
constant that the literal has, or gets.  Where there is a block to build in,
the address that is given is noted.
-/

namespace FormCompiler

open Ir

/-! ## The first byte of a constant -/

namespace Ir.Builder

variable {builder : Builder} {block : BlockId} {value : Value}

/-- The address of the first byte of a constant. -/
def firstByte (id : GlobalId) (name : String) : Build (Option Value) := do
  let array ← globalAddress id
  let zero ← constantI32 0
  elementPointer array [zero, zero] name

theorem computes_firstByte (id : GlobalId) (name : String) :
    Computes (firstByte id name) :=
  .bind (computes_globalAddress id) fun array =>
    .bind (computes_constantI32 0) fun zero =>
      computes_elementPointer array [zero, zero] name

theorem globalAddress_apply (id : GlobalId) (builder : Builder) :
    ∃ index type module, globalAddress id builder =
        (⟨index, type, .firstClass (.global id)⟩, { builder with module }) ∧
      module.functions = builder.module.functions ∧
      module.globals = builder.module.globals :=
  ⟨_, _, _, rfl, rfl, rfl⟩

theorem constantI32_apply (value : Int) (builder : Builder) :
    ∃ index type module, constantI32 value builder =
        (⟨index, type, .firstClass (.ofInt 32 value)⟩,
          { builder with module }) ∧
      module.functions = builder.module.functions ∧
      module.globals = builder.module.globals := by
  let typed := onTypes (TypeTable.int 32) builder
  have kind : typed.2.module.types.kind typed.1 = .int 32 :=
    TypeTable.kind_intern builder.module.types (.int 32)
  have lowers : (onModule (Module.lower typed.1) typed.2).1 = .int 32 := by
    show (lowerWithin typed.2.module.types loweringLevels typed.1 _).1 = _
    rw [lowerWithin_fst, loweringLevels, lowered, kind]
  have apply : constantInt typed.1 value typed.2 =
      pushOperand (.ofInt 32 value) typed.1
        (onModule (Module.lower typed.1) typed.2).2 := by
    unfold constantInt
    rw [stateM_bind_apply]
    generalize onModule (Module.lower typed.1) typed.2 = ran at lowers
    obtain ⟨irType, later⟩ := ran
    cases lowers
    rfl
  exact ⟨_, _, _, apply, rfl, rfl⟩

/-- An element pointer that is given at a block is the result of an
instruction. -/
theorem elementPointer_of_some {base : Value} {indices : List Value}
    {name : String} (placed : builder.block = some block)
    (gives : (elementPointer base indices name builder).1 = some value) :
    ∃ lowered type module,
      (value, (elementPointer base indices name builder).2) =
        insertValue block (.elementPointer lowered base.operand
          (indices.map Value.operand)) name type { builder with module } ∧
      module.functions = builder.module.functions ∧
      module.globals = builder.module.globals := by
  unfold elementPointer at gives ⊢
  unfold Builder.types at gives ⊢
  rw [bind_assoc, stateM_get_bind, pure_bind] at gives ⊢
  dsimp only at gives ⊢
  generalize Option.bind (builder.module.types.pointee? base.type) _ = reached
    at gives ⊢
  cases reached with
  | none => cases gives
  | some reached =>
      obtain ⟨pointee, element⟩ := reached
      dsimp only at gives ⊢
      rw [stateM_bind_apply, stateM_bind_apply, attached_of_block
        (show (onTypes (TypeTable.pointer element) builder).2.block = _ from
          placed)] at gives ⊢
      dsimp only at gives ⊢
      by_cases isPointer : (!base.operand.type.isPointer) = true
      · rw [if_pos isPointer] at gives
        cases gives
      · rw [if_neg isPointer, stateM_bind_apply] at gives ⊢
        cases lowers : (onModule (Module.lowerFirstClass? pointee)
            (onTypes (TypeTable.pointer element) builder).2).1 with
        | none =>
            rw [lowers] at gives
            cases gives
        | some lowered =>
            rw [lowers] at gives
            dsimp only at gives ⊢
            by_cases areInts : ((indices.map Value.operand).all
                fun operand => operand.type.isInt) = true
            · rw [if_pos areInts] at gives ⊢
              cases gives
              exact ⟨lowered, _, _, rfl, rfl, rfl⟩
            · rw [if_neg areInts] at gives
              cases gives

/-- Where the builder is at a block that is there, the address of a literal is
the result of an instruction, and it is noted. -/
theorem firstByte_notes (steady : builder.Steady)
    (placed : builder.block = some block)
    (known : (builder.module.block? block).isSome = true) {id : GlobalId}
    {name : String} (gives : (firstByte id name builder).1 = some value) :
    ∃ register, value.content = .firstClass (.register register .pointer) ∧
      ∀ literals literal, literals.find? literal = some id →
        Draft.Trace (builder.draft literals) [.address literal id register]
          ((firstByte id name builder).2.draft literals) := by
  obtain ⟨index, pointer, module, addressed, functions, globals⟩ :=
    globalAddress_apply id builder
  obtain ⟨zeroIndex, word, later, zeroed, laterFunctions, laterGlobals⟩ :=
    constantI32_apply 0 { builder with module }
  have apply : firstByte id name builder =
      elementPointer ⟨index, pointer, .firstClass (.global id)⟩
        [⟨zeroIndex, word, .firstClass (.ofInt 32 0)⟩,
          ⟨zeroIndex, word, .firstClass (.ofInt 32 0)⟩] name
        { builder with module := later } := by
    unfold firstByte
    rw [stateM_bind_apply, addressed, stateM_bind_apply, zeroed]
  rw [apply] at gives ⊢
  obtain ⟨lowered, type, last, inserted, lastFunctions, lastGlobals⟩ :=
    elementPointer_of_some (show Builder.block { builder with
      module := later } = some block from placed) gives
  have sameFunctions : last.functions = builder.module.functions :=
    lastFunctions.trans (laterFunctions.trans functions)
  have furnished (literals : LiteralPool) : Draft.Step
      (builder.draft literals) [] ⟨last, literals⟩ :=
    .furnish sameFunctions (lastGlobals.trans (laterGlobals.trans globals))
  have lastSteady : Steady { builder with module := last } :=
    ((composes_furnish sameFunctions
      (lastGlobals.trans (laterGlobals.trans globals))).traces steady).1
  have lastKnown : (last.block? block).isSome = true :=
    (Draft.block?_of_functions_eq sameFunctions block).symm ▸ known
  refine ⟨⟨block.function, (last.function block.function).registerCount⟩,
    congrArg (fun made => made.1.content) inserted, ?_⟩
  intro literals literal found
  rw [congrArg Prod.snd inserted]
  have taken : Draft.Step ⟨last, literals⟩
      [.address literal id ⟨block.function,
        (last.function block.function).registerCount⟩]
      (Draft.inserted ⟨last, literals⟩ block builder.cursor
        (Draft.firstByte lowered id) (nameBeforeNul name)) :=
    .address found lastKnown (lastSteady.atCursor placed literals) lowered _
  exact .trans (.single (furnished literals))
    (.trans (.single taken) (.single (.furnish rfl rfl)))

end Ir.Builder

/-! ## Literals -/

theorem computes_intern (pool : LiteralPool) (literal : Literal) :
    Module.Computes (pool.intern literal) := by
  unfold LiteralPool.intern
  split
  · exact .pure _
  · refine .bind (Module.computes_of_functions_eq fun _ => rfl)
      fun byte => ?_
    refine .bind (Module.computes_of_functions_eq fun _ => rfl)
      fun type => ?_
    exact .bind (Module.computes_addGlobal _ type _ _ _) fun _ => .pure _

/-- The state once a literal has a constant. -/
def EmitState.interned (state : EmitState) (literal : Literal) : EmitState :=
  let outcome := state.literals.intern literal state.builder.module
  { state with
    builder := { state.builder with module := outcome.2 }
    literals := outcome.1.2 }

theorem EmitState.evolves_interned (environment : Environment)
    (state : EmitState) (literal : Literal) :
    state.Evolves environment [] (state.interned literal) := by
  intro steady
  have functions := Draft.functions_intern state.literals literal
    state.builder.module
  have blocks (id : BlockId) :
      (state.interned literal).builder.module.block? id =
        state.builder.module.block? id :=
    Draft.block?_of_functions_eq functions id
  refine ⟨⟨?_, fun before block placed => ?_⟩, [],
    .single (.intern literal), fun _ => .inl⟩
  · exact (blocks _).symm ▸ steady.entered
  · have ends := steady.ends before block placed
    unfold Builder.isTerminatedBlock at ends ⊢
    rw [blocks]
    exact ends

/-- The address of the first byte of a literal. -/
def addressLiteral (literal : Literal) (name : String) :
    Emission (Option Value) := do
  let (id, literals) ← (← get).literals.intern literal
  modify fun state => { state with literals }
  Builder.firstByte id name

theorem addressLiteral_apply (literal : Literal) (name : String)
    (environment : Environment) (state : EmitState) :
    addressLiteral literal name environment state =
      onBuilder (Builder.firstByte
        (state.literals.intern literal state.builder.module).1.1 name)
        environment (state.interned literal) := by
  unfold addressLiteral EmitState.interned
  generalize found : Builder.firstByte = address
  clear found
  rfl

theorem defineLiteral_eq (destination : String) (literal : Literal) :
    defineLiteral destination literal = (do
      let pointer ← orFail (.unresolved destination)
        (← addressLiteral literal destination)
      define destination pointer pointer.type) := by
  unfold defineLiteral addressLiteral Builder.firstByte
  generalize Builder.globalAddress = globalAddress
  generalize Builder.constantI32 = constant
  generalize Builder.elementPointer = elementPointer
  generalize LiteralPool.intern = intern
  generalize define = define
  rfl

theorem does_addressLiteral (literal : Literal) (name : String) :
    Does EmitState.Plainly [] (addressLiteral literal name) := by
  intro environment state
  rw [addressLiteral_apply]
  have interned : state.Plainly environment [] (state.interned literal) :=
    ⟨⟨⟨[], .refl [], .refl _⟩,
      ⟨computes_intern state.literals literal state.builder.module, rfl, rfl⟩,
      rfl, rfl⟩, state.evolves_interned environment literal⟩
  exact Graded.trans interned
    (does_onBuilder (Builder.computes_firstByte _ name) environment _)

end FormCompiler
