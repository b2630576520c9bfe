import FormCompiler.Proofs.EmittedTraces

/-!
# Declared globals

The globals that others may see are those that forms declare.  Code adds
globals of its own, for literals and for the environments of closures, and
these are left out of the symbol table.
-/

namespace FormCompiler

open Ir

/-- The globals of a module that others may see. -/
def Ir.Module.exported (module : Module) : List Global :=
  module.globals.filter fun global => global.linkage = .external

theorem exported_addGlobal (module : Module) (name : String) (type : TypeId)
    (initializer : Option Initializer) (isConstant : Bool) :
    (Module.addGlobal name type initializer isConstant .unlisted
      module).2.exported = module.exported := by
  cases found : module.global? name with
  | some id => rw [Module.addGlobal_of_found found]
  | none =>
      obtain ⟨-, symbol, globals⟩ := Module.addGlobal_eq found type
        initializer isConstant .unlisted
      rw [Module.exported, globals, List.filter_append]
      simp [Module.exported]

theorem exported_intern (pool : LiteralPool) (literal : Literal)
    (module : Module) :
    (pool.intern literal module).2.exported = module.exported := by
  unfold LiteralPool.intern
  cases pool.find? literal with
  | some id => rfl
  | none => exact exported_addGlobal _ _ _ _ _

namespace Draft

variable {start draft later : Draft} {events : List Event}

/-- No step adds a global that others may see. -/
theorem Step.exported (step : Step draft events later) :
    later.module.exported = draft.module.exported := by
  cases step with
  | furnish functions globals | declare function noBlocks functions globals =>
      rw [Module.exported, globals, Module.exported]
  | environment number type initializer =>
      exact exported_addGlobal _ _ _ _ _
  | intern literal => exact exported_intern _ _ _
  | _ => rfl

theorem Trace.exported (trace : Trace start events later) :
    later.module.exported = start.module.exported :=
  trace.preserves (fun draft => draft.module.exported = start.module.exported)
    (fun step same => step.exported.trans same) rfl

end Draft

/-- The globals of a module begin with constants of their types, unless a text
stands for an array of something else than bytes.

Declaring a global adds at most one, which the form declares, and afterwards
there is one of the name of the form if the type of the form can be read.
Every global of an emitted module that others may see is one that a form of
the module declares. -/
theorem globals_begin_with_their_types (configuration : Configuration)
    (form : Form) :
    (∀ (declaration : Form) (state : ModuleState),
      let later := (declareGlobal declaration state).2
      (later.module.globals = state.module.globals ∨ ∃ global,
        later.module.globals = state.module.globals ++ [global] ∧
        global.DeclaredBy later.module.types declaration) ∧
      ∀ name, ModuleState.Declarable state.module.types declaration name →
        (later.module.global? name).isSome = true) ∧
    ∀ global ∈ (emitted configuration form).state.module.globals,
      global.linkage = .external →
      ∃ declaration ∈ declaredForms form,
        declaration.head? = some "global" ∧ global.DeclaredBy
          (emitted configuration form).state.module.types declaration := by
  refine ⟨fun declaration state => ?_, fun global member isExternal => ?_⟩
  · have gains := ModuleState.gains_declareGlobal declaration state
    exact ⟨gains.globals, gains.recorded⟩
  · obtain ⟨start, bare, grows, events, trace⟩ :=
      ModuleState.arises_emitted configuration form
    have exported : global ∈ start.draft.module.exported := by
      rw [← trace.exported]
      exact List.mem_filter.mpr ⟨member, decide_eq_true isExternal⟩
    exact bare.declared (List.mem_filter.mp exported).1 grows

/-- A module with one global, an array of four elements that a text stands
for. -/
def textModule (element : String) : Form :=
  Form.list [Form.symbol "module",
    Form.keywordCall "global" [("name", Form.symbol "g"),
      ("type", Form.keywordCall "array" [("elem", Form.symbol element),
        ("size", .atom .empty (.int 4))]),
      ("init", .atom .empty (.string "abcd"))]]

theorem globals_begin_with_their_types_textModule :
    ∃ global operand,
      (emitted {} (textModule "i8")).state.module.globals = [global] ∧
      global.linkage = .external ∧
      global.initialOperand = some operand ∧
      operand.type = .array 4 (.int 8) ∧ operand.isConstant = true := by
  have typed : (emitted {} (textModule "i8")).state.module.globals.map
      (fun global => (global.linkage, global.type)) =
        [(.external, ⟨1⟩)] := by decide +kernel
  obtain ⟨global, globals, same⟩ := List.map_eq_singleton_iff.mp typed
  obtain ⟨isExternal, isType⟩ := Prod.mk.inj same
  obtain ⟨declaration, -, -, declared⟩ :=
    (globals_begin_with_their_types {} (textModule "i8")).2 global
      (by rw [globals]; exact List.mem_singleton_self global) isExternal
  have kind : (emitted {} (textModule "i8")).state.module.types.kind
      global.type = .array ⟨0⟩ 4 := by
    rw [isType]
    decide +kernel
  have byte : (emitted {} (textModule "i8")).state.module.types.kind ⟨0⟩ =
      .int 8 := by decide +kernel
  obtain ⟨initializer, operand, -, isOperand, ofType, isConstant, -⟩ :=
    declared.begins (by
      rintro text element length - isArray
      cases kind.symm.trans isArray
      exact ⟨byte, by decide⟩)
  refine ⟨global, operand, globals, isExternal, isOperand, ?_, isConstant⟩
  rw [ofType, declared.stored,
    TypeTable.storedType_bytes kind byte (by decide)]

/-- Four words begin with four bytes: the text is taken for the array although
its elements are not bytes, and the constant does not have the type of the
global. -/
theorem text_begins_words :
    let state := (emitted {} (textModule "i32")).state
    state.problems.isEmpty = true ∧
    (state.module.globals.map fun global =>
      (state.module.types.kind global.type,
        match global.initialOperand with
        | some (.bytes contents) => some contents
        | _ => none,
        global.initialOperand.map fun operand =>
          operand.type.equals global.irType)) =
      [(.array ⟨0⟩ 4, some (utf8Bytes "abcd"), some false)] ∧
    state.module.types.kind ⟨0⟩ = .int 32 := by
  decide +kernel

end FormCompiler
