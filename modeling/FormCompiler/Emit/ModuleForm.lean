import FormCompiler.Emit.Body

/-!
# Modules

A module form holds settings and declarations: aggregates, globals and
functions.  Aggregates are laid out first, then globals and functions are
declared in order, so that bodies may use any of them, and then the bodies are
emitted one after another.  A declaration that cannot be understood is
reported and skipped.
-/

namespace FormCompiler

open Ir

/-- What emitting a module leaves. -/
structure ModuleState where
  module : Module
  layouts : Layouts := {}
  /-- In the order in which they are declared. -/
  headers : List FunctionHeader := []
  literals : LiteralPool := {}
  closureCount : Nat := 0
  /-- The blocks that matches with a result end at, with the types of the
  results. -/
  matchEnds : List (BlockId × TypeId) := []
  /-- In the order in which they were met. -/
  problems : List Problem := []

abbrev ModuleEmission := StateM ModuleState

/-- A module may fail as a whole. -/
abbrev ModuleHandler := ExceptT EmitError ModuleEmission

namespace ModuleState

/-- A module without declarations. -/
def ofConfiguration (configuration : Configuration) : ModuleState :=
  { module := ({ name := "edn" } : Module).setTriple
      configuration.targetTriple }

/-- Adds a problem outside of functions. -/
def addProblem (state : ModuleState) (operation : String)
    (span : Option Span) (cause : ProblemCause) : ModuleState :=
  { state with
    problems := state.problems ++ [moduleProblem operation span cause] }

end ModuleState

/-- Runs an operation on the module. -/
def onModule {Result : Type} (operation : StateM Module Result) :
    ModuleEmission Result :=
  modifyGet fun state =>
    let (result, module) := operation state.module
    (result, { state with module })

/-- Reads types into the type table of the module; a fault is a problem. -/
def reading {Result : Type} (operation : String) (span : Option Span)
    (reader : TypeReader Result) : ModuleEmission (Option Result) := do
  match ← onModule (Module.withTypes reader.run) with
  | .ok result => pure (some result)
  | .error cause =>
      modify (·.addProblem operation span cause)
      pure none

/-! ## Settings -/

/-- Settings and declarations of a module, each in order. -/
structure ModuleParts where
  settings : List (String × Form) := []
  declarations : List Form := []

/-- Splits the items of a module.  A setting without a value ends the
reading; the settings ahead of it still count. -/
def splitModule : List Form → ModuleParts × Option EmitError
  | [] => ({}, none)
  | item :: rest =>
      match item.keyword? with
      | none =>
          let (parts, error) := splitModule rest
          ({ parts with declarations := item :: parts.declarations }, error)
      | some key =>
          match rest with
          | [] => ({}, some (.malformedModule s!":{key} has no value"))
          | value :: rest =>
              let (parts, error) := splitModule rest
              ({ parts with settings := (key, value) :: parts.settings },
                error)

/-- Applies the settings of a module; the last name that is one counts. -/
def applySettings (module : Module) (settings : List (String × Form)) :
    Module :=
  settings.foldl
    (fun module (key, value) =>
      match value.name? with
      | some name => if key = "id" then module.setName name else module
      | none => module)
    module

/-! ## Globals -/

/-- The initial value of a global: what its type cannot hold is zero. -/
def globalInitializer (table : TypeTable) (type : TypeId)
    (literal : Option Form) : Initializer :=
  match table.kind type with
  | .int _ =>
      let value := literal.bind fun form =>
        form.int?.or (form.bool?.map fun value => if value then 1 else 0)
      .int (value.getD 0)
  | .float | .double =>
      let value := literal.bind fun form =>
        form.float?.or (form.int?.map fun value => .ofInt value.toInt)
      .float (value.getD .zero)
  | .pointer _ => .null
  | .array _ length =>
      match literal.bind Tree.string? with
      | some text =>
          let contents := utf8Bytes text
          .bytes (contents.take length ++
            List.replicate (length - contents.length) 0)
      | none => .zero
  | _ => .zero

/-- Declares `(global :name G :type T :const b :init lit)`. -/
def declareGlobal (form : Form) : ModuleEmission Unit := do
  let shape := "(global :name G :type T :const b :init lit)"
  let arguments := KeywordArguments.ofForm form
  match arguments.symbol? "name", arguments.get? "type" with
  | some name, some typeForm =>
      match ← reading "global" form.span? (readType typeForm) with
      | none => pure ()
      | some type =>
          let initializer := globalInitializer (← get).module.types type
            (arguments.get? "init")
          let _ ← onModule (Module.addGlobal name type (some initializer)
            (arguments.flag "const") .external)
  | _, _ => modify (·.addProblem "global" form.span? (.malformed shape))

/-! ## Functions -/

def functionShape : String :=
  "(fn :name f :ret T :params [(param T %p)..] :body [..])"

/-- Reads `(param T %p)` at a position.  A parameter without a name is named
for its position. -/
def readParameter (index : Nat) (form : Form) :
    TypeReader (String × TypeId) := do
  if form.head? ≠ some "param" then throw (.malformed functionShape)
  let items := form.list?.getD []
  let type ← readType (← shaped functionShape items[1]?)
  pure ((items[2]?.bind localName?).getD s!"arg{index}", type)

/-- Reads parameters from a position on. -/
def readParameters :
    (index : Nat) → List Form → TypeReader (List (String × TypeId))
  | _, [] => pure []
  | index, form :: forms => do
      let parameter ← readParameter index form
      pure (parameter :: (← readParameters (index + 1) forms))

/-- Reads the header of a function. -/
def readHeader (form : Form) : TypeReader FunctionHeader := do
  let arguments := KeywordArguments.ofForm form
  let name ← shaped functionShape (arguments.symbol? "name")
  let result ←
    match arguments.get? "ret" with
    | some result => readType result
    | none => TypeTable.void
  let parameters ← readParameters 0 ((arguments.vector? "params").getD [])
  let type ← TypeTable.function result (parameters.map Prod.snd)
    (arguments.flag "vararg")
  let body :=
    if arguments.flag "external" then none else arguments.vector? "body"
  pure ⟨name, type, parameters, body⟩

/-- Declares a function. -/
def declareHeader (form : Form) : ModuleEmission Unit := do
  match ← reading "fn" form.span? (readHeader form) with
  | none => pure ()
  | some header =>
      let _ ← onModule
        (Module.addFunction header.name header.type .external)
      modify fun state => { state with headers := state.headers ++ [header] }

/-- Declares a global or a function; aggregates are laid out already. -/
def declare (form : Form) : ModuleEmission Unit :=
  match form.head? with
  | some "global" => declareGlobal form
  | some "fn" => declareHeader form
  | head =>
      if (head.bind AggregateKind.ofHead?).isSome then pure ()
      else
        modify (·.addProblem (head.getD "") form.span? .unrecognized)

/-- Emits one function of a module. -/
def emitFunction (configuration : Configuration) (header : FunctionHeader)
    (body : List Form) : ModuleHandler Unit := do
  let state ← get
  match state.module.function? header.name with
  | none => throw (.unknownFunction header.name)
  | some function =>
      let environment : Environment :=
        { configuration
          layouts := state.layouts
          functionName := (state.module.function function).name }
      let context := FunctionContext.ofMutableNames
        (mutableNames (header.parameters.map Prod.fst) body)
      let (result, final) := (emitBody function header body).run environment
        { builder := { module := state.module, function }
          context
          literals := state.literals
          closureCount := state.closureCount
          matchEnds := state.matchEnds
          problems := state.problems }
      set { state with
        module := final.builder.module
        literals := final.literals
        closureCount := final.closureCount
        matchEnds := final.matchEnds
        problems := final.problems }
      liftExcept result
where
  liftExcept : Except EmitError Unit → ModuleHandler Unit
    | .ok _ => pure ()
    | .error error => throw error

/-- Emits the bodies of a module. -/
def emitFunctions (configuration : Configuration) :
    List FunctionHeader → ModuleHandler Unit
  | [] => pure ()
  | header :: headers => do
      match header.body with
      | some body => emitFunction configuration header body
      | none => pure ()
      emitFunctions configuration headers

/-- Lays out the aggregates of a module. -/
def layOutModule (declarations : List Form) : ModuleEmission Unit :=
  modify fun state =>
    let laidOut := layOut declarations state.module.types
    { state with
      module := { state.module with types := laidOut.table }
      layouts := laidOut.layouts
      problems := state.problems ++ laidOut.problems }

/-- Emits a module form. -/
def emitModule (configuration : Configuration) (form : Form) :
    ModuleHandler Unit := do
  if form.head? ≠ some "module" then
    let found := form.head?.getD form.kindName
    throw (.malformedModule s!"expected `(module ..)`, found `{found}`")
  let (parts, error) := splitModule (form.list?.getD []).tail
  modify fun state =>
    { state with module := applySettings state.module parts.settings }
  match error with
  | some error => throw error
  | none => pure ()
  layOutModule parts.declarations
  parts.declarations.forM fun declaration => declare declaration
  let headers := (← get).headers
  match configuration.personality with
  | some personality =>
      if headers.any fun header => header.body.isSome then
        let _ ← (onModule (declarePersonality personality) :
          ModuleEmission FunctionId)
  | none => pure ()
  emitFunctions configuration headers

/-- What emitting a module form under a configuration leaves, and the error
that stopped it. -/
structure Emitted where
  state : ModuleState
  error : Option EmitError

/-- Emits a module form into a fresh module. -/
def emitted (configuration : Configuration) (form : Form) : Emitted :=
  let (result, state) := (emitModule configuration form).run
    (ModuleState.ofConfiguration configuration)
  { state
    error :=
      match result with
      | .ok _ => none
      | .error error => some error }

end FormCompiler
