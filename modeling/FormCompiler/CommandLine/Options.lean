import FormCompiler.Text.Affix
import FormCompiler.Emit.Configuration

/-!
# Options of the command line

Options and the path of the source may come in any order; the first argument
that is no option is the path.  An option that is not understood is warned
about and otherwise left out.
-/

namespace FormCompiler.CommandLine

/-- Exception models that can be asked for. -/
inductive ExceptionModels where
  | itanium
  | seh
  /-- The target decides. -/
  | both
deriving DecidableEq, Repr

namespace ExceptionModels

def text : ExceptionModels → String
  | .itanium => "itanium"
  | .seh => "seh"
  | .both => "both"

def ofText? (text : String) : Option ExceptionModels :=
  [itanium, seh, both].find? fun models => models.text = text

def wantsItanium : ExceptionModels → Bool
  | .itanium | .both => true
  | .seh => false

def wantsSeh : ExceptionModels → Bool
  | .seh | .both => true
  | .itanium => false

end ExceptionModels

structure Options where
  verify : Bool := false
  output : Option String := none
  models : Option ExceptionModels := none
  panicUnwinds : Bool := false
  coroutines : Bool := false
  target : Option String := none
deriving DecidableEq, Repr

/-- Changes a configuration by the options that were given. -/
def Options.apply (options : Options) (configuration : Configuration) :
    Configuration :=
  let configuration :=
    match options.models with
    | some models =>
        configuration.withModels models.wantsItanium models.wantsSeh
    | none => configuration
  { configuration with
    panicUnwinds := options.panicUnwinds || configuration.panicUnwinds
    coroutines := options.coroutines || configuration.coroutines
    targetTriple := options.target.or configuration.targetTriple }

/-- Why an option is left out. -/
inductive OptionWarning where
  | unknownModel (text : String)
  | unknownPanicMode (text : String)
  | unknownOption (text : String)
deriving DecidableEq, Repr

def OptionWarning.message : OptionWarning → String
  | .unknownModel text =>
      s!"warning: unknown exception model '{text}', options: itanium, seh, both"
  | .unknownPanicMode text =>
      s!"warning: unknown panic mode '{text}', options: unwind"
  | .unknownOption text => s!"warning: unknown option '{text}'"

structure ParsedOptions where
  path : Option String := none
  options : Options := {}
  /-- In the order of the arguments. -/
  warnings : List OptionWarning := []
deriving DecidableEq, Repr

namespace ParsedOptions

def modify (parsed : ParsedOptions) (change : Options → Options) :
    ParsedOptions :=
  { parsed with options := change parsed.options }

def warn (parsed : ParsedOptions) (warning : OptionWarning) : ParsedOptions :=
  { parsed with warnings := parsed.warnings ++ [warning] }

/-- Takes `--eh=..`. -/
def takeModels (parsed : ParsedOptions) (text : String) : ParsedOptions :=
  match ExceptionModels.ofText? text with
  | some models =>
      parsed.modify fun options => { options with models := some models }
  | none => parsed.warn (.unknownModel text)

/-- Takes `--panic=..`. -/
def takePanicMode (parsed : ParsedOptions) (text : String) : ParsedOptions :=
  if text = "unwind" then
    parsed.modify fun options => { options with panicUnwinds := true }
  else parsed.warn (.unknownPanicMode text)

/-- Options that have their value after an equals sign. -/
def takeValued? (parsed : ParsedOptions) (argument : String) :
    Option ParsedOptions :=
  let takers : List (String × (String → ParsedOptions)) :=
    [("--output=", fun value =>
        parsed.modify fun options => { options with output := some value }),
      ("--eh=", parsed.takeModels),
      ("--panic=", parsed.takePanicMode),
      ("--target=", fun value =>
        parsed.modify fun options => { options with target := some value })]
  takers.findSome? fun (beginning, take) =>
    (dropBeginning? beginning argument).map take

/-- Takes one argument that stands by itself. -/
def take (parsed : ParsedOptions) (argument : String) : ParsedOptions :=
  if argument = "--verify" then
    parsed.modify fun options => { options with verify := true }
  else if argument = "--coro" then
    parsed.modify fun options => { options with coroutines := true }
  else
    match parsed.takeValued? argument with
    | some parsed => parsed
    | none =>
        if argument.toList.head? = some '-' then
          parsed.warn (.unknownOption argument)
        else { parsed with path := parsed.path.or (some argument) }

/-- Takes the remaining arguments. -/
def takeAll (parsed : ParsedOptions) : List String → ParsedOptions
  | [] => parsed
  | [argument] => parsed.take argument
  | argument :: next :: rest =>
      if argument = "-o" then
        takeAll
          (parsed.modify fun options => { options with output := some next })
          rest
      else takeAll (parsed.take argument) (next :: rest)

end ParsedOptions

/-- Reads the arguments that follow a command. -/
def parseOptions (arguments : List String) : ParsedOptions :=
  ({} : ParsedOptions).takeAll arguments

end FormCompiler.CommandLine
