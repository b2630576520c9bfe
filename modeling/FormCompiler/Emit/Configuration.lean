import FormCompiler.Text.Affix

/-!
# Configuration of emission

A configuration is read from named settings and may then be changed.  An
exception model can be asked for without being put to use; only when both are
the case are bodies emitted under its personality.
-/

namespace FormCompiler

/-- How exceptions travel through frames. -/
inductive Personality where
  /-- Landing pads that resume. -/
  | itanium
  /-- Structured exception handling with funclets. -/
  | seh
deriving DecidableEq, Repr

namespace Personality

def text : Personality → String
  | .itanium => "itanium"
  | .seh => "seh"

/-- The routine that a function with this personality names. -/
def routine : Personality → String
  | .itanium => "__gxx_personality_v0"
  | .seh => "__C_specific_handler"

end Personality

structure Configuration where
  wantsItanium : Bool := false
  wantsSeh : Bool := false
  exceptionsEnabled : Bool := false
  /-- Whether a panic unwinds instead of trapping. -/
  panicUnwinds : Bool := false
  coroutines : Bool := false
  targetTriple : Option String := none
deriving DecidableEq, Repr

namespace Configuration

/-- A setting, unless it is empty. -/
def setting? (lookup : String → Option String) (key : String) :
    Option String :=
  (lookup key).filter fun value => !value.isEmpty

/-- Reads a configuration from named settings. -/
def ofSettings (lookup : String → Option String) : Configuration :=
  let setting := setting? lookup
  let model := (setting "EDN_EH_MODEL").map fun model =>
    String.ofList (model.toList.map Char.toLower)
  { wantsItanium := model == some "itanium"
    wantsSeh := model == some "seh"
    exceptionsEnabled := setting "EDN_ENABLE_EH" == some "1"
    panicUnwinds := setting "EDN_PANIC" == some "unwind"
    coroutines := setting "EDN_ENABLE_CORO" == some "1"
    targetTriple := setting "EDN_TARGET_TRIPLE" }

/-- Asks for exception models, and enables exceptions if there is one. -/
def withModels (configuration : Configuration) (itanium seh : Bool) :
    Configuration :=
  { configuration with
    wantsItanium := itanium
    wantsSeh := seh
    exceptionsEnabled := itanium || seh }

/-- Whether the target triple names a system that unwinds by funclets. -/
def targetsWindows (configuration : Configuration) : Bool :=
  match configuration.targetTriple with
  | some triple => hasPart triple "windows" || hasPart triple "msvc"
  | none => false

/-- The personality that is asked for.  Of two models, the target system
decides. -/
def requestedPersonality (configuration : Configuration) :
    Option Personality :=
  match configuration.wantsItanium, configuration.wantsSeh with
  | true, true =>
      some (if configuration.targetsWindows then .seh else .itanium)
  | true, false => some .itanium
  | false, true => some .seh
  | false, false => none

/-- The personality that bodies are emitted under. -/
def personality (configuration : Configuration) : Option Personality :=
  if configuration.exceptionsEnabled then configuration.requestedPersonality
  else none

end Configuration

end FormCompiler
