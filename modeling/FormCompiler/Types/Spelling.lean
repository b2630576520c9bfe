import FormCompiler.Types.Table
import FormCompiler.Text.Identifier

/-!
# Spelling of types

The text of a type in messages.  A pointer is its target followed by a star.
-/

namespace FormCompiler

/-- Characters of struct names that need no quotes. -/
def isStructNameChar (character : Char) : Bool :=
  character.isAlphanum || character == '-' || character == '$' ||
    character == '.' || character == '_'

/-- The parameters of a function type, with dots for further ones. -/
def parameterTexts (parameters : List String) (variadic : Bool) : String :=
  ", ".intercalate (if variadic then parameters ++ ["..."] else parameters)

/-- The fields of a struct between braces. -/
def fieldTexts (fields : List String) : String :=
  if fields.isEmpty then "\x7b\x7d"
  else "\x7b " ++ ", ".intercalate fields ++ " \x7d"

namespace TypeTable

/-- The spelling of a type that nests at most `depth` levels. -/
def spellWithin (table : TypeTable) : (depth : Nat) → TypeId → String
  | 0, _ => ""
  | depth + 1, type =>
      match table.kind type with
      | .void => "void"
      | .int bits => "i" ++ toString bits
      | .float => "float"
      | .double => "double"
      | .pointer pointee => table.spellWithin depth pointee ++ "*"
      | .array element length =>
          "[" ++ toString length ++ " x " ++
            table.spellWithin depth element ++ "]"
      | .struct fields => fieldTexts (fields.map (table.spellWithin depth))
      | .named name => "%" ++ identifierText isStructNameChar name
      | .function result parameters variadic =>
          table.spellWithin depth result ++ " (" ++
            parameterTexts (parameters.map (table.spellWithin depth))
              variadic ++ ")"
      | .label => "label"
      | .token => "token"

/-- The spelling of a type. -/
def spell (table : TypeTable) (type : TypeId) : String :=
  table.spellWithin (table.kinds.length + 1) type

end TypeTable

end FormCompiler
