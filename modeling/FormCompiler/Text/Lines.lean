/-!
# Lines

A line ends in a line feed, or in a carriage return and a line feed; a
carriage return elsewhere is a character like any other.
-/

namespace FormCompiler

/-- The lines of a text, each with its line end.  Nothing follows a final
line end. -/
def sourceLines : List Char → List (List Char)
  | [] => []
  | character :: rest =>
      if character = '\n' then [character] :: sourceLines rest
      else
        match sourceLines rest with
        | [] => [[character]]
        | line :: lines => (character :: line) :: lines

/-- A line without its line end. -/
def withoutLineEnd : List Char → List Char
  | [] => []
  | ['\n'] => []
  | ['\r', '\n'] => []
  | character :: rest => character :: withoutLineEnd rest

/-- The lines of a text without their line ends. -/
def textLines (text : String) : List String :=
  (sourceLines text.toList).map fun line => String.ofList (withoutLineEnd line)

end FormCompiler
