import FormCompiler.Text.Lines

/-!
# Positions in source text

Lines and columns count from one, and a column counts characters.  A span
records the position of its first character and of its last one, so a
one-character span has equal ends.
-/

namespace FormCompiler

structure Position where
  line : Nat
  column : Nat
deriving DecidableEq, Repr, Inhabited

namespace Position

def origin : Position := ⟨1, 1⟩

/-- The position after one more character. -/
def after (position : Position) (character : Char) : Position :=
  if character = '\n' then ⟨position.line + 1, 1⟩
  else ⟨position.line, position.column + 1⟩

/-- The position after a run of characters. -/
def advance (position : Position) (characters : List Char) : Position :=
  characters.foldl after position

def text (position : Position) : String :=
  toString position.line ++ ":" ++ toString position.column

@[simp] theorem advance_nil (position : Position) :
    position.advance [] = position := rfl

@[simp] theorem advance_cons (position : Position) (character : Char)
    (characters : List Char) :
    position.advance (character :: characters) =
      (position.after character).advance characters := rfl

theorem advance_append (position : Position) (left right : List Char) :
    position.advance (left ++ right) =
      (position.advance left).advance right := by
  simp [advance, List.foldl_append]

end Position

structure Span where
  start : Position
  last : Position
deriving DecidableEq, Repr, Inhabited

namespace Span

def point (position : Position) : Span := ⟨position, position⟩

/-- A span is named by where it starts. -/
def text (span : Span) : String := span.start.text

end Span

/-- Characters before a position in the given lines, the first of which has
number `number`.  A column past the end of its line stops there, and a line
past the end of the text stops at the end of the text. -/
def offsetInLines (position : Position) :
    (number : Nat) → List (List Char) → Nat
  | _, [] => 0
  | number, line :: lines =>
      if number = position.line then
        min (position.column - 1) line.length
      else
        line.length + offsetInLines position (number + 1) lines

/-- The number of characters of `source` before `position`. -/
def charOffset (source : String) (position : Position) : Nat :=
  offsetInLines position 1 (sourceLines source.toList)

/-- The half-open range of character offsets that a span covers.  It always
holds at least one character. -/
def charRange (source : String) (span : Span) : Nat × Nat :=
  let start := charOffset source span.start
  (start, max (charOffset source span.last + 1) (start + 1))

end FormCompiler
