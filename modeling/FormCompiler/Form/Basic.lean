import FormCompiler.Source.Position
import FormCompiler.Double.Basic

/-!
# Forms

A tree is an atom, a bracketed group of trees or a tagged tree, with a note
at every node.  A datum is a tree whose notes say nothing; a form is a tree
whose notes are metadata, a table from names to data.

A map is a group whose items alternate between keys and values.  Metadata
takes no part in comparing forms: two forms are equal when their data are.
-/

namespace FormCompiler

inductive Atom where
  | nil
  | bool (value : Bool)
  | int (value : Int64)
  | float (value : Double)
  | string (text : String)
  | keyword (name : String)
  | symbol (name : String)
deriving DecidableEq, Repr, Inhabited

inductive Bracket where
  | list
  | vector
  | set
  | map
deriving DecidableEq, Repr, Inhabited

inductive Tree (Note : Type) where
  | atom (note : Note) (value : Atom)
  | group (note : Note) (bracket : Bracket) (items : List (Tree Note))
  | tagged (note : Note) (tag : String) (value : Tree Note)
deriving Repr

/-- A tree that carries no notes. -/
abbrev Datum := Tree Unit

instance : Inhabited Datum := ⟨.atom () .nil⟩

/-- A table from names to data, in increasing order of the names. -/
structure Metadata where
  entries : List (String × Datum)
deriving Repr

/-- A tree with metadata at every node. -/
abbrev Form := Tree Metadata

def Atom.kindName : Atom → String
  | .nil => "nil"
  | .bool _ => "bool"
  | .int _ => "int"
  | .float _ => "float"
  | .string _ => "string"
  | .keyword _ => "keyword"
  | .symbol _ => "symbol"

def Bracket.kindName : Bracket → String
  | .list => "list"
  | .vector => "vector"
  | .set => "set"
  | .map => "map"

/-- Floats compare as numbers, everything else exactly. -/
def Atom.agrees : Atom → Atom → Bool
  | .float left, .float right => left.numericallyEqual right
  | left, right => left == right

namespace Tree

variable {Note : Type}

def note : Tree Note → Note
  | .atom note _ => note
  | .group note _ _ => note
  | .tagged note _ _ => note

/-- The same tree under another note at the root. -/
def withNote (tree : Tree Note) (note : Note) : Tree Note :=
  match tree with
  | .atom _ value => .atom note value
  | .group _ bracket items => .group note bracket items
  | .tagged _ tag value => .tagged note tag value

def kindName : Tree Note → String
  | .atom _ value => value.kindName
  | .group _ bracket _ => bracket.kindName
  | .tagged .. => "tagged"

def children : Tree Note → List (Tree Note)
  | .atom .. => []
  | .group _ _ items => items
  | .tagged _ _ value => [value]

def isAtom : Tree Note → Bool
  | .atom .. => true
  | _ => false

def isList : Tree Note → Bool
  | .group _ .list _ => true
  | _ => false

def symbol? : Tree Note → Option String
  | .atom _ (.symbol name) => some name
  | _ => none

def keyword? : Tree Note → Option String
  | .atom _ (.keyword name) => some name
  | _ => none

def string? : Tree Note → Option String
  | .atom _ (.string text) => some text
  | _ => none

def int? : Tree Note → Option Int64
  | .atom _ (.int value) => some value
  | _ => none

def float? : Tree Note → Option Double
  | .atom _ (.float value) => some value
  | _ => none

def bool? : Tree Note → Option Bool
  | .atom _ (.bool value) => some value
  | _ => none

def list? : Tree Note → Option (List (Tree Note))
  | .group _ .list items => some items
  | _ => none

def vector? : Tree Note → Option (List (Tree Note))
  | .group _ .vector items => some items
  | _ => none

/-- A name is written as a symbol or as a string. -/
def name? : Tree Note → Option String
  | .atom _ (.symbol name) => some name
  | .atom _ (.string text) => some text
  | _ => none

/-- The symbol that a list starts with. -/
def head? (tree : Tree Note) : Option String :=
  tree.list?.bind fun items => items.head?.bind symbol?

mutual

/-- Replaces every note. -/
def mapNotes {Other : Type} (change : Note → Other) : Tree Note → Tree Other
  | .atom note value => .atom (change note) value
  | .group note bracket items =>
      .group (change note) bracket (mapNotesList change items)
  | .tagged note tag value =>
      .tagged (change note) tag (mapNotes change value)

def mapNotesList {Other : Type} (change : Note → Other) :
    List (Tree Note) → List (Tree Other)
  | [] => []
  | item :: items => mapNotes change item :: mapNotesList change items

end

/-- The datum that a tree stands for. -/
def datum (tree : Tree Note) : Datum := tree.mapNotes fun _ => ()

mutual

/-- Equality of the data of two trees. -/
def agrees {Other : Type} : Tree Note → Tree Other → Bool
  | .atom _ left, .atom _ right => left.agrees right
  | .group _ leftBracket left, .group _ rightBracket right =>
      leftBracket == rightBracket && agreesList left right
  | .tagged _ leftTag left, .tagged _ rightTag right =>
      leftTag == rightTag && agrees left right
  | _, _ => false

/-- Elementwise equality of the data of two lists of trees. -/
def agreesList {Other : Type} : List (Tree Note) → List (Tree Other) → Bool
  | [], [] => true
  | left :: lefts, right :: rights =>
      agrees left right && agreesList lefts rights
  | _, _ => false

end

mutual

/-- The number of levels of a tree; an atom has one. -/
def height : Tree Note → Nat
  | .atom .. => 1
  | .group _ _ items => heightList items + 1
  | .tagged _ _ value => height value + 1

/-- The greatest height in a list of trees. -/
def heightList : List (Tree Note) → Nat
  | [] => 0
  | item :: items => max (height item) (heightList items)

end

end Tree

namespace Datum

def bool (value : Bool) : Datum := .atom () (.bool value)

def int (value : Int64) : Datum := .atom () (.int value)

def symbol (name : String) : Datum := .atom () (.symbol name)

def vector (items : List Datum) : Datum := .group () .vector items

end Datum

namespace Metadata

def empty : Metadata := ⟨[]⟩

instance : Inhabited Metadata := ⟨empty⟩

def get? (metadata : Metadata) (key : String) : Option Datum :=
  metadata.entries.lookup key

def contains (metadata : Metadata) (key : String) : Bool :=
  (metadata.get? key).isSome

/-- Inserts into entries kept in increasing order, replacing an entry of the
same name. -/
def insertEntry (key : String) (value : Datum) :
    List (String × Datum) → List (String × Datum)
  | [] => [(key, value)]
  | entry :: entries =>
      if key = entry.1 then (key, value) :: entries
      else if key < entry.1 then (key, value) :: entry :: entries
      else entry :: insertEntry key value entries

def insert (metadata : Metadata) (key : String) (value : Datum) : Metadata :=
  ⟨insertEntry key value metadata.entries⟩

def erase (metadata : Metadata) (key : String) : Metadata :=
  ⟨metadata.entries.filter fun entry => entry.1 ≠ key⟩

/-- The entry names that locate a form in its source text. -/
def positionKeys : List String := ["line", "col", "end-line", "end-col"]

/-- Records a source span. -/
def ofSpan (span : Span) : Metadata :=
  (((empty.insert "line" (.int (Int64.ofNat span.start.line))).insert
    "col" (.int (Int64.ofNat span.start.column))).insert
    "end-line" (.int (Int64.ofNat span.last.line))).insert
    "end-col" (.int (Int64.ofNat span.last.column))

/-- A recorded coordinate, taken modulo `2 ^ 32`. -/
def coordinate? (metadata : Metadata) (key : String) : Option Nat :=
  (metadata.get? key).bind fun value =>
    value.int?.map fun number => number.toUInt64.toUInt32.toNat

/-- The recorded source span: a start, and an end where both of its
coordinates are present. -/
def span? (metadata : Metadata) : Option Span :=
  match metadata.coordinate? "line", metadata.coordinate? "col" with
  | some line, some column =>
      let start : Position := ⟨line, column⟩
      match metadata.coordinate? "end-line", metadata.coordinate? "end-col" with
      | some lastLine, some lastColumn => some ⟨start, ⟨lastLine, lastColumn⟩⟩
      | _, _ => some (Span.point start)
  | _, _ => none

/-- The entries that locate a form, without any other. -/
def positionOnly (metadata : Metadata) : Metadata :=
  ⟨metadata.entries.filter fun entry => positionKeys.contains entry.1⟩

end Metadata

namespace Form

instance : Inhabited Form := ⟨.atom .empty .nil⟩

/-- A form without metadata. -/
def ofDatum (datum : Datum) : Form := datum.mapNotes fun _ => .empty

def bool (value : Bool) : Form := .atom .empty (.bool value)

def keyword (name : String) : Form := .atom .empty (.keyword name)

def symbol (name : String) : Form := .atom .empty (.symbol name)

def list (items : List Form) : Form := .group .empty .list items

def vector (items : List Form) : Form := .group .empty .vector items

/-- The source span recorded at the root. -/
def span? (form : Form) : Option Span := form.note.span?

/-- Sets a metadata entry at the root. -/
def annotate (form : Form) (key : String) (value : Datum) : Form :=
  form.withNote (form.note.insert key value)

/-- Removes a metadata entry at the root. -/
def unannotate (form : Form) (key : String) : Form :=
  form.withNote (form.note.erase key)

/-- `(head :key value ..)`. -/
def keywordCall (head : String) (arguments : List (String × Form)) : Form :=
  list (symbol head ::
    arguments.flatMap fun argument => [keyword argument.1, argument.2])

end Form

end FormCompiler
