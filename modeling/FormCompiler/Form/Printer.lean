import FormCompiler.Form.Basic
import FormCompiler.Double.Text

/-!
# Written forms

The canonical text of a tree: one space between neighbours, none inside the
brackets, and no notes.
-/

namespace FormCompiler

/-- The letter that follows a backslash in a string, for characters that are
not written as themselves. -/
def escapeLetter? : Char → Option Char
  | '"' => some '"'
  | '\\' => some '\\'
  | '\n' => some 'n'
  | '\r' => some 'r'
  | '\t' => some 't'
  | '\x00' => some '0'
  | _ => none

def escapeChar (character : Char) : List Char :=
  match escapeLetter? character with
  | some letter => ['\\', letter]
  | none => [character]

/-- A string between quotes. -/
def quotedChars (text : List Char) : List Char :=
  '"' :: text.flatMap escapeChar ++ ['"']

def Atom.chars : Atom → List Char
  | .nil => "nil".toList
  | .bool true => "true".toList
  | .bool false => "false".toList
  | .int value => (toString value.toInt).toList
  | .float value => value.text.toList
  | .string text => quotedChars text.toList
  | .keyword name => ':' :: name.toList
  | .symbol name => name.toList

def Bracket.openChars : Bracket → List Char
  | .list => ['(']
  | .vector => ['[']
  | .set => ['#', '\x7b']
  | .map => ['\x7b']

def Bracket.closeChar : Bracket → Char
  | .list => ')'
  | .vector => ']'
  | .set => '\x7d'
  | .map => '\x7d'

namespace Tree

variable {Note : Type}

mutual

def chars : Tree Note → List Char
  | .atom _ value => value.chars
  | .group _ bracket items =>
      bracket.openChars ++ charsList items ++ [bracket.closeChar]
  | .tagged _ tag value => '#' :: tag.toList ++ ' ' :: chars value

/-- Trees separated by one space. -/
def charsList : List (Tree Note) → List Char
  | [] => []
  | [item] => chars item
  | item :: items => chars item ++ ' ' :: charsList items

end

/-- The canonical text of a tree. -/
def text (tree : Tree Note) : String := String.ofList tree.chars

end Tree

end FormCompiler
