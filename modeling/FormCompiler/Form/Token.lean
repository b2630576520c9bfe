import FormCompiler.Form.Printer

/-!
# Tokens of source text

A token is an opening or closing bracket, a whole atom, or a tag.  Words
(symbols, numbers, keywords and tags) are the longest runs of word
characters.  Blanks are spaces, tabs, line ends, carriage returns and commas,
and a semicolon starts a comment that runs to the end of its line.

`scan` splits a whole text.  It keeps every token before the first fault, so
a reader that stops early never sees a fault behind the place where it
stopped.
-/

namespace FormCompiler

/-- Why source text could not be read. -/
inductive ReadFault where
  | unexpectedEnd
  | unexpectedChar (character : Char)
  | unmatchedClose (character : Char)
  | oddMapEntries
  | invalidNumber (text : String)
  | empty
deriving DecidableEq, Repr

structure ReadError where
  fault : ReadFault
  position : Position
deriving DecidableEq, Repr

/-- What went wrong, without the place. -/
def ReadFault.summary : ReadFault → String
  | .unexpectedEnd => "unexpected end of input"
  | .unexpectedChar character => s!"unexpected character `{character}`"
  | .unmatchedClose character => s!"unmatched closing `{character}`"
  | .oddMapEntries => "map literal needs an even number of forms"
  | .invalidNumber text => s!"invalid number `{text}`"
  | .empty => "no form found"

def ReadError.message (error : ReadError) : String :=
  error.position.text ++ ": " ++ error.fault.summary

inductive Token where
  | opening (bracket : Bracket)
  | closing (character : Char)
  | atom (value : Atom)
  | tag (name : String)
deriving DecidableEq, Repr

structure SpannedToken where
  token : Token
  span : Span
deriving DecidableEq, Repr

/-- The tokens of a text, and either the position of its end or the fault
that ends the tokens. -/
structure Scan where
  tokens : List SpannedToken
  ending : Except ReadError Position

def isBlank (character : Char) : Bool :=
  character == ' ' || character == '\t' || character == '\n' ||
    character == '\r' || character == ','

/-- Characters of symbols, keywords, tags and numbers. -/
def isWordChar (character : Char) : Bool :=
  character.isAlphanum || "*!_?-+/<>=$%&.#".toList.contains character ||
    128 ≤ character.toNat

/-- Characters that start a symbol. -/
def isSymbolStart (character : Char) : Bool :=
  isWordChar character && character != '.' && character != '#' &&
    !character.isDigit

/-- The character that an escaped letter stands for. -/
def unescapeChar : Char → Char
  | 'n' => '\n'
  | 'r' => '\r'
  | 't' => '\t'
  | '0' => '\x00'
  | character => character

/-- The contents of a string after its opening quote, and the number of
characters up to and including the closing quote. -/
def stringContents? : List Char → Option (List Char × Nat)
  | [] => none
  | '"' :: _ => some ([], 1)
  | ['\\'] => none
  | '\\' :: escaped :: rest =>
      (stringContents? rest).map fun (contents, length) =>
        (unescapeChar escaped :: contents, length + 2)
  | character :: rest =>
      (stringContents? rest).map fun (contents, length) =>
        (character :: contents, length + 1)

/-- Whether a word is a number: it starts with a digit, perhaps after a
sign. -/
def isNumberWord : List Char → Bool
  | first :: second :: _ =>
      first.isDigit || ((first == '+' || first == '-') && second.isDigit)
  | [first] => first.isDigit
  | [] => false

/-- A number with a point or an exponent mark is a float, any other is an
integer. -/
def numberAtom? (word : List Char) : Option Atom :=
  if word.any fun character =>
      character == '.' || character == 'e' || character == 'E' then
    (Double.parse? word).map .float
  else (parseInt64? word).map .int

/-- The atom that a word stands for. -/
def wordAtom (word : List Char) : Except ReadFault Atom :=
  if isNumberWord word then
    match numberAtom? word with
    | some atom => .ok atom
    | none => .error (.invalidNumber (String.ofList word))
  else
    match String.ofList word with
    | "nil" => .ok .nil
    | "true" => .ok (.bool true)
    | "false" => .ok (.bool false)
    | name => .ok (.symbol name)

/-- A token at the start of a text: what it is, and how many characters
follow its first one. -/
structure Lexeme where
  token : Token
  restLength : Nat
deriving DecidableEq, Repr

/-- A fault at the start of a text, and how many characters stand before the
place where it shows. -/
structure LexicalFault where
  fault : ReadFault
  offset : Nat
deriving DecidableEq, Repr

/-- What stands where a word was wanted. -/
def unexpectedAt (offset : Nat) : List Char → LexicalFault
  | [] => ⟨.unexpectedEnd, offset⟩
  | character :: _ => ⟨.unexpectedChar character, offset⟩

/-- The name after a colon or a hash mark, which must not be empty. -/
def namedLexeme (make : String → Token) (rest : List Char) :
    Except LexicalFault Lexeme :=
  let word := rest.takeWhile isWordChar
  if word.isEmpty then .error (unexpectedAt 1 rest)
  else .ok ⟨make (String.ofList word), word.length⟩

/-- The token that starts with `first`, which is not a blank. -/
def lexeme (first : Char) (rest : List Char) : Except LexicalFault Lexeme :=
  match first with
  | '(' => .ok ⟨.opening .list, 0⟩
  | '[' => .ok ⟨.opening .vector, 0⟩
  | '\x7b' => .ok ⟨.opening .map, 0⟩
  | ')' => .ok ⟨.closing ')', 0⟩
  | ']' => .ok ⟨.closing ']', 0⟩
  | '\x7d' => .ok ⟨.closing '\x7d', 0⟩
  | '#' =>
      match rest with
      | '\x7b' :: _ => .ok ⟨.opening .set, 1⟩
      | _ => namedLexeme .tag rest
  | ':' => namedLexeme (fun name => .atom (.keyword name)) rest
  | '"' =>
      match stringContents? rest with
      | some (contents, length) =>
          .ok ⟨.atom (.string (String.ofList contents)), length⟩
      | none => .error ⟨.unexpectedEnd, rest.length + 1⟩
  | _ =>
      let word := first :: rest.takeWhile isWordChar
      if isSymbolStart first || first.isDigit then
        match wordAtom word with
        | .ok atom => .ok ⟨.atom atom, word.length - 1⟩
        | .error fault => .error ⟨fault, 0⟩
      else .error ⟨.unexpectedChar first, 0⟩

/-- The recorded end of a token with the given text.  A token that ends in a
character outside ASCII records the column after it. -/
def lastPosition (start : Position) (text : List Char) : Position :=
  let before := start.advance text.dropLast
  match text.getLast? with
  | some character =>
      if character.toNat < 128 then before
      else ⟨before.line, before.column + 1⟩
  | none => start

/-- Splits a text that starts at `position`. -/
def scanFrom (position : Position) (characters : List Char) : Scan :=
  match characters with
  | [] => ⟨[], .ok position⟩
  | first :: rest =>
      if isBlank first then scanFrom (position.after first) rest
      else if first = ';' then
        let comment := rest.takeWhile (· ≠ '\n')
        scanFrom ((position.after first).advance comment)
          (rest.drop comment.length)
      else
        match lexeme first rest with
        | .error fault =>
            ⟨[], .error ⟨fault.fault,
              position.advance (characters.take fault.offset)⟩⟩
        | .ok lexeme =>
            let text := first :: rest.take lexeme.restLength
            let remaining := scanFrom (position.advance text)
              (rest.drop lexeme.restLength)
            ⟨⟨lexeme.token, position, lastPosition position text⟩ ::
              remaining.tokens, remaining.ending⟩
termination_by characters.length
decreasing_by all_goals (simp only [List.length_cons, List.length_drop]; omega)

/-- Splits a whole text. -/
def scan (source : String) : Scan := scanFrom .origin source.toList

end FormCompiler
