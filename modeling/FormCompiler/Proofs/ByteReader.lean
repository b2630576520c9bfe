import FormCompiler.Form.Reader

/-!
# Reading byte by byte

A reader of bytes looks at the next byte, or at the one behind it, and takes
bytes one at a time.  It goes down into a form where a bracket or a tag starts
one, and otherwise it loops: over blanks and comments, over the bytes of a
word, a number or a string, over the forms inside a bracket and over those of
a whole text.

A reading is given a number of turns.  No loop may take more turns than that,
and no form may nest deeper; a reading that would has no outcome.
-/

namespace FormCompiler

/-! ## Bytes -/

/-- A byte taken for a character of its own. -/
def byteChar (byte : UInt8) : Char := Char.ofNat byte.toNat

/-- Bytes of a character other than its first one. -/
def isContinuation (byte : UInt8) : Bool := byte &&& 0xC0 == 0x80

/-- The position after one more byte.  The bytes of a character share its
column. -/
def Position.afterByte (position : Position) (byte : UInt8) : Position :=
  if byteChar byte = '\n' then ⟨position.line + 1, 1⟩
  else if isContinuation byte then position
  else ⟨position.line, position.column + 1⟩

/-- Whether a character of three or four bytes can start with two bytes. -/
def startsLongChar (first second : UInt8) : Bool :=
  if first = 0xE0 then 0xA0 ≤ second && second ≤ 0xBF
  else if first = 0xED then 0x80 ≤ second && second ≤ 0x9F
  else if first = 0xF0 then 0x90 ≤ second && second ≤ 0xBF
  else if first = 0xF4 then 0x80 ≤ second && second ≤ 0x8F
  else 0xE1 ≤ first && first ≤ 0xF3 && isContinuation second

/-- How many bytes belong to a character that its first byte starts and that
is not finished. -/
def unfinishedLength (first : UInt8) : List UInt8 → Nat
  | [] => 0
  | [second] => if startsLongChar first second then 1 else 0
  | second :: third :: _ =>
      if startsLongChar first second then
        if 0xF0 ≤ first && isContinuation third then 2 else 1
      else 0

/-- The characters that bytes stand for.  Bytes that are no character count as
one replacement character for every character that they start. -/
def decodedChars : List UInt8 → List Char
  | [] => []
  | first :: rest =>
      match (first :: rest).toByteArray.utf8DecodeChar? 0 with
      | some character =>
          character :: decodedChars (rest.drop (character.utf8Size - 1))
      | none =>
          '\uFFFD' :: decodedChars (rest.drop (unfinishedLength first rest))
termination_by bytes => bytes.length
decreasing_by all_goals (simp only [List.length_cons, List.length_drop]; omega)

/-- The text that bytes stand for. -/
def decodedText (bytes : List UInt8) : String :=
  String.ofList (decodedChars bytes)

/-- The byte that an escaped byte stands for. -/
def unescapeByte (byte : UInt8) : UInt8 :=
  match byteChar byte with
  | 'n' => 10
  | 'r' => 13
  | 't' => 9
  | '0' => 0
  | _ => byte

/-! ## Readers and readings -/

/-- The bytes of a text, how many of them were taken, the position of the next
one, and the position of the last one that was taken. -/
structure ByteReader where
  source : List UInt8
  offset : Nat
  position : Position
  last : Position

/-- What a reader does: it comes to a result and goes on from where it stands
then, or to a fault, or it has no outcome. -/
abbrev Reading := StateT ByteReader (ExceptT ReadError Option)

/-- What a turn of a loop comes to. -/
inductive Turn (State Result : Type) where
  /-- The loop goes on. -/
  | again (state : State)
  /-- The loop is left. -/
  | leave (result : Result)

namespace Reading

variable {State Result : Type}

/-- A reading without an outcome. -/
def unfinished : Reading Result := fun _ => (none : Option _)

/-- Takes turns until one of them leaves the loop. -/
def loop (turn : State → Reading (Turn State Result)) :
    (turns : Nat) → State → Reading Result
  | 0, _ => unfinished
  | turns + 1, state => do
      match ← turn state with
      | .again state => loop turn turns state
      | .leave result => pure result

end Reading

namespace ByteReader

open Reading

/-- A reader at the start of a text. -/
def ofText (text : String) : ByteReader :=
  ⟨text.toByteArray.data.toList, 0, .origin, .origin⟩

def isAtEnd (reader : ByteReader) : Bool :=
  reader.source.length ≤ reader.offset

def next? (reader : ByteReader) : Option UInt8 :=
  reader.source[reader.offset]?

/-- The byte behind the next one. -/
def second? (reader : ByteReader) : Option UInt8 :=
  reader.source[reader.offset + 1]?

/-- The reader that has taken one more byte. -/
def after (reader : ByteReader) (byte : UInt8) : ByteReader where
  source := reader.source
  offset := reader.offset + 1
  position := reader.position.afterByte byte
  last := reader.position

/-- The text from an offset up to where the reader stands. -/
def textFrom (reader : ByteReader) (start : Nat) : String :=
  decodedText ((reader.source.drop start).take (reader.offset - start))

/-- What is wrong where the reader stands. -/
def unexpected (reader : ByteReader) : ReadError :=
  match reader.next? with
  | none => ⟨.unexpectedEnd, reader.position⟩
  | some byte => ⟨.unexpectedChar (byteChar byte), reader.position⟩

/-- Takes the next byte, if there is one. -/
def take? : Reading (Option UInt8) := do
  let reader ← get
  match reader.next? with
  | none => pure none
  | some byte =>
      set (reader.after byte)
      pure (some byte)

/-- Takes a byte that is there. -/
def take : Reading Unit := do
  let _ ← take?

/-! ## Blanks and words -/

/-- A turn inside a comment, which ends with its line. -/
def commentTurn (_ : Unit) : Reading (Turn Unit Unit) := do
  match ← take? with
  | none => pure (.leave ())
  | some byte =>
      if byteChar byte = '\n' then pure (.leave ()) else pure (.again ())

/-- A turn over blanks and comments. -/
def skipTurn (turns : Nat) (_ : Unit) : Reading (Turn Unit Unit) := do
  match (← get).next? with
  | none => pure (.leave ())
  | some byte =>
      if isBlank (byteChar byte) then
        take
        pure (.again ())
      else if byteChar byte = ';' then
        loop commentTurn turns ()
        pure (.again ())
      else pure (.leave ())

def skip (turns : Nat) : Reading Unit := loop (skipTurn turns) turns ()

/-- A turn over the bytes of a word. -/
def wordTurn (_ : Unit) : Reading (Turn Unit Unit) := do
  match (← get).next? with
  | none => pure (.leave ())
  | some byte =>
      if isWordChar (byteChar byte) then
        take
        pure (.again ())
      else pure (.leave ())

def takeWord (turns : Nat) : Reading String := do
  let start := (← get).offset
  loop wordTurn turns ()
  pure ((← get).textFrom start)

/-! ## Atoms -/

/-- An atom that was read since `start`. -/
def finish (start : Position) (make : Metadata → Form) : Reading Form := do
  pure (make (.ofSpan ⟨start, (← get).last⟩))

/-- A name that must not be empty. -/
def takeName (turns : Nat) : Reading String := do
  let name ← takeWord turns
  if name.isEmpty then throw (← get).unexpected else pure name

/-- A turn inside a string, with the contents so far, latest first. -/
def stringTurn (reversedContents : List UInt8) :
    Reading (Turn (List UInt8) (List UInt8)) := do
  match ← take? with
  | none => throw ⟨.unexpectedEnd, (← get).position⟩
  | some byte =>
      if byteChar byte = '"' then pure (.leave reversedContents.reverse)
      else if byteChar byte = '\\' then
        match ← take? with
        | none => throw ⟨.unexpectedEnd, (← get).position⟩
        | some escaped =>
            pure (.again (unescapeByte escaped :: reversedContents))
      else pure (.again (byte :: reversedContents))

def readString (turns : Nat) (start : Position) : Reading Form := do
  take
  let contents ← loop stringTurn turns []
  finish start (.atom · (.string (decodedText contents)))

def isSign (character : Char) : Bool := character == '+' || character == '-'

/-- A turn over the bytes of a number, with whether it is a float so far. A
sign behind an exponent mark is taken with the mark. -/
def numberTurn (isFloat : Bool) : Reading (Turn Bool Bool) := do
  let reader ← get
  match reader.next? with
  | none => pure (.leave isFloat)
  | some byte =>
      let character := byteChar byte
      if character.isDigit then
        take
        pure (.again isFloat)
      else if character = '.' then
        take
        pure (.again true)
      else if character = 'e' ∨ character = 'E' then
        if reader.second?.any fun byte => isSign (byteChar byte) then take
        take
        pure (.again true)
      else if isWordChar character then
        take
        pure (.again isFloat)
      else pure (.leave isFloat)

/-- The number that is written as a text. -/
def numberOf? (isFloat : Bool) (text : String) : Option Atom :=
  if isFloat then (Double.parse? text.toList).map .float
  else (parseInt64? text.toList).map .int

/-- The rest of a number whose text starts at an offset. -/
def numberRest (turns offset : Nat) (start : Position) : Reading Form := do
  let isFloat ← loop numberTurn turns false
  let text := (← get).textFrom offset
  match numberOf? isFloat text with
  | none => throw ⟨.invalidNumber text, start⟩
  | some number => finish start (.atom · number)

def readNumber (turns : Nat) (start : Position) : Reading Form := do
  let reader ← get
  if reader.next?.any fun byte => isSign (byteChar byte) then take
  numberRest turns reader.offset start

/-- The atom that a name stands for. -/
def atomOfName (name : String) : Atom :=
  match name with
  | "nil" => .nil
  | "true" => .bool true
  | "false" => .bool false
  | name => .symbol name

/-- Whether a number starts with a character, given the byte behind it. -/
def startsNumber (character : Char) (second? : Option UInt8) : Bool :=
  character.isDigit ||
    isSign character && second?.any fun byte => (byteChar byte).isDigit

/-- A number or a name, whichever starts with a character. -/
def readWord (turns : Nat) (start : Position) (character : Char) :
    Reading Form := do
  let reader ← get
  if startsNumber character reader.second? then readNumber turns start
  else if isSymbolStart character then
    let name ← takeWord turns
    finish start (.atom · (atomOfName name))
  else throw reader.unexpected

/-! ## Forms -/

/-- A turn over the forms inside a bracket, with those read so far, latest
first. -/
def itemsTurn (form : Reading Form) (turns : Nat) (close : Char)
    (reversedItems : List Form) :
    Reading (Turn (List Form) (List Form)) := do
  skip turns
  let reader ← get
  match reader.next? with
  | none => throw ⟨.unexpectedEnd, reader.position⟩
  | some byte =>
      if byteChar byte = close then
        take
        pure (.leave reversedItems.reverse)
      else pure (.again ((← form) :: reversedItems))

/-- The rest of a group, behind its opening bracket. -/
def readGroup (form : Reading Form) (turns : Nat) (bracket : Bracket)
    (start : Position) : Reading Form := do
  let items ← loop (itemsTurn form turns bracket.closeChar) turns []
  if bracket = .map ∧ items.length % 2 ≠ 0 then
    throw ⟨.oddMapEntries, start⟩
  else finish start (.group · bracket items)

/-- A set or a tagged form. -/
def readDispatch (form : Reading Form) (turns : Nat) (start : Position) :
    Reading Form := do
  take
  if (← get).next?.map byteChar = some '\x7b' then
    take
    readGroup form turns .set start
  else
    let tag ← takeName turns
    let value ← form
    finish start (.tagged · tag value)

/-- The form whose first byte is next; `form` reads those inside. -/
def readFrom (form : Reading Form) (turns : Nat) (byte : UInt8) :
    Reading Form := do
  let start := (← get).position
  match byteChar byte with
  | '(' =>
      take
      readGroup form turns .list start
  | '[' =>
      take
      readGroup form turns .vector start
  | '\x7b' =>
      take
      readGroup form turns .map start
  | '#' => readDispatch form turns start
  | ')' => throw ⟨.unmatchedClose ')', start⟩
  | ']' => throw ⟨.unmatchedClose ']', start⟩
  | '\x7d' => throw ⟨.unmatchedClose '\x7d', start⟩
  | '"' => readString turns start
  | ':' =>
      take
      let name ← takeName turns
      finish start (.atom · (.keyword name))
  | character => readWord turns start character

/-- The next form. -/
def readForm : (turns : Nat) → Reading Form
  | 0 => unfinished
  | turns + 1 => do
      skip (turns + 1)
      let reader ← get
      match reader.next? with
      | none => throw ⟨.unexpectedEnd, reader.position⟩
      | some byte => readFrom (readForm turns) (turns + 1) byte

/-! ## Texts -/

/-- A turn over the forms of a text, with those read so far, latest first. -/
def formsTurn (turns : Nat) (reversedForms : List Form) :
    Reading (Turn (List Form) (List Form)) := do
  skip turns
  if (← get).isAtEnd then pure (.leave reversedForms.reverse)
  else pure (.again ((← readForm turns) :: reversedForms))

/-- Every form of a text. -/
def readAll (turns : Nat) : Reading (List Form) :=
  loop (formsTurn turns) turns []

/-- The first form of a text. -/
def readFirst (turns : Nat) : Reading Form := do
  skip turns
  let reader ← get
  if reader.isAtEnd then throw ⟨.empty, reader.position⟩
  else readForm turns

/-- What a reading of a whole text comes to. -/
def outcome {Result : Type} (reading : Reading Result) (text : String) :
    Option (Except ReadError Result) :=
  Option.map (Except.map Prod.fst) (reading (ofText text))

end ByteReader

end FormCompiler
