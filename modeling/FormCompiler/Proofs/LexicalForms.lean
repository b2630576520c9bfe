import FormCompiler.Form.Reader
import FormCompiler.Proofs.DoubleText

/-!
# Lexically well-formed trees

Which trees can be told from their text: names must be made of word
characters, symbols must not look like something else, floats must be finite
and the items of a map must come in pairs.

A printed tree is split into the tokens that its constructors stand for,
whatever follows it, as long as no word character does.  A float that is not
finite is the one atom whose token is another atom: it is read as a symbol.
-/

namespace FormCompiler

/-- A run of word characters. -/
def isName (name : String) : Bool :=
  !name.toList.isEmpty && name.toList.all isWordChar

/-- A name that neither starts like a number, a set or a tag nor stands for
a constant. -/
def isSymbolName (name : String) : Bool :=
  isName name && !(["nil", "true", "false"].contains name) &&
    match name.toList with
    | [] => false
    | first :: rest =>
        !first.isDigit && first != '.' && first != '#' &&
          !((first == '+' || first == '-') && rest.head?.any Char.isDigit)

/-- Atoms whose names are those that a reader gives. -/
def Atom.isNamed : Atom → Bool
  | .keyword name => isName name
  | .symbol name => isSymbolName name
  | _ => true

/-- Atoms that are read back from their text. -/
def Atom.isLexical : Atom → Bool
  | .float value => value.isFinite
  | atom => atom.isNamed

namespace Tree

variable {Note : Type}

mutual

/-- Trees with accepted atoms, tags that are names, and paired maps. -/
def isBuiltFrom (accepts : Atom → Bool) : Tree Note → Bool
  | .atom _ value => accepts value
  | .group _ bracket items =>
      isBuiltFromList accepts items &&
        (bracket != .map || items.length % 2 == 0)
  | .tagged _ tag value => isName tag && isBuiltFrom accepts value

def isBuiltFromList (accepts : Atom → Bool) : List (Tree Note) → Bool
  | [] => true
  | item :: items =>
      isBuiltFrom accepts item && isBuiltFromList accepts items

end

/-- Trees that are read back from their text. -/
def isLexical (tree : Tree Note) : Bool := tree.isBuiltFrom Atom.isLexical

end Tree

/-! ## Characters -/

/-- A text that no word can run into. -/
def Delimited (rest : List Char) : Prop :=
  rest.takeWhile isWordChar = []

theorem delimited_cons {character : Char} {rest : List Char}
    (outside : isWordChar character = false) :
    Delimited (character :: rest) := by
  simp [Delimited, outside]

theorem takeWhile_word {word rest : List Char}
    (inside : word.all isWordChar = true) (delimited : Delimited rest) :
    (word ++ rest).takeWhile isWordChar = word := by
  rw [List.all_eq_true] at inside
  rw [List.takeWhile_append_of_pos inside, delimited, List.append_nil]

theorem isWordChar_of_isDigit {character : Char}
    (digit : character.isDigit = true) : isWordChar character = true := by
  simp [isWordChar, Char.isAlphanum, digit]

/-- Word characters are neither blanks nor the start of a comment. -/
theorem not_skipped_of_isWordChar {character : Char}
    (inside : isWordChar character = true) :
    isBlank character = false ∧ character ≠ ';' := by
  constructor
  · by_contra blank
    simp only [isBlank, Bool.not_eq_false, Bool.or_eq_true,
      beq_iff_eq] at blank
    rcases blank with (((rfl | rfl) | rfl) | rfl) | rfl <;>
      exact absurd inside (by decide)
  · rintro rfl
    exact absurd inside (by decide)

/-! ## Words -/

/-- The token of a word is found by the word alone. -/
theorem lexeme_word {first : Char} {more rest : List Char}
    (starts : (isSymbolStart first || first.isDigit) = true)
    (inside : more.all isWordChar = true) (delimited : Delimited rest)
    {atom : Atom} (read : wordAtom (first :: more) = .ok atom) :
    lexeme first (more ++ rest) = .ok ⟨.atom atom, more.length⟩ := by
  unfold lexeme
  rw [takeWhile_word inside delimited]
  split
  all_goals try exact absurd starts (by decide)
  simp only [starts, if_true, read, List.length_cons, Nat.add_sub_cancel]

theorem lexeme_keyword {name : String} {rest : List Char}
    (named : isName name = true) (delimited : Delimited rest) :
    lexeme ':' (name.toList ++ rest) =
      .ok ⟨.atom (.keyword name), name.toList.length⟩ := by
  rw [isName, Bool.and_eq_true] at named
  unfold lexeme
  simp only [namedLexeme]
  rw [takeWhile_word named.2 delimited, if_neg (by simpa using named.1),
    String.ofList_toList]

theorem lexeme_tag {tag : String} {rest : List Char}
    (named : isName tag = true) (delimited : Delimited rest) :
    lexeme '#' (tag.toList ++ rest) = .ok ⟨.tag tag, tag.toList.length⟩ := by
  rw [isName, Bool.and_eq_true] at named
  unfold lexeme
  simp only [namedLexeme]
  rw [takeWhile_word named.2 delimited, if_neg (by simpa using named.1),
    String.ofList_toList]
  split
  · next rest same =>
      exfalso
      cases chars : tag.toList with
      | nil => simp [chars] at named
      | cons first more =>
          rw [chars, List.cons_append] at same
          obtain ⟨rfl, -⟩ := List.cons.inj same
          have brace := named.2
          rw [chars, List.all_cons] at brace
          simp [show isWordChar '\x7b' = false by decide] at brace
  · rfl

/-! ## Atoms -/

/-- The atom that the text of an atom is read as. -/
def Atom.reread : Atom → Atom
  | .float value =>
      if value.isFinite then .float value else .symbol value.text
  | atom => atom

/-- A text starts with one token for an atom, whatever follows it. -/
def LexesAs (chars : List Char) (atom : Atom) : Prop :=
  ∃ first more, chars = first :: more ∧
    isBlank first = false ∧ first ≠ ';' ∧
    ∀ rest, Delimited rest →
      lexeme first (more ++ rest) = .ok ⟨.atom atom, more.length⟩

/-- Words are single tokens. -/
theorem lexesAs_of_word {word : List Char} {atom : Atom}
    (starts : word.head?.any fun first =>
      isSymbolStart first || first.isDigit)
    (inside : word.all isWordChar = true)
    (read : wordAtom word = .ok atom) : LexesAs word atom := by
  cases word with
  | nil => simp at starts
  | cons first more =>
      rw [List.all_cons, Bool.and_eq_true] at inside
      obtain ⟨blank, comment⟩ := not_skipped_of_isWordChar inside.1
      refine ⟨first, more, rfl, blank, comment, ?_⟩
      intro rest delimited
      exact lexeme_word starts inside.2 delimited read

private theorem isNumberWord_of_isDigit {first : Char} {rest : List Char}
    (digit : first.isDigit = true) : isNumberWord (first :: rest) = true := by
  cases rest <;> simp [isNumberWord, digit]

/-- A sign and digits make a number. -/
private theorem isNumberWord_signed {negative : Bool} {first : Char}
    {rest : List Char} (digit : first.isDigit = true) :
    isNumberWord ((if negative then ['-'] else []) ++ first :: rest) =
      true := by
  cases negative with
  | false => exact isNumberWord_of_isDigit digit
  | true => simp [isNumberWord, digit]

/-- Numbers are read from words that start with a digit, perhaps after a
minus sign. -/
private theorem lexesAs_of_number {negative : Bool} {first : Char}
    {rest : List Char} {atom : Atom} (digit : first.isDigit = true)
    (inside : rest.all isWordChar = true)
    (read : numberAtom? ((if negative then ['-'] else []) ++ first :: rest) =
      some atom) :
    LexesAs ((if negative then ['-'] else []) ++ first :: rest) atom := by
  apply lexesAs_of_word
  · cases negative with
    | false => simp [digit]
    | true => simp [show isSymbolStart '-' = true by decide]
  · have firstInside := isWordChar_of_isDigit digit
    cases negative with
    | false => simp [firstInside, inside]
    | true => simp [firstInside, inside, show isWordChar '-' = true by decide]
  · rw [wordAtom, if_pos (isNumberWord_signed digit), read]

private theorem not_mark_of_isDigit {character : Char}
    (digit : character.isDigit = true) :
    character ≠ '.' ∧ character ≠ 'e' ∧ character ≠ 'E' := by
  refine ⟨?_, ?_, ?_⟩ <;> rintro rfl <;> exact absurd digit (by decide)

theorem lexesAs_int (value : Int64) :
    LexesAs (toString value.toInt).toList (.int value) := by
  have parsed := parseInt64?_toString value
  have signed : (toString value.toInt).toList =
      (if decide (value.toInt < 0) = true then ['-'] else []) ++
        Nat.toDigits 10 value.toInt.natAbs := by
    rw [toString_int_toList]
    by_cases negative : value.toInt < 0
    · have same : (-value.toInt).toNat = value.toInt.natAbs := by omega
      simp [negative, not_le.mpr negative, same]
    · have same : value.toInt.toNat = value.toInt.natAbs := by omega
      simp [negative, not_lt.mp negative, same]
  rw [signed] at parsed ⊢
  have allDigits := fun character =>
    @isDigit_of_mem_toDigits value.toInt.natAbs character
  cases digits : Nat.toDigits 10 value.toInt.natAbs with
  | nil => exact absurd digits Nat.toDigits_ne_nil
  | cons first rest =>
      rw [digits] at parsed allDigits
      apply lexesAs_of_number (allDigits first (by simp))
      · rw [List.all_eq_true]
        intro character member
        exact isWordChar_of_isDigit
          (allDigits character (List.mem_cons_of_mem _ member))
      · rw [numberAtom?, if_neg, parsed, Option.map_some]
        rw [Bool.not_eq_true, List.any_eq_false]
        intro character member
        rw [List.mem_append] at member
        rcases member with sign | digit
        · split at sign <;> simp at sign
          subst sign
          decide
        · have := not_mark_of_isDigit (allDigits character digit)
          simp [this]

/-- Numerals are words with a mark that integers do not have. -/
theorem Numeral.IsFloat.chars_spec {numeral : Numeral}
    (float : numeral.IsFloat) :
    numeral.chars.all isWordChar = true ∧
      (numeral.chars.any fun character =>
        character == '.' || character == 'e' || character == 'E') = true := by
  have digitInside : ∀ digits : List Char,
      (∀ character ∈ digits, character.isDigit = true) →
      digits.all isWordChar = true := by
    intro digits allDigits
    rw [List.all_eq_true]
    intro character member
    exact isWordChar_of_isDigit (allDigits character member)
  have integerInside (exponent : Int) :
      (toString exponent).toList.all isWordChar = true := by
    have digits (number : Nat) := digitInside (Nat.toDigits 10 number)
      fun _ => isDigit_of_mem_toDigits
    rw [toString_int_toList]
    split
    · exact digits _
    · rw [List.all_cons, digits]
      decide
  obtain ⟨whole, fraction, exponent⟩ := numeral
  have wholeInside := digitInside _ float.wholeDigits
  have fractionInside :
      (fraction.elim [] ('.' :: ·)).all isWordChar = true := by
    cases fraction with
    | none => rfl
    | some digits =>
        rw [Option.elim_some, List.all_cons,
          digitInside digits float.fractionDigits]
        decide
  have exponentInside : (exponent.elim [] fun exponent =>
      'e' :: (toString exponent).toList).all isWordChar = true := by
    cases exponent with
    | none => rfl
    | some exponent =>
        rw [Option.elim_some, List.all_cons, integerInside]
        decide
  unfold Numeral.chars
  constructor
  · rw [List.all_append, List.all_append, wholeInside, fractionInside,
      exponentInside]
    rfl
  · rw [List.any_append, List.any_append]
    rcases float.marked with point | mark
    · obtain ⟨digits, rfl⟩ := Option.isSome_iff_exists.mp point
      simp
    · obtain ⟨power, rfl⟩ := Option.isSome_iff_exists.mp mark
      simp

theorem lexesAs_finite {value : Double} (finite : value.isFinite = true) :
    LexesAs value.text.toList (.float value) := by
  have parsed := Double.parse?_text finite
  obtain ⟨numeral, float, written, -⟩ := Double.text_eq_numeral finite
  obtain ⟨inside, marked⟩ := float.chars_spec
  obtain ⟨first, rest, chars, digit⟩ := float.exists_cons
  rw [written, Double.signChars, chars] at parsed ⊢
  rw [chars] at inside marked
  rw [List.all_cons, Bool.and_eq_true] at inside
  apply lexesAs_of_number digit inside.2
  rw [numberAtom?, if_pos, parsed, Option.map_some]
  rw [List.any_append, marked, Bool.or_true]

/-- An infinity or a NaN is written like a symbol. -/
theorem lexesAs_notFinite {value : Double} (notFinite : value.isFinite = false) :
    LexesAs value.text.toList (.symbol value.text) := by
  have spelled : value.text = "NaN" ∨ value.text = "inf" ∨
      value.text = "-inf" := by
    unfold Double.text
    cases nan : value.isNan with
    | true => exact .inl rfl
    | false =>
        have infinite : value.isInfinite = true := by
          simp only [Double.isNan, Double.isInfinite, Double.isFinite,
            UInt64.lt_iff_toNat_lt, decide_eq_false_iff_not,
            beq_iff_eq] at *
          exact UInt64.toNat_inj.mp (by omega)
        rw [infinite]
        cases value.isNegative with
        | true => exact .inr (.inr rfl)
        | false => exact .inr (.inl rfl)
  rcases spelled with same | same | same
  all_goals
    rw [same]
    exact lexesAs_of_word (by decide) (by decide) (by rfl)

private theorem isNumberWord_eq_false {first : Char} {rest : List Char}
    (notDigit : first.isDigit = false)
    (notSigned : ((first == '+' || first == '-') &&
      rest.head?.any Char.isDigit) = false) :
    isNumberWord (first :: rest) = false := by
  cases rest with
  | nil => simpa [isNumberWord] using notDigit
  | cons second rest =>
      simp only [List.head?_cons, Option.any_some] at notSigned
      simp only [isNumberWord, notDigit, notSigned, Bool.or_self]

theorem lexesAs_symbol {name : String} (named : isSymbolName name = true) :
    LexesAs name.toList (.symbol name) := by
  simp only [isSymbolName, isName, Bool.and_eq_true] at named
  obtain ⟨⟨⟨-, inside⟩, notConstant⟩, shape⟩ := named
  have constants : name ≠ "nil" ∧ name ≠ "true" ∧ name ≠ "false" := by
    simpa using notConstant
  cases chars : name.toList with
  | nil => simp [chars] at shape
  | cons first rest =>
      simp only [chars, Bool.and_eq_true, Bool.not_eq_true',
        bne_iff_ne] at shape inside
      obtain ⟨⟨⟨notDigit, notPoint⟩, notHash⟩, notSigned⟩ := shape
      apply lexesAs_of_word
      · rw [List.all_cons, Bool.and_eq_true] at inside
        simp [isSymbolStart, inside.1, notPoint, notHash, notDigit]
      · exact inside
      · have spelled : String.ofList (first :: rest) = name := by
          rw [← chars, String.ofList_toList]
        rw [wordAtom, isNumberWord_eq_false notDigit notSigned, spelled]
        simp only [Bool.false_eq_true, if_false]
        split
        · exact absurd rfl constants.1
        · exact absurd rfl constants.2.1
        · exact absurd rfl constants.2.2
        · rfl

/-! ## Strings -/

/-- A character is written as an escape that stands for it, or as itself
where it ends no string and starts no escape. -/
theorem escapeChar_spec (character : Char) :
    (∃ letter, escapeChar character = ['\\', letter] ∧
      unescapeChar letter = character) ∨
    (escapeChar character = [character] ∧ character ≠ '"' ∧
      character ≠ '\\') := by
  unfold escapeChar escapeLetter?
  split
  · next letter found =>
      left
      refine ⟨letter, rfl, ?_⟩
      split at found <;> cases found <;> rfl
  · next missing =>
      right
      split at missing <;> simp_all

/-- Undoing the escapes of a text gives the text, up to the closing quote. -/
theorem stringContents?_escaped (text rest : List Char) :
    stringContents? (text.flatMap escapeChar ++ '"' :: rest) =
      some (text, (text.flatMap escapeChar).length + 1) := by
  induction text with
  | nil => rfl
  | cons character text ih =>
      rw [List.flatMap_cons, List.append_assoc]
      rcases escapeChar_spec character with
        ⟨letter, written, meaning⟩ | ⟨written, notQuote, notEscape⟩
      · rw [written, List.cons_append, List.cons_append, List.nil_append,
          stringContents?, ih, Option.map_some, meaning]
        simp
      · rw [written, List.cons_append, List.nil_append, stringContents?, ih,
          Option.map_some]
        · simp
        all_goals simp [notQuote, notEscape]

theorem lexesAs_string (text : String) :
    LexesAs (quotedChars text.toList) (.string text) := by
  refine ⟨'"', text.toList.flatMap escapeChar ++ ['"'], rfl, by decide,
    by decide, ?_⟩
  intro rest _
  unfold lexeme
  simp only [List.append_assoc, List.cons_append, List.nil_append,
    stringContents?_escaped, String.ofList_toList, List.length_append,
    List.length_cons, List.length_nil]

/-- The text of an atom with an admissible name is one token. -/
theorem lexesAs_atom {atom : Atom} (named : atom.isNamed = true) :
    LexesAs atom.chars atom.reread := by
  cases atom with
  | nil => exact lexesAs_of_word (by decide) (by decide) (by rfl)
  | bool value =>
      cases value with
      | true => exact lexesAs_of_word (by decide) (by decide) (by rfl)
      | false => exact lexesAs_of_word (by decide) (by decide) (by rfl)
  | int value => exact lexesAs_int value
  | float value =>
      cases finite : value.isFinite with
      | true =>
          rw [Atom.reread, if_pos finite]
          exact lexesAs_finite finite
      | false =>
          rw [Atom.reread, finite]
          exact lexesAs_notFinite finite
  | string text => exact lexesAs_string text
  | keyword name =>
      refine ⟨':', name.toList, rfl, by decide, by decide, ?_⟩
      intro rest delimited
      exact lexeme_keyword named delimited
  | symbol name => exact lexesAs_symbol named

end FormCompiler
