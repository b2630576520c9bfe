import FormCompiler.Proofs.ByteReading

/-!
# Bytes and atoms

A reader of bytes decides by two bytes whether a number starts, and finds out
whether it is a float while it takes the number.  A token is split off as a
whole word first and judged then.  Both find the same atom, or the same fault at
the same place, wherever a token starts that is no opening bracket and no tag.
-/

namespace FormCompiler

namespace ByteReader

open Reading

variable {State Result Other : Type} {reader later : ByteReader}
  {position : Position} {first : Char} {characters rest : List Char}

/-! ## Numbers -/

/-- A character that makes a number a float. -/
def isFloatMark (character : Char) : Bool :=
  character == '.' || character == 'e' || character == 'E'

theorem isWordChar_of_isSign {character : Char}
    (sign : isSign character = true) : isWordChar character = true := by
  rcases Bool.or_eq_true_iff.mp sign with same | same <;>
    rw [eq_of_beq same] <;> rfl

theorem isSign_of_le {character : Char} (wide : 128 ≤ character.toNat) :
    isSign character = false := by
  rw [isSign, Bool.or_eq_false_iff, beq_eq_false_iff_ne, beq_eq_false_iff_ne]
  constructor <;> rintro rfl <;> exact absurd wide (by decide)

theorem isFloatMark_of_le {character : Char} (wide : 128 ≤ character.toNat) :
    isFloatMark character = false := by
  simp only [isFloatMark, Bool.or_eq_false_iff, beq_eq_false_iff_ne]
  refine ⟨⟨?_, ?_⟩, ?_⟩ <;> rintro rfl <;> exact absurd wide (by decide)

theorem isFloatMark_of_isSign {character : Char}
    (sign : isSign character = true) : isFloatMark character = false := by
  rcases Bool.or_eq_true_iff.mp sign with same | same <;>
    rw [eq_of_beq same] <;> rfl

/-- A byte of a number that is no mark leaves it what it is. -/
theorem comes_numberTurn {byte : UInt8} (found : reader.next? = some byte)
    (inside : isWordChar (byteChar byte) = true)
    (plain : isFloatMark (byteChar byte) = false) (isFloat : Bool) :
    Comes (numberTurn isFloat) reader
      (.ok (.again isFloat, reader.after byte)) := by
  simp only [isFloatMark, Bool.or_eq_false_iff, beq_eq_false_iff_ne] at plain
  refine .look ?_
  rw [found]
  dsimp only
  rw [if_neg plain.1.1, if_neg (not_or_intro plain.1.2 plain.2),
    if_pos inside, ite_self]
  exact (Comes.take found).bind (.pure _)

theorem comes_numberTurn_leave (stands : reader.At position rest)
    (delimited : Delimited rest) (isFloat : Bool) :
    Comes (numberTurn isFloat) reader (.ok (.leave isFloat, reader)) := by
  refine .look ?_
  cases rest with
  | nil =>
      rw [stands.next?_nil]
      exact .pure _
  | cons character rest =>
      obtain ⟨byte, found, heads⟩ := stands.exists_next
      have outside : isWordChar (byteChar byte) = false := by
        rw [heads.kind_eq isWordChar fun _ => isWordChar_of_le]
        by_contra inside
        rw [Bool.not_eq_false] at inside
        rw [Delimited, List.takeWhile_cons_of_pos inside] at delimited
        cases delimited
      have differs {other : Char} (word : isWordChar other = true) :
          byteChar byte ≠ other := by
        rintro rfl
        rw [word] at outside
        cases outside
      rw [found]
      dsimp only
      rw [if_neg (mt isWordChar_of_isDigit (Bool.eq_false_iff.mp outside)),
        if_neg (differs rfl),
        if_neg (not_or_intro (differs rfl) (differs rfl)), outside]
      exact .pure _

/-- A mark is taken, together with a sign behind it that belongs to an
exponent. -/
theorem comes_numberTurn_mark {byte : UInt8}
    (found : reader.next? = some byte)
    (mark : isFloatMark (byteChar byte) = true) (isFloat : Bool) :
    Comes (numberTurn isFloat) reader (.ok (.again true, reader.after byte)) ∨
    ∃ sign, (reader.after byte).next? = some sign ∧
      isSign (byteChar sign) = true ∧
      Comes (numberTurn isFloat) reader
        (.ok (.again true, (reader.after byte).after sign)) := by
  simp only [isFloatMark, Bool.or_eq_true, beq_iff_eq] at mark
  by_cases point : byteChar byte = '.'
  · refine .inl (.look ?_)
    rw [found]
    dsimp only
    rw [point, if_neg (by decide), if_pos rfl]
    exact (Comes.take found).bind (.pure _)
  · have exponent := (or_assoc.mp mark).resolve_left point
    have notDigit : ¬(byteChar byte).isDigit = true := by
      rcases exponent with same | same <;> rw [same] <;> decide
    cases behind : reader.second? with
    | none =>
        refine .inl (.look ?_)
        rw [found]
        dsimp only
        rw [if_neg notDigit, if_neg point, if_pos exponent, behind]
        exact (Comes.take found).bind (.pure _)
    | some sign =>
        by_cases isSigned : isSign (byteChar sign) = true
        · have next : (reader.after byte).next? = some sign := behind
          refine .inr ⟨sign, next, isSigned, .look ?_⟩
          rw [found]
          dsimp only
          rw [if_neg notDigit, if_neg point, if_pos exponent, behind,
            Option.any_some, if_pos isSigned]
          exact (Comes.take found).bind ((Comes.take next).bind (.pure _))
        · refine .inl (.look ?_)
          rw [found]
          dsimp only
          rw [if_neg notDigit, if_neg point, if_pos exponent, behind,
            Option.any_some, if_neg isSigned]
          exact (Comes.take found).bind (.pure _)

/-- A sign that comes next is a character of its own. -/
theorem At.sign {sign : UInt8} (stands : reader.At position (first :: rest))
    (next : reader.next? = some sign)
    (signed : isSign (byteChar sign) = true) :
    isSign first = true ∧ String.utf8EncodeChar first = [sign] := by
  obtain ⟨byte, found, heads⟩ := stands.exists_next
  rw [next] at found
  cases found
  rw [heads.kind_eq isSign fun _ => isSign_of_le] at signed
  refine ⟨signed, ?_⟩
  cases heads with
  | alone encoded => exact encoded
  | wide wide =>
      rw [isSign_of_le wide] at signed
      cases signed

/-- A sign behind a part of a word is in the word too. -/
theorem exists_sign {word : List Char} {sign : UInt8}
    (stands : reader.At position (word ++ rest)) (delimited : Delimited rest)
    (next : reader.next? = some sign)
    (signed : isSign (byteChar sign) = true) :
    ∃ second more, word = second :: more ∧
      String.utf8EncodeChar second = [sign] := by
  cases word with
  | cons second more =>
      exact ⟨second, more, rfl, (stands.sign next signed).2⟩
  | nil =>
      cases rest with
      | nil =>
          rw [stands.next?_nil] at next
          cases next
      | cons character rest =>
          have inside := isWordChar_of_isSign (stands.sign next signed).1
          rw [Delimited, List.takeWhile_cons_of_pos inside] at delimited
          cases delimited

/-- The turns over a number take its word, whatever is a mark in it. -/
theorem comes_numberTurns {word : List Char} (delimited : Delimited rest)
    (inside : ∀ character ∈ word, isWordChar character = true)
    (stands : reader.At position (word ++ rest)) (isFloat : Bool) :
    ∀ turns, Comes (loop numberTurn turns isFloat) reader
      (.ok (isFloat || word.any isFloatMark,
        reader.afterAll (utf8 word))) := by
  induction length : word.length using Nat.strong_induction_on
    generalizing reader position word isFloat with
  | _ length' ih =>
      subst length
      cases word with
      | nil =>
          rw [List.any_nil, Bool.or_false]
          exact Comes.loop_leave
            (comes_numberTurn_leave stands delimited isFloat)
      | cons character word =>
          obtain ⟨own, inside⟩ := List.forall_mem_cons.mp inside
          obtain ⟨byte, found, heads⟩ := stands.exists_next
          rw [List.any_cons]
          by_cases mark : isFloatMark character = true
          · rw [mark, Bool.true_or, Bool.or_true]
            have byteMark : isFloatMark (byteChar byte) = true :=
              (heads.kind_eq isFloatMark fun _ => isFloatMark_of_le).trans mark
            cases heads with
            | wide wide =>
                rw [isFloatMark_of_le wide] at mark
                cases mark
            | alone encoded =>
                have behind := stands.afterByte encoded
                rw [utf8_cons, encoded]
                rcases comes_numberTurn_mark found byteMark isFloat with
                  turn | ⟨sign, next, isSigned, turn⟩
                · exact Comes.loop_again turn
                    (ih word.length (Nat.lt_succ_self _) inside behind true
                      rfl)
                · obtain ⟨second, more, rfl, alone⟩ :=
                    exists_sign behind delimited next isSigned
                  have inside := (List.forall_mem_cons.mp inside).2
                  rw [utf8_cons, alone]
                  exact Comes.loop_again turn
                    (ih more.length (by simp) inside
                      (behind.afterByte alone) true rfl)
          · rw [Bool.not_eq_true] at mark
            rw [mark, Bool.false_or, utf8_cons, afterAll_append]
            have bytes := stands.bytes
            rw [List.cons_append, utf8_cons] at bytes
            have all : ∀ byte ∈ utf8 [character], _ := forall_mem_utf8
              (fun other => isWordChar other && !isFloatMark other)
              (fun other wide => by
                rw [isWordChar_of_le wide, isFloatMark_of_le wide]
                rfl)
              (List.forall_mem_singleton.mpr (by rw [own, mark]; rfl))
            rw [utf8_singleton] at all
            have inside' : reader.At position
                ([character] ++ (word ++ rest)) := stands
            have behind := inside'.afterAll
            rw [utf8_singleton] at behind
            refine Comes.loop_bytes (fun byte =>
                (isWordChar (byteChar byte) &&
                  !isFloatMark (byteChar byte)) = true) (fun _ => isFloat)
              (fun reader byte _ found plain => ?_) all bytes []
              (ih word.length (Nat.lt_succ_self _) inside behind isFloat rfl)
            rw [Bool.and_eq_true, Bool.not_eq_true'] at plain
            exact comes_numberTurn found plain.1 plain.2 isFloat

theorem numberOf?_ofList (word : List Char) :
    numberOf? (word.any isFloatMark) (String.ofList word) =
      numberAtom? word := by
  rw [numberOf?, String.toList_ofList]
  rfl

/-- What a number with the given word comes to. -/
def numberOutcome (reader : ByteReader) (position : Position)
    (word : List Char) : Except ReadError (Form × ByteReader) :=
  match numberAtom? word with
  | none => .error ⟨.invalidNumber (String.ofList word), position⟩
  | some number =>
      .ok (.atom (.ofSpan ⟨position, lastPosition position word⟩) number,
        reader.afterAll (utf8 word))

theorem comes_numberRest {word : List Char} {begun : ByteReader}
    {turns : Nat} (nonempty : word ≠ [])
    (stands : reader.At position (word ++ rest))
    (takes : Comes (loop numberTurn turns false) begun
      (.ok (word.any isFloatMark, reader.afterAll (utf8 word)))) :
    Comes (numberRest turns reader.offset position) begun
      (numberOutcome reader position word) := by
  refine takes.bind (.look ?_)
  rw [stands.textFrom_afterAll, numberOutcome]
  dsimp only
  rw [numberOf?_ofList]
  cases numberAtom? word with
  | none => exact .throw _
  | some number =>
      rw [← stands.last nonempty]
      exact .finish _ _

/-- A number is read as its token. -/
theorem comes_readNumber {word : List Char} (nonempty : word ≠ [])
    (delimited : Delimited rest)
    (inside : ∀ character ∈ word, isWordChar character = true)
    (stands : reader.At position (word ++ rest)) (turns : Nat) :
    Comes (readNumber turns position) reader
      (numberOutcome reader position word) := by
  obtain ⟨first, more, rfl⟩ := List.exists_cons_of_ne_nil nonempty
  obtain ⟨byte, found, heads⟩ := stands.exists_next
  refine .look ?_
  rw [found, Option.any_some]
  by_cases signed : isSign (byteChar byte) = true
  · rw [if_pos signed]
    obtain ⟨own, encoded⟩ := stands.sign found signed
    have takes := comes_numberTurns delimited
      (List.forall_mem_cons.mp inside).2 (stands.afterByte encoded) false
      turns
    refine (Comes.take found).bind (comes_numberRest nonempty stands ?_)
    rw [List.any_cons, isFloatMark_of_isSign own, utf8_cons, encoded]
    exact takes
  · rw [if_neg signed]
    exact comes_numberRest nonempty stands
      (comes_numberTurns delimited inside stands false turns)

/-! ## Words -/

theorem isDigit_of_le {character : Char} (wide : 128 ≤ character.toNat) :
    character.isDigit = false := by
  by_contra digit
  rw [Bool.not_eq_false, Char.isDigit, Bool.and_eq_true,
    decide_eq_true_iff, decide_eq_true_iff] at digit
  have bound : character.toNat ≤ 57 := UInt32.le_iff_toNat_le.mp digit.2
  omega

theorem isSymbolStart_of_le {character : Char}
    (wide : 128 ≤ character.toNat) : isSymbolStart character = true := by
  rw [isSymbolStart, isWordChar_of_le wide, isDigit_of_le wide, Bool.true_and,
    Bool.not_false, Bool.and_true, Bool.and_eq_true, bne_iff_ne, bne_iff_ne]
  constructor <;> rintro rfl <;> exact absurd wide (by decide)

/-- A digit that comes next is in the word. -/
theorem second_isDigit (stands : reader.At position rest) :
    (reader.next?.any fun byte => (byteChar byte).isDigit) =
      ((rest.takeWhile isWordChar).head?.any Char.isDigit) := by
  cases rest with
  | nil =>
      rw [stands.next?_nil]
      rfl
  | cons second rest =>
      obtain ⟨byte, found, heads⟩ := stands.exists_next
      rw [found, Option.any_some, heads.kind_eq Char.isDigit fun _ => isDigit_of_le]
      by_cases inside : isWordChar second = true
      · rw [List.takeWhile_cons_of_pos inside]
        rfl
      · rw [List.takeWhile_cons_of_neg inside, List.head?_nil,
          Option.any_none, ← Bool.not_eq_true]
        exact mt isWordChar_of_isDigit inside

/-- A word is a number where a reader takes one. -/
theorem startsNumber_eq {byte : UInt8}
    (stands : reader.At position (first :: rest))
    (heads : Heads byte first) :
    startsNumber (byteChar byte) reader.second? =
      isNumberWord (first :: rest.takeWhile isWordChar) := by
  have word : isNumberWord (first :: rest.takeWhile isWordChar) =
      (first.isDigit || isSign first &&
        (rest.takeWhile isWordChar).head?.any Char.isDigit) := by
    cases rest.takeWhile isWordChar with
    | nil =>
        rw [List.head?_nil, Option.any_none, Bool.and_false, Bool.or_false]
        rfl
    | cons second more => rfl
  rw [word, startsNumber, heads.kind_eq Char.isDigit fun _ => isDigit_of_le,
    heads.kind_eq isSign fun _ => isSign_of_le]
  cases heads with
  | alone encoded =>
      rw [← second_isDigit (stands.afterByte encoded)]
      rfl
  | wide wide => rw [isSign_of_le wide, Bool.false_and, Bool.false_and]

theorem starts_of_isNumberWord {more : List Char}
    (number : isNumberWord (first :: more) = true) :
    (isSymbolStart first || first.isDigit) = true := by
  by_cases digit : first.isDigit = true
  · rw [digit, Bool.or_true]
  · have sign : isSign first = true := by
      cases more with
      | nil => exact absurd number digit
      | cons second more =>
          have cases := Bool.or_eq_true_iff.mp number
          exact (Bool.and_eq_true_iff.mp (cases.resolve_left digit)).1
    rcases Bool.or_eq_true_iff.mp sign with same | same <;>
      rw [eq_of_beq same] <;> rfl

/-! ## Atoms and faults -/

/-- Whatever a reading comes to is good. -/
def Yields (reading : Reading Result) (reader : ByteReader)
    (good : Except ReadError (Result × ByteReader) → Prop) : Prop :=
  ∀ found, reading reader = some found → good found

theorem Comes.yields {reading : Reading Result}
    {outcome : Except ReadError (Result × ByteReader)}
    {good : Except ReadError (Result × ByteReader) → Prop}
    (known : Comes reading reader outcome) (holds : good outcome) :
    Yields reading reader good := by
  intro found read
  rw [known found read]
  exact holds

namespace Yields

variable {first : Reading Other} {second : Other → Reading Result}
  {between : Except ReadError (Other × ByteReader) → Prop}
  {good : Except ReadError (Result × ByteReader) → Prop}

/-- The second reading starts where the first one is known to lead. -/
theorem behind {other : Other}
    (known : Comes first reader (.ok (other, later)))
    (further : Yields (second other) later good) :
    Yields (first >>= second) reader good :=
  fun found read => further found (known.step read)

theorem bind (before : Yields first reader between)
    (fails : ∀ error, between (.error error) → good (.error error))
    (further : ∀ other later, between (.ok (other, later)) →
      Yields (second other) later good) :
    Yields (first >>= second) reader good := by
  intro found read
  rw [bind_eq] at read
  cases ran : first reader with
  | none =>
      rw [ran] at read
      cases read
  | some result =>
      have holds := before result ran
      rw [ran] at read
      rcases result with error | ⟨other, later⟩
      · cases read
        exact fails error holds
      · exact further other later holds found read

theorem look {second : ByteReader → Reading Result}
    (further : Yields (second reader) reader good) :
    Yields (get >>= second) reader good := further

theorem imp {reading : Reading Result}
    {weaker : Except ReadError (Result × ByteReader) → Prop}
    (yields : Yields reading reader good)
    (implies : ∀ outcome, good outcome → weaker outcome) :
    Yields reading reader weaker :=
  fun found read => implies found (yields found read)

end Yields

/-- What a reader comes to where a token starts that is no opening bracket and
no tag. -/
inductive Lexes (reader : ByteReader) (position : Position) (first : Char)
    (rest : List Char) : Except ReadError (Form × ByteReader) → Prop where
  | fault {fault : LexicalFault} (read : lexeme first rest = .error fault) :
      Lexes reader position first rest (.error ⟨fault.fault,
        position.advance ((first :: rest).take fault.offset)⟩)
  | closing {character : Char} {length : Nat}
      (read : lexeme first rest = .ok ⟨.closing character, length⟩) :
      Lexes reader position first rest
        (.error ⟨.unmatchedClose character, position⟩)
  | atom {atom : Atom} {length : Nat}
      (read : lexeme first rest = .ok ⟨.atom atom, length⟩) :
      Lexes reader position first rest (.ok
        (.atom (.ofSpan ⟨position,
          lastPosition position (first :: rest.take length)⟩) atom,
        reader.afterAll (utf8 (first :: rest.take length))))

/-- Characters that start a token that is no word. -/
def marks : List Char := ['(', '[', '\x7b', '#', ')', ']', '\x7d', '"', ':']

/-- Only a word can start with this character. -/
def IsOther (character : Char) : Prop := character ∉ marks

theorem Heads.isOther {byte : UInt8} (heads : Heads byte first)
    (other : IsOther (byteChar byte)) : IsOther first := by
  have ascii : marks.all (·.toNat < 128) = true := by decide
  rw [List.all_eq_true] at ascii
  have same := heads.kind_eq (fun other => decide (other ∈ marks))
    fun other wide => decide_eq_false fun member =>
      absurd (of_decide_eq_true (ascii other member)) (Nat.not_lt.mpr wide)
  rw [IsOther, ← decide_eq_false_iff_not, ← same]
  exact decide_eq_false other

theorem lexeme_other (other : IsOther first) :
    lexeme first rest =
      (let word := first :: rest.takeWhile isWordChar
      if isSymbolStart first || first.isDigit then
        match wordAtom word with
        | .ok atom => .ok ⟨.atom atom, word.length - 1⟩
        | .error fault => .error ⟨fault, 0⟩
      else .error ⟨.unexpectedChar first, 0⟩) := by
  unfold lexeme
  split
  all_goals first | rfl | exact (other (by decide)).elim

theorem lexes_word {atom : Atom} (other : IsOther first)
    (starts : (isSymbolStart first || first.isDigit) = true)
    (read : wordAtom (first :: rest.takeWhile isWordChar) = .ok atom) :
    Lexes reader position first rest (.ok
      (.atom (.ofSpan ⟨position, lastPosition position
        (first :: rest.takeWhile isWordChar)⟩) atom,
      reader.afterAll (utf8 (first :: rest.takeWhile isWordChar)))) := by
  rw [← (take_length_takeWhile isWordChar rest).1]
  refine .atom ?_
  rw [lexeme_other other]
  simp only [starts, if_true, read, List.length_cons, Nat.add_sub_cancel]

theorem lexes_wordFault {fault : ReadFault} (other : IsOther first)
    (starts : (isSymbolStart first || first.isDigit) = true)
    (read : wordAtom (first :: rest.takeWhile isWordChar) = .error fault) :
    Lexes reader position first rest (.error ⟨fault, position⟩) := by
  have read : lexeme first rest = .error ⟨fault, 0⟩ := by
    rw [lexeme_other other]
    simp only [starts, if_true, read]
  exact .fault read

theorem wordAtom_name {word : List Char}
    (notNumber : ¬isNumberWord word = true) :
    wordAtom word = .ok (atomOfName (.ofList word)) := by
  rw [wordAtom, if_neg notNumber]
  generalize String.ofList word = name
  unfold atomOfName
  split
  · rfl
  · rfl
  · rfl
  · first
      | rfl
      | split <;> first | contradiction | rfl

/-- A reader ahead of a word stands ahead of all of it. -/
theorem At.word (stands : reader.At position (first :: rest)) :
    reader.At position ((first :: rest.takeWhile isWordChar) ++
      rest.dropWhile isWordChar) := by
  rw [List.cons_append, List.takeWhile_append_dropWhile]
  exact stands

theorem yields_readNumber (stands : reader.At position (first :: rest))
    (other : IsOther first)
    (number : isNumberWord (first :: rest.takeWhile isWordChar) = true)
    (turns : Nat) :
    Yields (readNumber turns position) reader
      (Lexes reader position first rest) := by
  have starts := starts_of_isNumberWord number
  have inside := isWordChar_of_starts starts
  have takes := comes_readNumber (List.cons_ne_nil _ _)
    (delimited_dropWhile rest)
    (List.forall_mem_cons.mpr ⟨inside,
      List.all_eq_true.mp List.all_takeWhile⟩)
    stands.word turns
  refine takes.yields ?_
  unfold numberOutcome
  cases read : numberAtom? (first :: rest.takeWhile isWordChar) with
  | none =>
      refine lexes_wordFault other starts ?_
      rw [wordAtom, if_pos number, read]
  | some atom =>
      refine lexes_word other starts ?_
      rw [wordAtom, if_pos number, read]

theorem yields_readName (stands : reader.At position (first :: rest))
    (other : IsOther first) (symbol : isSymbolStart first = true)
    (notNumber : ¬isNumberWord (first :: rest.takeWhile isWordChar) = true)
    (turns : Nat) :
    Yields (do
        let name ← takeWord turns
        finish position (.atom · (atomOfName name))) reader
      (Lexes reader position first rest) := by
  have starts : (isSymbolStart first || first.isDigit) = true := by
    rw [symbol, Bool.true_or]
  have inside := isWordChar_of_starts starts
  have takes := comes_takeWord stands turns
  rw [List.takeWhile_cons_of_pos inside] at takes
  refine Comes.yields (takes.bind (.finish _ _)) ?_
  rw [stands.word.last (List.cons_ne_nil _ _)]
  exact lexes_word other starts (wordAtom_name notNumber)

theorem yields_unexpected {byte : UInt8}
    (stands : reader.At position (first :: rest))
    (found : reader.next? = some byte) (heads : Heads byte first)
    (other : IsOther first) (notSymbol : ¬isSymbolStart first = true)
    (notDigit : ¬first.isDigit = true) :
    Yields (throw reader.unexpected : Reading Form) reader
      (Lexes reader position first rest) := by
  have same : byteChar byte = first := by
    cases heads with
    | alone _ same => exact same
    | wide wide => exact absurd (isSymbolStart_of_le wide) notSymbol
  have wrong : reader.unexpected = ⟨.unexpectedChar first, position⟩ := by
    rw [unexpected, found, stands.place, ← same]
  have read : lexeme first rest = .error ⟨.unexpectedChar first, 0⟩ := by
    rw [lexeme_other other]
    simp only [notSymbol, notDigit, Bool.or_self, Bool.false_eq_true,
      if_false]
  rw [wrong]
  exact (Comes.throw _).yields (.fault read)

/-- A number or a name is read as its token. -/
theorem yields_readWord {byte : UInt8} (turns : Nat)
    (stands : reader.At position (first :: rest))
    (found : reader.next? = some byte) (heads : Heads byte first)
    (other : IsOther first) :
    Yields (readWord turns position (byteChar byte)) reader
      (Lexes reader position first rest) := by
  show Yields (if startsNumber (byteChar byte) reader.second? then
      readNumber turns position
    else if isSymbolStart (byteChar byte) then do
      let name ← takeWord turns
      finish position (.atom · (atomOfName name))
    else throw reader.unexpected) reader _
  rw [startsNumber_eq stands heads,
    heads.kind_eq isSymbolStart fun _ => isSymbolStart_of_le]
  split
  · next number => exact yields_readNumber stands other number turns
  · next notNumber =>
    split
    · next symbol => exact yields_readName stands other symbol notNumber turns
    · next notSymbol =>
        refine yields_unexpected stands found heads other notSymbol
          fun digit => notNumber ?_
        unfold isNumberWord
        split <;> simp_all

theorem yields_readString (stands : reader.At position ('"' :: rest))
    (turns : Nat) :
    Yields (readString turns position) reader
      (Lexes reader position '"' rest) := by
  refine (comes_readString stands turns).yields ?_
  cases read : stringContents? rest with
  | none =>
      have lexed : lexeme '"' rest = .error ⟨.unexpectedEnd,
          ('"' :: rest).length⟩ := by
        simp only [lexeme, read, List.length_cons]
      have fault : Lexes reader position '"' rest _ := .fault lexed
      rw [List.take_length] at fault
      exact fault
  | some pair =>
      obtain ⟨contents, length⟩ := pair
      refine .atom ?_
      simp only [lexeme, read]

/-- A name behind a mark. -/
theorem comes_nameBehind {mark : Char} {byte : UInt8}
    (encoded : String.utf8EncodeChar mark = [byte])
    (stands : reader.At position (mark :: rest)) (turns : Nat) :
    Comes (takeName turns) (reader.after byte)
      (if (rest.takeWhile isWordChar).isEmpty then
        .error ⟨(unexpectedAt 1 rest).fault, position.after mark⟩
      else .ok (String.ofList (rest.takeWhile isWordChar),
        reader.afterAll (utf8 (mark :: rest.takeWhile isWordChar)))) := by
  have takes := comes_takeName (stands.afterByte encoded) turns
  rw [utf8_cons, encoded]
  exact takes

theorem offset_unexpectedAt (offset : Nat) (characters : List Char) :
    (unexpectedAt offset characters).offset = offset := by
  cases characters <;> rfl

theorem yields_keyword (stands : reader.At position (':' :: rest))
    (turns : Nat) :
    Yields (do
        take
        let name ← takeName turns
        finish position (.atom · (.keyword name))) reader
      (Lexes reader position ':' rest) := by
  obtain ⟨byte, found, heads⟩ := stands.exists_next
  cases heads with
  | wide wide => exact absurd wide (by decide)
  | alone encoded =>
      have takes := comes_nameBehind encoded stands turns
      by_cases empty : (rest.takeWhile isWordChar).isEmpty = true
      · rw [if_pos empty] at takes
        have read : lexeme ':' rest = .error (unexpectedAt 1 rest) :=
          if_pos empty
        have fault : Lexes reader position ':' rest _ := .fault read
        rw [offset_unexpectedAt] at fault
        exact ((Comes.take found).bind takes.fail).yields fault
      · rw [if_neg empty] at takes
        have read : lexeme ':' rest = .ok ⟨.atom (.keyword
            (.ofList (rest.takeWhile isWordChar))),
            (rest.takeWhile isWordChar).length⟩ :=
          if_neg empty
        have atom : Lexes reader position ':' rest _ := .atom read
        have whole := stands.word
        rw [(take_length_takeWhile isWordChar rest).1,
          ← whole.last (List.cons_ne_nil _ _)] at atom
        exact ((Comes.take found).bind
          (takes.bind (.finish _ _))).yields atom

end ByteReader

end FormCompiler
