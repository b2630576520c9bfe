import FormCompiler.Proofs.ReaderProgress

/-!
# Bytes and characters

A text in bytes is read as the text in characters is.  The bytes of a character,
taken one by one, lead to the position behind the character, and no byte of a
wide character is taken for a character of its own that means something.

So the loops of a reader of bytes take the blanks, comments, words and strings
that the tokens of the text are split by.  What a reading comes to is stated for
every bound on its turns: it is this, or the reading has no outcome.
-/

namespace FormCompiler

/-! ## Characters in bytes -/

/-- The bytes of characters. -/
def utf8 (characters : List Char) : List UInt8 :=
  characters.flatMap String.utf8EncodeChar

theorem bytes_of_text (text : String) :
    text.toByteArray.data.toList = utf8 text.toList := by
  rw [← String.utf8Encode_toList, List.utf8Encode,
    List.toList_data_toByteArray]
  rfl

theorem length_bytes_of_text (text : String) :
    text.toByteArray.data.toList.length = text.utf8ByteSize := rfl

theorem isContinuation_tail {value : Nat} (small : value < 64) :
    isContinuation (UInt8.ofNat (value + 0x80)) = true ∧
      128 ≤ (UInt8.ofNat (value + 0x80)).toNat := by
  decide +revert

theorem not_isContinuation_lead {value : Nat} (small : value < 64) :
    isContinuation (UInt8.ofNat (value + 0xC0)) = false ∧
      128 ≤ (UInt8.ofNat (value + 0xC0)).toNat := by
  decide +revert

/-- A character of one byte is that byte. -/
theorem utf8EncodeChar_of_lt {character : Char}
    (ascii : character.toNat < 128) :
    ∃ byte, String.utf8EncodeChar character = [byte] ∧
      byteChar byte = character := by
  refine ⟨UInt8.ofNat character.toNat, ?_, ?_⟩
  · exact if_pos (Nat.le_of_lt_succ ascii)
  · rw [byteChar, UInt8.toNat_ofNat', Nat.mod_eq_of_lt (by omega),
      Char.ofNat_toNat]

/-- A character of more bytes starts with one that starts no other way, and
goes on with continuation bytes. -/
theorem utf8EncodeChar_of_le {character : Char}
    (wide : 128 ≤ character.toNat) :
    ∃ first second more,
      String.utf8EncodeChar character = first :: second :: more ∧
      (isContinuation first = false ∧ 128 ≤ first.toNat) ∧
      ∀ byte ∈ second :: more, isContinuation byte = true ∧
        128 ≤ byte.toNat := by
  have tail (value : Nat) := isContinuation_tail (Nat.mod_lt value
    (show 64 > 0 by decide))
  have notOne : ¬character.val.toNat ≤ 0x7f := by
    show ¬character.toNat ≤ 0x7f
    omega
  rw [String.utf8EncodeChar]
  simp only [if_neg notOne]
  split
  · exact ⟨_, _, _, rfl, not_isContinuation_lead (by omega),
      List.forall_mem_singleton.mpr (tail _)⟩
  · split
    · refine ⟨_, _, _, rfl, ?_, List.forall_mem_cons.mpr
        ⟨tail _, List.forall_mem_singleton.mpr (tail _)⟩⟩
      exact not_isContinuation_lead
        (show character.val.toNat / 4096 % 0x10 + 0x20 < 64 by omega)
    · refine ⟨_, _, _, rfl, ?_, List.forall_mem_cons.mpr
        ⟨tail _, List.forall_mem_cons.mpr
          ⟨tail _, List.forall_mem_singleton.mpr (tail _)⟩⟩⟩
      exact not_isContinuation_lead
        (show character.val.toNat / 262144 % 0x08 + 0x30 < 64 by omega)

/-- The bytes of characters stand for the characters. -/
theorem decodedChars_utf8 (characters : List Char) :
    decodedChars (utf8 characters) = characters := by
  induction characters with
  | nil => rw [utf8, List.flatMap_nil, decodedChars]
  | cons character characters ih =>
      have some : String.utf8EncodeChar character ≠ [] := by
        intro none
        have length := String.length_utf8EncodeChar character
        rw [none] at length
        exact absurd length.symm (Nat.ne_of_gt character.utf8Size_pos)
      obtain ⟨first, more, encoded⟩ := List.exists_cons_of_ne_nil some
      have length : more.length = character.utf8Size - 1 := by
        rw [← String.length_utf8EncodeChar, encoded, List.length_cons,
          Nat.add_sub_cancel]
      have decoded := ByteArray.utf8DecodeChar?_utf8EncodeChar_append
        (b := (utf8 characters).toByteArray) (c := character)
      rw [encoded, ← List.toByteArray_append, List.cons_append] at decoded
      rw [utf8, List.flatMap_cons, encoded, List.cons_append, decodedChars]
      unfold utf8 at decoded
      rw [decoded]
      dsimp only
      rw [← length, List.drop_left, show characters.flatMap
        String.utf8EncodeChar = utf8 characters from rfl, ih]

namespace ByteReader

open Reading

variable {State Result Other : Type} {reader later : ByteReader}
  {position : Position} {character : Char} {characters rest : List Char}

/-! ## Taking characters -/

/-- A reader stands ahead of characters of a text. -/
structure At (reader : ByteReader) (position : Position)
    (characters : List Char) : Prop where
  bytes : reader.source.drop reader.offset = utf8 characters
  place : reader.position = position

/-- The reader that has taken bytes. -/
def afterAll (reader : ByteReader) (bytes : List UInt8) : ByteReader :=
  bytes.foldl after reader

theorem utf8_cons (character : Char) (characters : List Char) :
    utf8 (character :: characters) =
      String.utf8EncodeChar character ++ utf8 characters := List.flatMap_cons

theorem utf8_append (first second : List Char) :
    utf8 (first ++ second) = utf8 first ++ utf8 second := List.flatMap_append

theorem utf8_singleton (character : Char) :
    utf8 [character] = String.utf8EncodeChar character :=
  List.flatMap_singleton _ _

theorem afterAll_append (reader : ByteReader) (first second : List UInt8) :
    reader.afterAll (first ++ second) =
      (reader.afterAll first).afterAll second := List.foldl_append

theorem source_afterAll (reader : ByteReader) (bytes : List UInt8) :
    (reader.afterAll bytes).source = reader.source := by
  induction bytes generalizing reader with
  | nil => rfl
  | cons byte bytes ih => exact ih (reader.after byte)

theorem offset_afterAll (reader : ByteReader) (bytes : List UInt8) :
    (reader.afterAll bytes).offset = reader.offset + bytes.length := by
  induction bytes generalizing reader with
  | nil => rfl
  | cons byte bytes ih =>
      refine (ih (reader.after byte)).trans ?_
      rw [List.length_cons, Nat.add_comm bytes.length, ← Nat.add_assoc]
      rfl

/-- What is left starts with the next byte. -/
theorem next?_of_drop {byte : UInt8} {bytes : List UInt8}
    (stands : reader.source.drop reader.offset = byte :: bytes) :
    reader.next? = some byte ∧
      (reader.after byte).source.drop (reader.after byte).offset = bytes := by
  constructor
  · rw [next?, ← List.head?_drop, stands]
    rfl
  · show reader.source.drop (reader.offset + 1) = _
    rw [← List.drop_drop, stands]
    rfl

theorem toNat_byteChar (byte : UInt8) :
    (byteChar byte).toNat = byte.toNat := by
  have small := byte.toNat_lt
  rw [byteChar, Char.ofNat, dif_pos (.inl (by omega))]
  rfl

theorem isContinuation_of_lt {byte : UInt8} (ascii : byte.toNat < 128) :
    isContinuation byte = false := by
  have all (value : Nat) (small : value < 128) :
      isContinuation (UInt8.ofNat value) = false := by
    decide +revert
  simpa using all byte.toNat ascii

theorem ne_lineEnd_of_le {character : Char} (wide : 128 ≤ character.toNat) :
    character ≠ '\n' := by
  rintro rfl
  exact absurd wide (by decide)

/-- Further bytes of a character do not move the position. -/
theorem afterAll_continuation {bytes : List UInt8}
    (further : ∀ byte ∈ bytes, isContinuation byte = true ∧
      128 ≤ byte.toNat) (some : bytes ≠ []) (reader : ByteReader) :
    (reader.afterAll bytes).position = reader.position ∧
      (reader.afterAll bytes).last = reader.position := by
  induction bytes generalizing reader with
  | nil => exact absurd rfl some
  | cons byte bytes ih =>
      obtain ⟨⟨continues, wide⟩, further⟩ := List.forall_mem_cons.mp further
      have stays : (reader.after byte).position = reader.position := by
        show reader.position.afterByte byte = reader.position
        rw [← toNat_byteChar] at wide
        rw [Position.afterByte, if_neg (ne_lineEnd_of_le wide),
          if_pos continues]
      cases bytes with
      | nil => exact ⟨stays, rfl⟩
      | cons next bytes =>
          rw [← stays]
          exact ih further (List.cons_ne_nil _ _) (reader.after byte)

/-- The bytes of a character lead to the position behind it, and the last one
stands at the end that is recorded for it. -/
theorem afterAll_utf8EncodeChar (reader : ByteReader) (character : Char) :
    (reader.afterAll (String.utf8EncodeChar character)).position =
        reader.position.after character ∧
      (reader.afterAll (String.utf8EncodeChar character)).last =
        lastPosition reader.position [character] := by
  by_cases ascii : character.toNat < 128
  · obtain ⟨byte, encoded, same⟩ := utf8EncodeChar_of_lt ascii
    have alone : isContinuation byte = false := by
      rw [← same, toNat_byteChar] at ascii
      exact isContinuation_of_lt ascii
    rw [encoded]
    refine ⟨?_, (if_pos ascii).symm⟩
    show reader.position.afterByte byte = _
    rw [Position.afterByte, Position.after, same, alone]
    rfl
  · rw [Nat.not_lt] at ascii
    obtain ⟨first, second, more, encoded, ⟨starts, wide⟩, further⟩ :=
      utf8EncodeChar_of_le ascii
    have moved : (reader.after first).position =
        reader.position.after character := by
      show reader.position.afterByte first = _
      rw [← toNat_byteChar] at wide
      rw [Position.afterByte, if_neg (ne_lineEnd_of_le wide), starts,
        Position.after, if_neg (ne_lineEnd_of_le ascii)]
      rfl
    obtain ⟨position, last⟩ := afterAll_continuation further
      (List.cons_ne_nil _ _) (reader.after first)
    rw [moved] at position last
    rw [encoded]
    refine ⟨position, last.trans ?_⟩
    rw [Position.after, if_neg (ne_lineEnd_of_le ascii)]
    exact (if_neg (Nat.not_lt.mpr ascii)).symm

/-- The same for characters one after the other. -/
theorem afterAll_utf8 (reader : ByteReader) (characters : List Char) :
    (reader.afterAll (utf8 characters)).position =
        reader.position.advance characters ∧
      (characters ≠ [] → (reader.afterAll (utf8 characters)).last =
        lastPosition reader.position characters) := by
  induction characters generalizing reader with
  | nil => exact ⟨rfl, fun some => absurd rfl some⟩
  | cons character characters ih =>
      obtain ⟨position, last⟩ := afterAll_utf8EncodeChar reader character
      rw [utf8_cons, afterAll_append]
      obtain ⟨further, ending⟩ :=
        ih (reader.afterAll (String.utf8EncodeChar character))
      rw [position] at further ending
      refine ⟨further, fun _ => ?_⟩
      cases characters with
      | nil => exact last
      | cons next characters => exact ending (List.cons_ne_nil _ _)

namespace At

theorem afterAll {text : List Char} (stands : reader.At position (text ++ rest)) :
    (reader.afterAll (utf8 text)).At (position.advance text) rest := by
  refine ⟨?_, ?_⟩
  · rw [source_afterAll, offset_afterAll, ← List.drop_drop, stands.bytes,
      utf8_append, List.drop_left]
  · rw [(afterAll_utf8 reader text).1, stands.place]

theorem last {text : List Char} (stands : reader.At position (text ++ rest))
    (some : text ≠ []) :
    (reader.afterAll (utf8 text)).last = lastPosition position text := by
  rw [(afterAll_utf8 reader text).2 some, stands.place]

theorem last_one (stands : reader.At position (character :: rest)) :
    (reader.afterAll (String.utf8EncodeChar character)).last =
      lastPosition position [character] := by
  rw [(afterAll_utf8EncodeChar reader character).2, stands.place]

theorem next?_eq (stands : reader.At position characters) :
    reader.next? = (utf8 characters).head? := by
  rw [next?, ← List.head?_drop, stands.bytes]

theorem second?_eq (stands : reader.At position characters) :
    reader.second? = (utf8 characters).tail.head? := by
  rw [second?, ← List.head?_drop, ← List.drop_drop, stands.bytes,
    List.drop_one]

/-- The text that was read since a place. -/
theorem textFrom_afterAll {text : List Char}
    (stands : reader.At position (text ++ rest)) :
    (reader.afterAll (utf8 text)).textFrom reader.offset =
      String.ofList text := by
  rw [textFrom, source_afterAll, offset_afterAll, Nat.add_sub_cancel_left,
    stands.bytes, utf8_append, List.take_left, decodedText,
    decodedChars_utf8]

end At

/-- A byte is the first one of a character. -/
inductive Heads (byte : UInt8) (character : Char) : Prop where
  | alone (encoded : String.utf8EncodeChar character = [byte])
      (same : byteChar byte = character)
  | wide (character : 128 ≤ character.toNat)
      (byte : 128 ≤ (byteChar byte).toNat)

theorem Heads.kind_eq {byte : UInt8} (heads : Heads byte character)
    (kind : Char → Bool) {value : Bool}
    (uniform : ∀ other : Char, 128 ≤ other.toNat → kind other = value) :
    kind (byteChar byte) = kind character := by
  cases heads with
  | alone _ same => rw [same]
  | wide character byte => rw [uniform _ character, uniform _ byte]

theorem Heads.eq_iff {byte : UInt8} (heads : Heads byte character)
    {other : Char} (ascii : other.toNat < 128) :
    byteChar byte = other ↔ character = other := by
  have same := heads.kind_eq (decide <| · = other)
    fun wide bound => decide_eq_false fun same => by
      rw [same] at bound
      omega
  simpa using same

theorem At.exists_next (stands : reader.At position (character :: rest)) :
    ∃ byte, reader.next? = some byte ∧ Heads byte character := by
  rw [stands.next?_eq, utf8_cons]
  by_cases ascii : character.toNat < 128
  · obtain ⟨byte, encoded, same⟩ := utf8EncodeChar_of_lt ascii
    rw [encoded]
    exact ⟨byte, rfl, .alone encoded same⟩
  · rw [Nat.not_lt] at ascii
    obtain ⟨first, second, more, encoded, ⟨-, wide⟩, -⟩ :=
      utf8EncodeChar_of_le ascii
    rw [encoded]
    rw [← toNat_byteChar] at wide
    exact ⟨first, rfl, .wide ascii wide⟩

theorem At.next?_nil (stands : reader.At position []) :
    reader.next? = none := stands.next?_eq

theorem At.afterByte {byte : UInt8} (encoded :
      String.utf8EncodeChar character = [byte])
    (stands : reader.At position (character :: rest)) :
    (reader.after byte).At (position.after character) rest := by
  have after : (reader.afterAll (utf8 [character])).At
      (position.advance [character]) rest := stands.afterAll
  rwa [utf8_cons, encoded] at after

/-! ## Outcomes of readings -/

/-- A reading has no other outcome. -/
def Comes (reading : Reading Result) (reader : ByteReader)
    (outcome : Except ReadError (Result × ByteReader)) : Prop :=
  ∀ found, reading reader = some found → found = outcome

namespace Comes

variable {outcome : Except ReadError (Result × ByteReader)}
  {first : Reading Other} {second : Other → Reading Result} {other : Other}
  {turn : State → Reading (Turn State Result)} {state next : State}

/-- What the first reading comes to, the second one starts from. -/
theorem step (known : Comes first reader (.ok (other, later)))
    {found : Except ReadError (Result × ByteReader)}
    (read : (first >>= second) reader = some found) :
    second other later = some found := by
  rw [bind_eq] at read
  cases ran : first reader with
  | none =>
      rw [ran] at read
      cases read
  | some result =>
      rw [known result ran] at ran
      rwa [ran] at read

theorem bind (known : Comes first reader (.ok (other, later)))
    (further : Comes (second other) later outcome) :
    Comes (first >>= second) reader outcome :=
  fun found read => further found (known.step read)

theorem fail {error : ReadError}
    (known : Comes first reader (.error error)) :
    Comes (first >>= second) reader (.error error) := by
  intro found read
  rw [bind_eq] at read
  cases ran : first reader with
  | none =>
      rw [ran] at read
      cases read
  | some result =>
      rw [known result ran] at ran
      rw [ran] at read
      cases read
      rfl

theorem look {second : ByteReader → Reading Result}
    (further : Comes (second reader) reader outcome) :
    Comes (get >>= second) reader outcome := further

theorem pure (result : Result) :
    Comes (Pure.pure result) reader (.ok (result, reader)) := by
  rintro found ⟨⟩
  rfl

theorem throw (error : ReadError) :
    Comes (MonadExcept.throw error : Reading Result) reader
      (.error error) := by
  rintro found ⟨⟩
  rfl

theorem take? {byte : UInt8} (found : reader.next? = some byte) :
    Comes ByteReader.take? reader (.ok (some byte, reader.after byte)) := by
  intro result read
  rw [take?_of_some found] at read
  cases read
  rfl

theorem take?_none (ended : reader.next? = none) :
    Comes ByteReader.take? reader (.ok (none, reader)) := by
  intro result read
  rw [take?_of_none ended] at read
  cases read
  rfl

theorem take {byte : UInt8} (found : reader.next? = some byte) :
    Comes ByteReader.take reader (.ok ((), reader.after byte)) :=
  (take? found).bind (pure ())

theorem finish (start : Position) (make : Metadata → Form) :
    Comes (ByteReader.finish start make) reader
      (.ok (make (.ofSpan ⟨start, reader.last⟩), reader)) :=
  look (pure _)

theorem loop_again (known : Comes (turn state) reader (.ok (.again next, later)))
    (further : ∀ turns, Comes (loop turn turns next) later outcome)
    (turns : Nat) : Comes (loop turn turns state) reader outcome := by
  cases turns with
  | zero => exact nofun
  | succ turns => exact known.bind (further turns)

theorem loop_leave {result : Result}
    (known : Comes (turn state) reader (.ok (.leave result, later)))
    (turns : Nat) :
    Comes (loop turn turns state) reader (.ok (result, later)) := by
  cases turns with
  | zero => exact nofun
  | succ turns => exact known.bind (pure result)

theorem loop_fail {error : ReadError}
    (known : Comes (turn state) reader (.error error)) (turns : Nat) :
    Comes (loop turn turns state) reader (.error error) := by
  cases turns with
  | zero => exact nofun
  | succ turns => exact known.fail

/-- A loop takes bytes of one kind one after the other. -/
theorem loop_bytes (kind : UInt8 → Prop) (states : List UInt8 → State)
    {bytes rest : List UInt8}
    (each : ∀ (reader : ByteReader) (byte : UInt8) (before : List UInt8),
      reader.next? = some byte → kind byte →
      Comes (turn (states before)) reader
        (.ok (.again (states (byte :: before)), reader.after byte)))
    (all : ∀ byte ∈ bytes, kind byte)
    (stands : reader.source.drop reader.offset = bytes ++ rest)
    (before : List UInt8)
    (further : ∀ turns,
      Comes (loop turn turns (states (bytes.reverse ++ before)))
        (reader.afterAll bytes) outcome) (turns : Nat) :
    Comes (loop turn turns (states before)) reader outcome := by
  induction bytes generalizing reader before turns with
  | nil => exact further turns
  | cons byte bytes ih =>
      obtain ⟨isKind, all⟩ := List.forall_mem_cons.mp all
      obtain ⟨found, behind⟩ := next?_of_drop stands
      refine (each reader byte before found isKind).loop_again
        (ih all behind (byte :: before) fun turns => ?_) turns
      rw [List.reverse_cons, List.append_assoc] at further
      exact further turns

end Comes

/-! ## Words -/

/-- The bytes of characters are of a kind with them, if wide characters and
bytes all are of that kind. -/
theorem forall_mem_utf8 (kind : Char → Bool) {text : List Char}
    (wide : ∀ other : Char, 128 ≤ other.toNat → kind other = true)
    (all : ∀ character ∈ text, kind character = true) :
    ∀ byte ∈ utf8 text, kind (byteChar byte) = true := by
  intro byte member
  obtain ⟨character, inside, encoded⟩ := List.mem_flatMap.mp member
  by_cases ascii : character.toNat < 128
  · obtain ⟨only, bytes, same⟩ := utf8EncodeChar_of_lt ascii
    rw [bytes, List.mem_singleton] at encoded
    rw [encoded, same]
    exact all character inside
  · obtain ⟨first, second, more, bytes, ⟨-, firstWide⟩, further⟩ :=
      utf8EncodeChar_of_le (Nat.not_lt.mp ascii)
    rw [bytes] at encoded
    refine wide _ ?_
    rw [toNat_byteChar]
    rcases List.mem_cons.mp encoded with rfl | encoded
    · exact firstWide
    · exact (further byte encoded).2

theorem isWordChar_of_le {character : Char} (wide : 128 ≤ character.toNat) :
    isWordChar character = true := by
  simp [isWordChar, wide]

theorem comes_wordTurn_leave (stands : reader.At position rest)
    (delimited : Delimited rest) :
    Comes (wordTurn ()) reader (.ok (.leave (), reader)) := by
  refine .look ?_
  cases rest with
  | nil =>
      rw [stands.next?_nil]
      exact .pure _
  | cons character rest =>
      obtain ⟨byte, found, heads⟩ := stands.exists_next
      have outside : isWordChar character = false := by
        by_contra inside
        rw [Bool.not_eq_false] at inside
        rw [Delimited, List.takeWhile_cons_of_pos inside] at delimited
        cases delimited
      rw [found]
      dsimp only
      rw [heads.kind_eq isWordChar fun _ => isWordChar_of_le, outside]
      exact .pure _

theorem comes_takeWord (stands : reader.At position characters)
    (turns : Nat) :
    Comes (takeWord turns) reader
      (.ok (String.ofList (characters.takeWhile isWordChar),
        reader.afterAll (utf8 (characters.takeWhile isWordChar)))) := by
  have whole := List.takeWhile_append_dropWhile (p := isWordChar)
    (l := characters)
  rw [← whole] at stands
  have bytes := stands.bytes
  rw [utf8_append] at bytes
  have all := forall_mem_utf8 isWordChar (fun _ => isWordChar_of_le)
    (List.all_eq_true.mp (List.all_takeWhile (p := isWordChar)
      (l := characters)))
  have loops := Comes.loop_bytes
    (fun byte => isWordChar (byteChar byte) = true) (fun _ => ())
    (fun reader byte _ found inside => .look (by
      rw [found]
      dsimp only
      rw [if_pos inside]
      exact (Comes.take found).bind (.pure _)))
    all bytes []
    (Comes.loop_leave (comes_wordTurn_leave stands.afterAll
      (delimited_dropWhile characters)))
  refine .look ((loops turns).bind (.look ?_))
  rw [stands.textFrom_afterAll]
  exact .pure _

/-- What is wrong where a word was wanted. -/
theorem unexpected_eq (stands : reader.At position characters)
    (delimited : Delimited characters) :
    reader.unexpected = ⟨(unexpectedAt 1 characters).fault, position⟩ := by
  unfold unexpected
  cases characters with
  | nil =>
      rw [stands.next?_nil, stands.place]
      rfl
  | cons character rest =>
      obtain ⟨byte, found, heads⟩ := stands.exists_next
      rw [found, stands.place]
      cases heads with
      | alone _ same =>
          dsimp only
          rw [same]
          rfl
      | wide wide _ =>
          rw [Delimited, List.takeWhile_cons_of_pos
            (isWordChar_of_le wide)] at delimited
          cases delimited

theorem comes_takeName (stands : reader.At position characters)
    (turns : Nat) :
    Comes (takeName turns) reader
      (if (characters.takeWhile isWordChar).isEmpty then
        .error ⟨(unexpectedAt 1 characters).fault, position⟩
      else .ok (String.ofList (characters.takeWhile isWordChar),
        reader.afterAll (utf8 (characters.takeWhile isWordChar)))) := by
  refine (comes_takeWord stands turns).bind ?_
  by_cases empty : (characters.takeWhile isWordChar).isEmpty = true
  · have none := List.isEmpty_iff.mp empty
    rw [none]
    refine .look ?_
    have wrong : (reader.afterAll (utf8 [])).unexpected = _ :=
      unexpected_eq stands none
    rw [wrong]
    exact .throw _
  · rw [if_neg empty, if_neg]
    · exact .pure _
    · intro named
      refine empty (List.isEmpty_iff.mpr ?_)
      rwa [String.isEmpty_iff, String.ofList_eq_empty_iff] at named

/-! ## Blanks -/

theorem scanFrom_blank (skipped : isBlank character = true) :
    scanFrom position (character :: rest) =
      scanFrom (position.after character) rest := by
  rw [scanFrom, if_pos skipped]

theorem scanFrom_comment {text after : List Char} (inside : '\n' ∉ text)
    (ends : ∀ next ∈ after.head?, next = '\n') :
    scanFrom position (';' :: (text ++ after)) =
      scanFrom (position.advance (';' :: text)) after := by
  rw [scanFrom, if_neg (by decide), if_pos rfl,
    takeWhile_comment inside ends]
  dsimp only
  rw [List.drop_left]
  rfl

/-- A comment is taken together with the end of its line. -/
theorem comes_comment {text after : List Char} (inside : '\n' ∉ text)
    (ends : ∀ next ∈ after.head?, next = '\n')
    (stands : reader.At position (';' :: (text ++ after))) :
    ∃ later behind, later.At behind after.tail ∧
      scanFrom position (';' :: (text ++ after)) =
        scanFrom behind after.tail ∧
      ∀ turns, Comes (loop commentTurn turns ()) reader (.ok ((), later)) := by
  rw [scanFrom_comment inside ends]
  have further : reader.At position ((';' :: text) ++ after) := stands
  have bytes := further.bytes
  rw [utf8_append] at bytes
  have all : ∀ byte ∈ utf8 (';' :: text), _ := forall_mem_utf8
    (decide <| · ≠ '\n') (fun _ wide => decide_eq_true (ne_lineEnd_of_le wide))
    (List.forall_mem_cons.mpr ⟨by decide, fun character member =>
      decide_eq_true fun same => inside (same ▸ member)⟩)
  have takes {later : ByteReader}
      (last : ∀ turns, Comes (loop commentTurn turns ())
        (reader.afterAll (utf8 (';' :: text))) (.ok ((), later))) :=
    Comes.loop_bytes (fun byte => decide (byteChar byte ≠ '\n') = true)
      (fun _ => ())
      (fun reader byte _ found isKind => (Comes.take? found).bind (by
        dsimp only
        rw [if_neg (of_decide_eq_true isKind)]
        exact .pure _))
      all bytes [] last
  have behind := further.afterAll
  cases after with
  | nil =>
      refine ⟨_, _, behind, rfl, takes (Comes.loop_leave ?_)⟩
      exact (Comes.take?_none behind.next?_nil).bind (.pure _)
  | cons next after =>
      cases ends next rfl
      obtain ⟨byte, found, heads⟩ := behind.exists_next
      have lineEnd : byteChar byte = '\n' :=
        (heads.eq_iff (by decide)).mpr rfl
      cases heads with
      | wide wide => exact absurd wide (by decide)
      | alone encoded =>
          refine ⟨_, _, behind.afterByte encoded, scanFrom_blank rfl,
            takes (Comes.loop_leave ?_)⟩
          refine (Comes.take? found).bind ?_
          dsimp only
          rw [if_pos lineEnd]
          exact .pure _

/-- Nothing that is skipped comes next. -/
def Solid (characters : List Char) : Prop :=
  ∀ first ∈ characters.head?, isBlank first = false ∧ first ≠ ';'

theorem isBlank_of_le {character : Char} (wide : 128 ≤ character.toNat) :
    isBlank character = false := by
  have differs {other : Char} (ascii : other.toNat < 128) :
      (character == other) = false := by
    rw [beq_eq_false_iff_ne]
    rintro rfl
    omega
  simp only [isBlank, Bool.or_eq_false_iff]
  exact ⟨⟨⟨⟨differs (by decide), differs (by decide)⟩, differs (by decide)⟩,
    differs (by decide)⟩, differs (by decide)⟩

/-- Blanks and comments are skipped. -/
theorem comes_skip (stands : reader.At position characters) :
    ∃ later behind solid, later.At behind solid ∧ Solid solid ∧
      scanFrom position characters = scanFrom behind solid ∧
      ∀ inner turns, Comes (loop (skipTurn inner) turns ()) reader
        (.ok ((), later)) := by
  induction length : characters.length using Nat.strong_induction_on
    generalizing reader position characters with
  | _ length' ih =>
      subst length
      cases characters with
      | nil =>
          refine ⟨reader, position, [], stands, nofun, rfl,
            fun inner => Comes.loop_leave (.look ?_)⟩
          rw [stands.next?_nil]
          exact .pure _
      | cons first rest =>
          obtain ⟨byte, found, heads⟩ := stands.exists_next
          have blankSame := heads.kind_eq isBlank fun _ => isBlank_of_le
          have markSame : byteChar byte = ';' ↔ first = ';' :=
            heads.eq_iff (by decide)
          by_cases blank : isBlank first = true
          · cases heads with
            | wide wide =>
                rw [isBlank_of_le wide] at blank
                cases blank
            | alone encoded =>
                obtain ⟨later, behind, solid, at_, isSolid, same, run⟩ :=
                  ih rest.length (Nat.lt_succ_self _)
                    (stands.afterByte encoded) rfl
                refine ⟨later, behind, solid, at_, isSolid,
                  (scanFrom_blank blank).trans same, fun inner =>
                    Comes.loop_again (.look ?_) (run inner)⟩
                rw [found]
                dsimp only
                rw [blankSame, if_pos blank]
                exact (Comes.take found).bind (.pure _)
          · by_cases comment : first = ';'
            · subst comment
              have whole := List.takeWhile_append_dropWhile
                (p := (decide <| · ≠ '\n')) (l := rest)
              have inside : '\n' ∉ rest.takeWhile (· ≠ '\n') := by
                intro member
                simpa using List.all_eq_true.mp List.all_takeWhile _ member
              have ends : ∀ next ∈ (rest.dropWhile (· ≠ '\n')).head?,
                  next = '\n' := by
                intro next first
                have stops := List.head?_dropWhile_not (· ≠ '\n') rest
                rw [first] at stops
                simpa using stops
              have shorter : (rest.dropWhile (· ≠ '\n')).tail.length <
                  (';' :: rest).length := by
                have dropped := (List.dropWhile_sublist
                  (p := (decide <| · ≠ '\n')) (l := rest)).length_le
                rw [List.length_tail, List.length_cons]
                omega
              rw [← whole] at stands
              obtain ⟨middle, place, atMiddle, scanned, taken⟩ :=
                comes_comment inside ends stands
              obtain ⟨later, behind, solid, at_, isSolid, same, run⟩ :=
                ih _ shorter atMiddle rfl
              rw [whole] at scanned
              refine ⟨later, behind, solid, at_, isSolid,
                scanned.trans same, fun inner =>
                  Comes.loop_again (.look ?_) (run inner)⟩
              rw [found]
              dsimp only
              rw [blankSame, if_neg blank, if_pos (markSame.mpr rfl)]
              exact (taken inner).bind (.pure _)
            · rw [Bool.not_eq_true] at blank
              refine ⟨reader, position, first :: rest, stands, ?_, rfl,
                fun inner => Comes.loop_leave (.look ?_)⟩
              · rintro _ ⟨⟩
                exact ⟨blank, comment⟩
              · rw [found]
                dsimp only
                rw [blankSame, blank, if_neg Bool.false_ne_true,
                  if_neg (mt markSame.mp comment)]
                exact .pure _

/-! ## Strings -/

/-- A byte that neither ends a string nor escapes another one. -/
def IsPlain (byte : UInt8) : Prop :=
  byteChar byte ≠ '"' ∧ byteChar byte ≠ '\\'

theorem isPlain_of_le {byte : UInt8} (wide : 128 ≤ (byteChar byte).toNat) :
    IsPlain byte := by
  constructor <;> intro same <;> rw [same] at wide <;>
    exact absurd wide (by decide)

theorem forall_isPlain (notQuote : character ≠ '"')
    (notEscape : character ≠ '\\') :
    ∀ byte ∈ String.utf8EncodeChar character, IsPlain byte := by
  have all : ∀ byte ∈ utf8 [character], _ := forall_mem_utf8
    (fun other => decide (other ≠ '"' ∧ other ≠ '\\')) (fun other wide => decide_eq_true (by
      constructor <;> rintro rfl <;> exact absurd wide (by decide)))
    (List.forall_mem_singleton.mpr (decide_eq_true ⟨notQuote, notEscape⟩))
  rw [utf8_singleton] at all
  intro byte member
  have isKind := all byte member
  rw [decide_eq_true_iff] at isKind
  exact isKind

theorem comes_plainBytes {outcome : Except ReadError
      (List UInt8 × ByteReader)} {bytes after : List UInt8}
    (plain : ∀ byte ∈ bytes, IsPlain byte)
    (stands : reader.source.drop reader.offset = bytes ++ after)
    (reversed : List UInt8)
    (further : ∀ turns, Comes (loop stringTurn turns
      (bytes.reverse ++ reversed)) (reader.afterAll bytes) outcome) :
    ∀ turns, Comes (loop stringTurn turns reversed) reader outcome :=
  Comes.loop_bytes IsPlain id
    (fun reader byte before found isPlain => (Comes.take? found).bind (by
      dsimp only
      rw [if_neg isPlain.1, if_neg isPlain.2]
      exact .pure _))
    plain stands reversed further

/-- What the rest of a string comes to. -/
def stringOutcome (reader : ByteReader) (position : Position)
    (reversed : List UInt8) (characters : List Char) :
    Except ReadError (List UInt8 × ByteReader) :=
  match stringContents? characters with
  | none => .error ⟨.unexpectedEnd, position.advance characters⟩
  | some (contents, length) =>
      .ok (reversed.reverse ++ utf8 contents,
        reader.afterAll (utf8 (characters.take length)))

/-- Behind characters that stand for one, a string goes on as before. -/
theorem stringOutcome_append (taken : List Char) {reversed : List UInt8}
    (contents : stringContents? (taken ++ rest) =
      (stringContents? rest).map fun (contents, length) =>
        (character :: contents, length + taken.length)) :
    stringOutcome (reader.afterAll (utf8 taken)) (position.advance taken)
        ((String.utf8EncodeChar character).reverse ++ reversed) rest =
      stringOutcome reader position reversed (taken ++ rest) := by
  rw [stringOutcome, stringOutcome, contents]
  cases stringContents? rest with
  | none =>
      rw [Option.map_none, Position.advance_append]
  | some read =>
      obtain ⟨inner, length⟩ := read
      simp only [Option.map_some]
      rw [List.reverse_append, List.reverse_reverse, List.append_assoc,
        ← utf8_cons, ← afterAll_append, ← utf8_append, Nat.add_comm length,
        List.take_length_add_append]

/-- The first byte of an escaped character stands for another one, and any
further ones are taken as they are. -/
theorem utf8EncodeChar_escaped (character : Char) :
    ∃ first more, String.utf8EncodeChar character = first :: more ∧
      (∀ byte ∈ more, IsPlain byte) ∧
      String.utf8EncodeChar (unescapeChar character) =
        unescapeByte first :: more := by
  by_cases ascii : character.toNat < 128
  · obtain ⟨byte, encoded, same⟩ := utf8EncodeChar_of_lt ascii
    refine ⟨byte, [], encoded, nofun, ?_⟩
    rw [unescapeByte, same]
    unfold unescapeChar
    split
    · rfl
    · rfl
    · rfl
    · rfl
    · first
        | exact encoded
        | split <;> first | contradiction | exact encoded
  · rw [Nat.not_lt] at ascii
    obtain ⟨first, second, more, encoded, ⟨-, wide⟩, further⟩ :=
      utf8EncodeChar_of_le ascii
    refine ⟨first, second :: more, encoded, fun byte member =>
      isPlain_of_le ?_, ?_⟩
    · rw [toNat_byteChar]
      exact (further byte member).2
    · have firstSame : unescapeByte first = first := by
        rw [← toNat_byteChar] at wide
        unfold unescapeByte
        split
        all_goals
          first
          | rfl
          | next same => rw [same] at wide; exact absurd wide (by decide)
      have same : unescapeChar character = character := by
        unfold unescapeChar
        split
        all_goals first | rfl | exact absurd ascii (by decide)
      rw [same, firstSame, encoded]

theorem comes_stringTurns (stands : reader.At position characters)
    (reversed : List UInt8) : ∀ turns,
    Comes (loop stringTurn turns reversed) reader
      (stringOutcome reader position reversed characters) := by
  fun_induction stringContents? characters
    generalizing reader position reversed with
  | case1 =>
      refine Comes.loop_fail ((Comes.take?_none stands.next?_nil).bind ?_)
      refine .look ?_
      rw [stands.place]
      exact .throw _
  | case2 after =>
      obtain ⟨byte, found, heads⟩ := stands.exists_next
      have quote : byteChar byte = '"' := (heads.eq_iff (by decide)).mpr rfl
      cases heads with
      | wide wide => exact absurd wide (by decide)
      | alone encoded =>
          have same : stringOutcome reader position reversed ('"' :: after) =
              .ok (reversed.reverse, reader.after byte) := by
            rw [stringOutcome, stringContents?]
            show Except.ok (reversed.reverse ++ [],
              reader.afterAll (utf8 ['"'])) = _
            rw [List.append_nil, utf8_singleton, encoded]
            rfl
          rw [same]
          refine Comes.loop_leave ((Comes.take? found).bind ?_)
          dsimp only
          rw [if_pos quote]
          exact .pure _
  | case3 =>
      obtain ⟨byte, found, heads⟩ := stands.exists_next
      have mark : byteChar byte = '\\' := (heads.eq_iff (by decide)).mpr rfl
      cases heads with
      | wide wide => exact absurd wide (by decide)
      | alone encoded =>
          have behind := stands.afterByte encoded
          refine Comes.loop_fail ((Comes.take? found).bind ?_)
          dsimp only
          rw [mark, if_neg (by decide), if_pos rfl]
          refine (Comes.take?_none behind.next?_nil).bind (.look ?_)
          rw [behind.place]
          exact .throw _
  | case4 escaped after ih =>
      obtain ⟨first, more, encoded, plain, stood⟩ :=
        utf8EncodeChar_escaped escaped
      obtain ⟨byte, found, heads⟩ := stands.exists_next
      have mark : byteChar byte = '\\' := (heads.eq_iff (by decide)).mpr rfl
      cases heads with
      | wide wide => exact absurd wide (by decide)
      | alone alone =>
          have bytes := (stands.afterByte alone).bytes
          rw [utf8_cons, encoded, List.cons_append] at bytes
          obtain ⟨second, behind⟩ := next?_of_drop bytes
          have reached : reader.afterAll (utf8 ['\\', escaped]) =
              ((reader.after byte).after first).afterAll more := by
            rw [utf8_cons, utf8_singleton, alone, encoded]
            rfl
          have inside : reader.At position (['\\', escaped] ++ after) :=
            stands
          have further := ih inside.afterAll
            ((String.utf8EncodeChar (unescapeChar escaped)).reverse ++
              reversed)
          rw [stringOutcome_append ['\\', escaped]
            (by rw [List.cons_append, List.cons_append, stringContents?]; rfl),
            reached, stood, List.reverse_cons, List.append_assoc] at further
          refine Comes.loop_again ((Comes.take? found).bind ?_)
            (comes_plainBytes plain behind _ further)
          dsimp only
          rw [mark, if_neg (by decide), if_pos rfl]
          exact (Comes.take? second).bind (.pure _)
  | case5 character after notQuote notLast notEscape ih =>
      have plain : ∀ byte ∈ String.utf8EncodeChar character, IsPlain byte :=
        forall_isPlain (fun same => notQuote same)
        (fun same => by
          cases after with
          | nil => exact notLast same rfl
          | cons escaped after => exact notEscape escaped after same rfl)
      have bytes := stands.bytes
      rw [utf8_cons] at bytes
      have inside : reader.At position ([character] ++ after) := stands
      have further := ih inside.afterAll
        ((String.utf8EncodeChar character).reverse ++ reversed)
      rw [stringOutcome_append [character]
        (by
          rw [List.singleton_append, stringContents?]
          · rfl
          · exact notQuote
          · exact notLast
          · exact notEscape),
        utf8_singleton] at further
      exact comes_plainBytes plain bytes reversed further

/-- A string is read as its token. -/
theorem comes_readString (stands : reader.At position ('"' :: characters))
    (turns : Nat) :
    Comes (readString turns position) reader
      (match stringContents? characters with
      | none => .error ⟨.unexpectedEnd, position.advance ('"' :: characters)⟩
      | some (contents, length) =>
          .ok (.atom (.ofSpan ⟨position, lastPosition position
              ('"' :: characters.take length)⟩)
            (.string (String.ofList contents)),
            reader.afterAll (utf8 ('"' :: characters.take length)))) := by
  obtain ⟨byte, found, heads⟩ := stands.exists_next
  cases heads with
  | wide wide => exact absurd wide (by decide)
  | alone encoded =>
      have rest := comes_stringTurns (stands.afterByte encoded) [] turns
      refine (Comes.take found).bind ?_
      rw [stringOutcome] at rest
      cases read : stringContents? characters with
      | none =>
          rw [read] at rest
          exact rest.fail
      | some pair =>
          obtain ⟨contents, length⟩ := pair
          have reached : (reader.after byte).afterAll
              (utf8 (characters.take length)) =
              reader.afterAll (utf8 ('"' :: characters.take length)) := by
            rw [utf8_cons, encoded]
            rfl
          have ends : reader.At position
              (('"' :: characters.take length) ++ characters.drop length) := by
            rw [List.cons_append, List.take_append_drop]
            exact stands
          rw [read] at rest
          dsimp only at rest ⊢
          rw [reached] at rest
          refine rest.bind ?_
          rw [List.reverse_nil, List.nil_append, decodedText,
            decodedChars_utf8, ← ends.last (List.cons_ne_nil _ _)]
          exact .finish _ _

end ByteReader

end FormCompiler
