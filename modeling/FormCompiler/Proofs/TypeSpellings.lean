import Mathlib.Data.List.Induction
import FormCompiler.Proofs.DoubleText
import FormCompiler.Proofs.EmitStates
import FormCompiler.Proofs.TypeTables
import FormCompiler.Types.Spelling

/-!
# Spellings of types

Two types of a table never have the same spelling.  Spellings are read from
their right end, because that is where a type shows what it is: a pointer ends
in a star, a function type in a round bracket, and so on, and a type that ends
in none of the marks is a single word.  Taking off the end leaves the parts of
the type, with something in front of them that cannot belong to them: a part
stands at the start, behind a blank or behind a round bracket.

A table that was built step by step holds every kind once, and makes every
type of earlier types.  So equal kinds are equal types, and the parts of a
type are found before the type.
-/

namespace FormCompiler

/-! ## Ends of texts -/

/-- A text is empty or ends in a character of a sort. -/
def EndsIn (isStop : Char → Bool) (text : List Char) : Prop :=
  ∀ last ∈ text.getLast?, isStop last = true

/-- No character of a text is of a sort. -/
def FreeOf (isStop : Char → Bool) (text : List Char) : Prop :=
  ∀ character ∈ text, isStop character = false

theorem FreeOf.mono {isStop isOther : Char → Bool} {text : List Char}
    (free : FreeOf isStop text)
    (stops : ∀ character, isOther character = true →
      isStop character = true) : FreeOf isOther text := by
  intro character member
  by_contra other
  have stop := stops character (Bool.of_not_eq_false other)
  rw [free character member] at stop
  cases stop

/-- What follows the last stop of a text is determined by the text. -/
theorem append_inj_of_free {isStop : Char → Bool}
    {left right first second : List Char} (leftEnds : EndsIn isStop left)
    (rightEnds : EndsIn isStop right) (firstFree : FreeOf isStop first)
    (secondFree : FreeOf isStop second)
    (same : left ++ first = right ++ second) :
    left = right ∧ first = second := by
  -- Whatever one of the two starts behind the other ends in a stop.
  have nothing {before between after : List Char}
      (ends : EndsIn isStop (before ++ between))
      (free : FreeOf isStop (between ++ after)) : between = [] := by
    rcases List.eq_nil_or_concat between with empty | ⟨rest, last, rfl⟩
    · exact empty
    · have stop := ends last (by simp)
      rw [free last (by simp)] at stop
      cases stop
  rcases List.append_eq_append_iff.mp same with
    ⟨between, rfl, rfl⟩ | ⟨between, rfl, rfl⟩
  · rw [nothing rightEnds firstFree]
    simp
  · rw [nothing leftEnds secondFree]
    simp

theorem endsIn_append_singleton {isStop : Char → Bool} {text : List Char}
    {last : Char} (stop : isStop last = true) :
    EndsIn isStop (text ++ [last]) := by
  intro found member
  rw [List.getLast?_concat, Option.mem_some_iff] at member
  exact member ▸ stop

/-! ## Quoted names -/

theorem hexDigit_inj {first second : Nat} (firstSmall : first < 16)
    (secondSmall : second < 16) (same : hexDigit first = hexDigit second) :
    first = second := by
  have each : ∀ left right : Fin 16, hexDigit left = hexDigit right →
      left = right := by decide
  exact congrArg Fin.val
    (each ⟨first, firstSmall⟩ ⟨second, secondSmall⟩ same)

/-- A byte is written as one plain character, or behind a backslash. -/
theorem escapedByte_cases (byte : UInt8) :
    (∃ character, escapedByte byte = [character] ∧ character ≠ '"' ∧
      character ≠ '\\' ∧ character.toNat = byte.toNat) ∨
    (escapedByte byte = ['\\', hexDigit (byte.toNat / 16),
      hexDigit (byte.toNat % 16)]) := by
  unfold escapedByte
  dsimp only
  split
  · next plain =>
      have valid : (Char.ofNat byte.toNat).toNat = byte.toNat := by
        have isCode : byte.toNat.isValidChar := .inl (by omega)
        rw [Char.ofNat, dif_pos isCode]
        rfl
      refine .inl ⟨_, rfl, ?_, ?_, valid⟩
      · intro same
        exact plain.2.2.1 (valid.symm.trans (congrArg Char.toNat same))
      · intro same
        exact plain.2.2.2 (valid.symm.trans (congrArg Char.toNat same))
  · exact .inr rfl

theorem escapedBytes_inj {first second : List UInt8}
    (same : first.flatMap escapedByte = second.flatMap escapedByte) :
    first = second := by
  induction first generalizing second with
  | nil =>
      cases second with
      | nil => rfl
      | cons byte bytes =>
          rcases escapedByte_cases byte with ⟨_, written, -⟩ | written <;>
            simp [written] at same
  | cons byte bytes ih =>
      cases second with
      | nil =>
          rcases escapedByte_cases byte with ⟨_, written, -⟩ | written <;>
            simp [written] at same
      | cons other others =>
          rw [List.flatMap_cons, List.flatMap_cons] at same
          rcases escapedByte_cases byte with
            ⟨character, written, -, notEscape, code⟩ | written <;>
          rcases escapedByte_cases other with
            ⟨otherCharacter, otherWritten, -, otherNotEscape, otherCode⟩ |
              otherWritten <;>
          rw [written, otherWritten] at same <;>
          injection same with head tail
          · rw [ih tail, UInt8.toNat_inj.mp (code.symm.trans
              ((congrArg Char.toNat head).trans otherCode))]
          · exact absurd head notEscape
          · exact absurd head.symm otherNotEscape
          · injection tail with high tail
            injection tail with low tail
            have small := byte.toNat_lt
            have otherSmall := other.toNat_lt
            have high := hexDigit_inj (by omega) (by omega) high
            have low := hexDigit_inj (by omega) (by omega) low
            have sameByte : byte = other := UInt8.toNat_inj.mp (by omega)
            rw [ih tail, sameByte]

theorem hexDigit_ne_quote (value : Nat) : hexDigit value ≠ '"' := by
  unfold hexDigit
  by_cases small : value < 16
  · have each : ∀ digit : Fin 16,
        ("0123456789ABCDEF".toList[digit.val]?).getD '0' ≠ '"' := by decide
    exact each ⟨value, small⟩
  · rw [List.getElem?_eq_none (by simpa using small)]
    decide

theorem escapedBytes_free (bytes : List UInt8) :
    FreeOf (· == '"') (bytes.flatMap escapedByte) := by
  intro character member
  obtain ⟨byte, -, member⟩ := List.mem_flatMap.mp member
  rw [beq_eq_false_iff_ne]
  rcases escapedByte_cases byte with ⟨plain, written, notQuote, -⟩ | written
  · rw [written, List.mem_singleton] at member
    exact member ▸ notQuote
  · rw [written] at member
    rcases List.mem_cons.mp member with rfl | member
    · decide
    · rcases List.mem_cons.mp member with rfl | member
      · exact hexDigit_ne_quote _
      · exact List.mem_singleton.mp member ▸ hexDigit_ne_quote _

theorem byteArray_toList_loop (bytes : ByteArray) (index : Nat)
    (read : List UInt8) :
    ByteArray.toList.loop bytes index read =
      read.reverse ++ bytes.data.toList.drop index := by
  induction index, read using ByteArray.toList.loop.induct bytes with
  | case1 index read inside ih =>
      have inside' : index < bytes.data.toList.length := by simpa using inside
      have byte : bytes.get! index = bytes.data.toList[index] := by
        simp only [ByteArray.get!, Array.getElem_toList]
        exact getElem!_pos bytes.data index (by simpa using inside)
      rw [ByteArray.toList.loop, if_pos inside, ih,
        List.drop_eq_getElem_cons inside', byte]
      simp
  | case2 index read outside =>
      rw [ByteArray.toList.loop, if_neg outside,
        List.drop_eq_nil_of_le (by simpa using outside), List.append_nil]

theorem utf8Bytes_inj {first second : String}
    (same : utf8Bytes first = utf8Bytes second) : first = second := by
  unfold utf8Bytes ByteArray.toList at same
  rw [byteArray_toList_loop, byteArray_toList_loop] at same
  exact String.toByteArray_inj.mp
    (ByteArray.ext (Array.toList_inj.mp (by simpa using same)))

/-! ## What is spelled apart -/

/-- Types and other items of a list stand behind a blank or a round
bracket. -/
def isOpener (character : Char) : Bool := character == ' ' || character == '('

/-- The spelling of an item at the end of a text determines the item and the
text before it. -/
def Apart {Item : Type} (spell : Item → List Char) (known : Item → Prop)
    (item : Item) : Prop :=
  ∀ other left right, known other → EndsIn isOpener left →
    EndsIn isOpener right → left ++ spell item = right ++ spell other →
      left = right ∧ item = other

/-- A spelling is not empty, and ends in nothing that could stand in front of
an item. -/
def EndsItem (text : List Char) : Prop :=
  ∃ before last, text = before ++ [last] ∧ isOpener last = false

/-- Items with commas between them. -/
def listed (texts : List (List Char)) : List Char :=
  [',', ' '].intercalate texts

/-- What stands in front of the last item. -/
def ahead (texts : List (List Char)) : List Char :=
  if texts = [] then [] else listed texts ++ [',', ' ']

theorem listed_concat (texts : List (List Char)) (last : List Char) :
    listed (texts ++ [last]) = ahead texts ++ last := by
  unfold listed ahead
  induction texts with
  | nil => simp
  | cons text texts ih =>
      cases texts with
      | nil => simp [listed]
      | cons next texts =>
          rw [List.cons_append, List.cons_append,
            List.intercalate_cons_cons, ← List.cons_append, ih]
          simp [List.intercalate_cons_cons, listed]

theorem endsIn_ahead {left : List Char} (ends : EndsIn isOpener left)
    (texts : List (List Char)) : EndsIn isOpener (left ++ ahead texts) := by
  unfold ahead
  split
  · rwa [List.append_nil]
  · rw [show listed texts ++ [',', ' '] = (listed texts ++ [',']) ++ [' '] by
      simp, ← List.append_assoc]
    exact endsIn_append_singleton rfl

/-- What stands in front of a list: an opener, and no comma in front of
that. -/
def Front (text : List Char) : Prop :=
  ∃ before mark last, text = before ++ [mark, last] ∧
    isOpener last = true ∧ mark ≠ ','

theorem Front.endsIn {text : List Char} (front : Front text) :
    EndsIn isOpener text := by
  obtain ⟨before, mark, last, rfl, opener, -⟩ := front
  rw [show before ++ [mark, last] = (before ++ [mark]) ++ [last] by simp]
  exact endsIn_append_singleton opener

theorem Front.ne_comma {text other : List Char} (front : Front text) :
    text ≠ other ++ [',', ' '] := by
  obtain ⟨before, mark, last, rfl, -, notComma⟩ := front
  intro same
  have ends := (List.append_inj' same rfl).2
  injection ends with comma
  exact notComma comma

theorem Front.ne_append_item {text other item : List Char}
    (front : Front text) (ends : EndsItem item) :
    text ≠ other ++ item := by
  obtain ⟨before, last, rfl, notOpener⟩ := ends
  rintro rfl
  have opener := front.endsIn last (by simp)
  rw [notOpener] at opener
  cases opener

/-- A list of items at the end of a text is determined by the text. -/
theorem listed_apart {Item : Type} {spell : Item → List Char}
    {known : Item → Prop} (ends : ∀ item, known item → EndsItem (spell item))
    {items others : List Item} (apart : ∀ item ∈ items, Apart spell known item)
    (knownItems : ∀ item ∈ items, known item)
    (knownOthers : ∀ other ∈ others, known other) {left right : List Char}
    (leftFront : Front left) (rightFront : Front right)
    (same : left ++ listed (items.map spell) =
      right ++ listed (others.map spell)) :
    left = right ∧ items = others := by
  -- A list that is empty ends in what stands in front of it.
  have notEmpty {front other : List Char} {more : List Item} {last : Item}
      (isFront : Front front) (isKnown : known last) :
      front ++ listed (([] : List Item).map spell) ≠
        other ++ listed ((more ++ [last]).map spell) := by
    rw [List.map_append, List.map_singleton, listed_concat,
      ← List.append_assoc, List.map_nil, listed, List.intercalate_nil,
      List.append_nil]
    exact isFront.ne_append_item (ends last isKnown)
  induction items using List.reverseRecOn generalizing others with
  | nil =>
      rcases List.eq_nil_or_concat' others with rfl | ⟨others, other, rfl⟩
      · exact ⟨List.append_cancel_right same, rfl⟩
      · exact absurd same
          (notEmpty leftFront (knownOthers other (by simp)))
  | append_singleton items item ih =>
      rcases List.eq_nil_or_concat' others with rfl | ⟨others, other, rfl⟩
      · exact absurd same.symm
          (notEmpty rightFront (knownItems item (by simp)))
      · rw [List.map_append, List.map_singleton, listed_concat,
          ← List.append_assoc, List.map_append, List.map_singleton,
          listed_concat, ← List.append_assoc] at same
        obtain ⟨front, rfl⟩ := apart item (by simp) other _ _
          (knownOthers other (by simp)) (endsIn_ahead leftFront.endsIn _)
          (endsIn_ahead rightFront.endsIn _) same
        -- What stands in front of the last item is a list again, or nothing.
        unfold ahead at front
        simp only [List.map_eq_nil_iff] at front
        split at front <;> split at front
        · next none noneToo =>
            subst none noneToo
            exact ⟨List.append_cancel_right front, rfl⟩
        · rw [List.append_nil, ← List.append_assoc] at front
          exact absurd front leftFront.ne_comma
        · rw [List.append_nil, ← List.append_assoc] at front
          exact absurd front.symm rightFront.ne_comma
        · rw [← List.append_assoc, ← List.append_assoc] at front
          obtain ⟨start, rfl⟩ := ih
            (fun item member => apart item (by simp [member]))
            (fun item member => knownItems item (by simp [member]))
            (fun other member => knownOthers other (by simp [member]))
            (List.append_cancel_right front)
          exact ⟨start, rfl⟩

/-! ## Kinds -/

namespace TypeKind

/-- Fields between braces, which stand apart from fields. -/
def braced (texts : List (List Char)) : List Char :=
  if texts = [] then ['\x7b', '\x7d']
  else ['\x7b', ' '] ++ listed texts ++ [' ', '\x7d']

/-- The spelling of a kind, given the spelling of its parts. -/
def chars (spell : TypeId → List Char) : TypeKind → List Char
  | .void => ['v', 'o', 'i', 'd']
  | .int bits => 'i' :: Nat.toDigits 10 bits
  | .float => ['f', 'l', 'o', 'a', 't']
  | .double => ['d', 'o', 'u', 'b', 'l', 'e']
  | .pointer pointee => spell pointee ++ ['*']
  | .array element length =>
      '[' :: Nat.toDigits 10 length ++ [' ', 'x', ' '] ++ spell element ++ [']']
  | .struct fields => braced (fields.map spell)
  | .named name =>
      '%' :: if isPlainName isStructNameChar name.toList then name.toList
        else ['"'] ++ (utf8Bytes name).flatMap escapedByte ++ ['"']
  | .function result parameters variadic =>
      spell result ++ [' ', '('] ++
        listed (parameters.map spell ++
          if variadic then [['.', '.', '.']] else []) ++ [')']
  | .label => ['l', 'a', 'b', 'e', 'l']
  | .token => ['t', 'o', 'k', 'e', 'n']

theorem chars_congr {kind : TypeKind} {spell other : TypeId → List Char}
    (same : ∀ part ∈ kind.parts, spell part = other part) :
    kind.chars spell = kind.chars other := by
  cases kind with
  | pointer pointee => rw [chars, chars, same pointee (by simp [parts])]
  | array element length =>
      rw [chars, chars, same element (by simp [parts])]
  | struct fields =>
      have sameFields : fields.map spell = fields.map other :=
        List.map_congr_left same
      rw [chars, chars, sameFields]
  | function result parameters variadic =>
      rw [chars, chars, same result (by simp [parts]),
        List.map_congr_left fun parameter member =>
          same parameter (by simp [parts, member])]
  | _ => rfl

/-- The character that shows at the end what a type is made of.  Other types
are words. -/
def mark? : TypeKind → Option Char
  | .pointer _ => some '*'
  | .array .. => some ']'
  | .struct _ => some '\x7d'
  | .named name =>
      if isPlainName isStructNameChar name.toList then none else some '"'
  | .function .. => some ')'
  | .void | .int _ | .float | .double | .label | .token => none

/-- Characters that no word holds. -/
def marks : List Char := [' ', '(', '*', ']', '\x7d', '"', ')']

def isMark (character : Char) : Bool := marks.contains character

theorem not_isMark {isPlain : Char → Bool} {character : Char}
    (noMark : ∀ mark ∈ marks, isPlain mark = false)
    (plain : isPlain character = true) : isMark character = false := by
  by_contra mark
  have member : character ∈ marks := by simpa [isMark] using mark
  rw [noMark character member] at plain
  cases plain

theorem isMark_of_isOpener {character : Char}
    (opener : isOpener character = true) : isMark character = true := by
  rcases Bool.or_eq_true_iff.mp opener with same | same <;>
    rw [eq_of_beq same] <;> rfl

theorem chars_of_mark (spell : TypeId → List Char) {kind : TypeKind}
    {mark : Char} (found : kind.mark? = some mark) :
    ∃ before, kind.chars spell = before ++ [mark] := by
  cases kind with
  | struct fields =>
      cases found
      rw [chars, braced]
      split
      · exact ⟨['\x7b'], rfl⟩
      · exact ⟨['\x7b', ' '] ++ listed (fields.map spell) ++ [' '], by simp⟩
  | named name =>
      by_cases plain : isPlainName isStructNameChar name.toList = true
      · rw [mark?, if_pos plain] at found
        cases found
      · rw [mark?, if_neg plain] at found
        cases found
        exact ⟨'%' :: ('"' :: (utf8Bytes name).flatMap escapedByte),
          by simp [chars, plain]⟩
  | pointer _ => cases found; exact ⟨_, rfl⟩
  | array _ _ => cases found; exact ⟨_, rfl⟩
  | function _ _ _ => cases found; exact ⟨_, rfl⟩
  | _ => cases found

theorem mark_cases {kind : TypeKind} {mark : Char}
    (found : kind.mark? = some mark) :
    isMark mark = true ∧ isOpener mark = false := by
  cases kind with
  | named name =>
      by_cases plain : isPlainName isStructNameChar name.toList = true
      · rw [mark?, if_pos plain] at found
        cases found
      · rw [mark?, if_neg plain] at found
        cases found
        decide
  | _ => cases found <;> decide

/-- A type that ends in no mark is a word, which does not depend on the
spelling of other types. -/
theorem chars_of_no_mark (spell : TypeId → List Char) {kind : TypeKind}
    (found : kind.mark? = none) :
    kind.chars spell ≠ [] ∧ FreeOf isMark (kind.chars spell) := by
  cases kind with
  | int bits =>
      have noDigit : ∀ mark ∈ marks, mark.isDigit = false := by
        simp [marks]
      refine ⟨List.cons_ne_nil _ _, ?_⟩
      intro character member
      rcases List.mem_cons.mp member with rfl | member
      · decide
      · exact not_isMark noDigit (isDigit_of_mem_toDigits member)
  | named name =>
      by_cases plain : isPlainName isStructNameChar name.toList = true
      · have noPlain : ∀ mark ∈ marks, isStructNameChar mark = false := by
          simp [marks, isStructNameChar]
        refine ⟨List.cons_ne_nil _ _, ?_⟩
        intro character member
        rw [chars, if_pos plain] at member
        rcases List.mem_cons.mp member with rfl | member
        · decide
        · have all : name.toList.all isStructNameChar = true := by
            unfold isPlainName at plain
            split at plain
            · cases plain
            · exact (Bool.and_eq_true_iff.mp plain).2
          exact not_isMark noPlain (List.all_eq_true.mp all _ member)
      · rw [mark?, if_neg plain] at found
        cases found
  | void | float | double | label | token =>
      simp [chars, FreeOf]
      decide
  | _ => cases found

theorem chars_endsItem (spell : TypeId → List Char) (kind : TypeKind) :
    EndsItem (kind.chars spell) := by
  cases found : kind.mark? with
  | some mark =>
      obtain ⟨before, written⟩ := chars_of_mark spell found
      exact ⟨before, mark, written, (mark_cases found).2⟩
  | none =>
      obtain ⟨notEmpty, free⟩ := chars_of_no_mark spell found
      refine ⟨_, _, (List.dropLast_append_getLast notEmpty).symm, ?_⟩
      have plain := free _ (List.getLast_mem notEmpty)
      by_contra opener
      rw [isMark_of_isOpener (Bool.of_not_eq_false opener)] at plain
      cases plain

theorem toDigits_inj {first second : Nat}
    (same : Nat.toDigits 10 first = Nat.toDigits 10 second) :
    first = second := by
  rw [← Nat.toList_repr, ← Nat.toList_repr] at same
  exact Nat.repr_inj.mp (String.toList_inj.mp same)

/-- The words of two types differ. -/
theorem eq_of_word {spell : TypeId → List Char} {kind other : TypeKind}
    (word : kind.mark? = none) (otherWord : other.mark? = none)
    (same : kind.chars spell = other.chars spell) : kind = other := by
  cases kind <;> simp [mark?] at word <;> cases other <;>
    simp [mark?] at otherWord <;> simp [chars] at same ⊢
  case int.int => exact toDigits_inj same
  case named.named =>
    rw [if_pos word, if_pos otherWord] at same
    exact String.toList_inj.mp same

/-- What a type ends in tells how it is made. -/
theorem mark?_eq_of_chars {spell : TypeId → List Char}
    {kind other : TypeKind} {left right : List Char}
    (same : left ++ kind.chars spell = right ++ other.chars spell) :
    kind.mark? = other.mark? := by
  -- A word does not end in a mark.
  have noWord {kind other : TypeKind} {mark : Char} {left right : List Char}
      (found : kind.mark? = some mark) (word : other.mark? = none) :
      left ++ kind.chars spell ≠ right ++ other.chars spell := by
    intro same
    obtain ⟨before, written⟩ := chars_of_mark spell found
    obtain ⟨notEmpty, free⟩ := chars_of_no_mark spell word
    have last := congrArg List.getLast? same
    rw [written, ← List.append_assoc, List.getLast?_concat,
      List.getLast?_append_of_ne_nil _ notEmpty] at last
    have plain := free mark (List.mem_of_getLast? last.symm)
    rw [(mark_cases found).1] at plain
    cases plain
  cases found : kind.mark? with
  | none =>
      cases otherFound : other.mark? with
      | none => rfl
      | some mark => exact absurd same.symm (noWord otherFound found)
  | some mark =>
      cases otherFound : other.mark? with
      | none => exact absurd same (noWord found otherFound)
      | some otherMark =>
          obtain ⟨before, written⟩ := chars_of_mark spell found
          obtain ⟨otherBefore, otherWritten⟩ :=
            chars_of_mark spell otherFound
          rw [written, otherWritten, ← List.append_assoc,
            ← List.append_assoc] at same
          exact congrArg some
            (List.singleton_inj.mp (List.append_inj' same rfl).2)

/-- The items between the brackets of a function type: its parameters, and
nothing for the dots. -/
def items (parameters : List TypeId) (variadic : Bool) : List (Option TypeId) :=
  parameters.map some ++ if variadic then [none] else []

def itemChars (spell : TypeId → List Char) : Option TypeId → List Char
  | none => ['.', '.', '.']
  | some type => spell type

theorem items_inj {parameters others : List TypeId}
    {variadic otherVariadic : Bool}
    (same : items parameters variadic = items others otherVariadic) :
    parameters = others ∧ variadic = otherVariadic := by
  have dots : variadic = otherVariadic := by
    have member := congrArg (none ∈ ·) same
    cases variadic <;> cases otherVariadic <;>
      simp [items] at member ⊢
  subst dots
  exact ⟨List.map_injective_iff.mpr (Option.some_injective _)
    (List.append_cancel_right same), rfl⟩

theorem chars_function (spell : TypeId → List Char) (result : TypeId)
    (parameters : List TypeId) (variadic : Bool) :
    (TypeKind.function result parameters variadic).chars spell =
      spell result ++ [' ', '('] ++
        listed ((items parameters variadic).map (itemChars spell)) ++
          [')'] := by
  cases variadic <;> simp [chars, items, itemChars, Function.comp_def]

/-- No type is spelled as the dots of a function type. -/
theorem chars_ne_dots (spell : TypeId → List Char) (kind : TypeKind)
    {left right : List Char} (leftEnds : EndsIn isOpener left)
    (rightEnds : EndsIn isOpener right) :
    left ++ kind.chars spell ≠ right ++ ['.', '.', '.'] := by
  intro same
  cases found : kind.mark? with
  | some mark =>
      obtain ⟨before, written⟩ := chars_of_mark spell found
      rw [written, ← List.append_assoc,
        show ['.', '.', '.'] = ['.', '.'] ++ ['.'] from rfl,
        ← List.append_assoc] at same
      have isDot := List.singleton_inj.mp (List.append_inj' same rfl).2
      have isMark := (mark_cases found).1
      rw [isDot] at isMark
      exact absurd isMark (by decide)
  | none =>
      have word := (append_inj_of_free leftEnds rightEnds
        ((chars_of_no_mark spell found).2.mono
          fun _ => isMark_of_isOpener) (by simp [FreeOf, isOpener]) same).2
      cases kind <;> first | (simp [chars] at word; done) | cases found

section Parts

variable {spell : TypeId → List Char} {known : TypeId → Prop}
  (spelled : ∀ type, known type → ∃ kind : TypeKind,
    spell type = kind.chars spell)

include spelled in
theorem items_apart {item : Option TypeId}
    (apart : ∀ type ∈ item, Apart spell known type)
    (isKnown : ∀ type ∈ item, known type) :
    Apart (itemChars spell) (fun item => ∀ type ∈ item, known type) item := by
  intro other left right knownOther leftEnds rightEnds same
  cases item with
  | none =>
      cases other with
      | none => exact ⟨List.append_cancel_right same, rfl⟩
      | some type =>
          obtain ⟨kind, written⟩ := spelled type (knownOther type rfl)
          rw [itemChars, itemChars, written] at same
          exact absurd same.symm (chars_ne_dots spell kind rightEnds leftEnds)
  | some type =>
      cases other with
      | none =>
          obtain ⟨kind, written⟩ := spelled type (isKnown type rfl)
          rw [itemChars, itemChars, written] at same
          exact absurd same (chars_ne_dots spell kind leftEnds rightEnds)
      | some otherType =>
          obtain ⟨front, rfl⟩ := apart type rfl otherType left right
            (knownOther otherType rfl) leftEnds rightEnds same
          exact ⟨front, rfl⟩

include spelled in
theorem items_endsItem (item : Option TypeId)
    (isKnown : ∀ type ∈ item, known type) :
    EndsItem (itemChars spell item) := by
  cases item with
  | none => exact ⟨['.', '.'], '.', rfl, rfl⟩
  | some type =>
      obtain ⟨kind, written⟩ := spelled type (isKnown type rfl)
      rw [itemChars, written]
      exact chars_endsItem spell kind

theorem array_apart {element otherElement : TypeId}
    {length otherLength : Nat} (apart : Apart spell known element)
    (isKnown : known otherElement) {left right : List Char}
    (same : left ++ (array element length).chars spell =
      right ++ (array otherElement otherLength).chars spell) :
    left = right ∧ element = otherElement ∧ length = otherLength := by
  have shape (front : List Char) (element : TypeId) (length : Nat) :
      front ++ (array element length).chars spell =
        (front ++ ['['] ++ Nat.toDigits 10 length ++ [' ', 'x'] ++ [' ']) ++
          spell element ++ [']'] := by
    simp [chars]
  have digits (length : Nat) : FreeOf (· == '[') (Nat.toDigits 10 length) := by
    intro character member
    rw [beq_eq_false_iff_ne]
    rintro rfl
    exact absurd (isDigit_of_mem_toDigits member) (by decide)
  rw [shape, shape] at same
  obtain ⟨front, rfl⟩ := apart otherElement _ _ isKnown
    (endsIn_append_singleton rfl) (endsIn_append_singleton rfl)
    (List.append_cancel_right same)
  obtain ⟨start, sameDigits⟩ := append_inj_of_free
    (endsIn_append_singleton rfl) (endsIn_append_singleton rfl)
    (digits length) (digits otherLength)
    (List.append_cancel_right (List.append_cancel_right front))
  exact ⟨List.append_cancel_right start, rfl, toDigits_inj sameDigits⟩

include spelled in
theorem struct_apart {fields others : List TypeId}
    (apart : ∀ field ∈ fields, Apart spell known field)
    (knownFields : ∀ field ∈ fields, known field)
    (knownOthers : ∀ other ∈ others, known other) {left right : List Char}
    (same : left ++ (struct fields).chars spell =
      right ++ (struct others).chars spell) :
    left = right ∧ fields = others := by
  have wide (front : List Char) {fields : List TypeId} (some : fields ≠ []) :
      front ++ (struct fields).chars spell =
        (front ++ ['\x7b', ' ']) ++ listed (fields.map spell) ++
          [' ', '\x7d'] := by
    simp [chars, braced, some]
  have narrow {left right : List Char} {fields : List TypeId}
      (some : fields ≠ []) :
      left ++ (struct []).chars spell ≠
        right ++ (struct fields).chars spell := by
    rw [wide right some]
    intro same
    have ends := (List.append_inj' same rfl).2
    cases ends
  have front (text : List Char) : Front (text ++ ['\x7b', ' ']) :=
    ⟨text, '\x7b', ' ', rfl, rfl, by decide⟩
  have ends (type : TypeId) (isKnown : known type) : EndsItem (spell type) := by
    obtain ⟨kind, written⟩ := spelled type isKnown
    exact written ▸ chars_endsItem spell kind
  by_cases none : fields = []
  · by_cases noneToo : others = []
    · subst none noneToo
      exact ⟨List.append_cancel_right same, rfl⟩
    · subst none
      exact absurd same (narrow noneToo)
  · by_cases noneToo : others = []
    · subst noneToo
      exact absurd same.symm (narrow none)
    · rw [wide left none, wide right noneToo] at same
      obtain ⟨start, rfl⟩ := listed_apart ends apart knownFields knownOthers
        (front left) (front right) (List.append_cancel_right same)
      exact ⟨List.append_cancel_right start, rfl⟩

theorem named_apart {name other : String}
    (quoted : isPlainName isStructNameChar name.toList = false)
    (otherQuoted : isPlainName isStructNameChar other.toList = false)
    {left right : List Char}
    (same : left ++ (named name).chars spell =
      right ++ (named other).chars spell) :
    left = right ∧ name = other := by
  have shape (front : List Char) {name : String}
      (quoted : isPlainName isStructNameChar name.toList = false) :
      front ++ (named name).chars spell = (front ++ ['%'] ++ ['"']) ++
        (utf8Bytes name).flatMap escapedByte ++ ['"'] := by
    simp [chars, quoted]
  rw [shape left quoted, shape right otherQuoted] at same
  obtain ⟨front, sameName⟩ := append_inj_of_free
    (endsIn_append_singleton rfl) (endsIn_append_singleton rfl)
    (escapedBytes_free _) (escapedBytes_free _)
    (List.append_cancel_right same)
  exact ⟨List.append_cancel_right (List.append_cancel_right front),
    utf8Bytes_inj (escapedBytes_inj sameName)⟩

include spelled in
theorem function_apart {result otherResult : TypeId}
    {parameters others : List TypeId} {variadic otherVariadic : Bool}
    (apart : ∀ part ∈ result :: parameters, Apart spell known part)
    (knownParts : ∀ part ∈ result :: parameters, known part)
    (knownOthers : ∀ part ∈ otherResult :: others, known part)
    {left right : List Char} (leftEnds : EndsIn isOpener left)
    (rightEnds : EndsIn isOpener right)
    (same : left ++ (function result parameters variadic).chars spell =
      right ++ (function otherResult others otherVariadic).chars spell) :
    left = right ∧ result = otherResult ∧ parameters = others ∧
      variadic = otherVariadic := by
  have shape (front : List Char) (result : TypeId)
      (parameters : List TypeId) (variadic : Bool) :
      front ++ (function result parameters variadic).chars spell =
        (front ++ spell result ++ [' ', '(']) ++
          listed ((items parameters variadic).map (itemChars spell)) ++
            [')'] := by
    rw [chars_function]
    simp
  have front (text : List Char) : Front (text ++ [' ', '(']) :=
    ⟨text, ' ', '(', rfl, rfl, by decide⟩
  have typeOf {parameters : List TypeId} {variadic : Bool}
      {item : Option TypeId} (member : item ∈ items parameters variadic) :
      ∀ type ∈ item, type ∈ parameters := by
    rintro type rfl
    cases variadic <;> simpa [items] using member
  rw [shape, shape] at same
  obtain ⟨start, sameItems⟩ := listed_apart (items_endsItem spelled)
    (fun item member => items_apart spelled
      (fun type isType => apart type
        (List.mem_cons_of_mem _ (typeOf member type isType)))
      (fun type isType => knownParts type
        (List.mem_cons_of_mem _ (typeOf member type isType))))
    (fun item member type isType => knownParts type
      (List.mem_cons_of_mem _ (typeOf member type isType)))
    (fun item member type isType => knownOthers type
      (List.mem_cons_of_mem _ (typeOf member type isType)))
    (front _) (front _) (List.append_cancel_right same)
  obtain ⟨sameFront, rfl⟩ := apart result (by simp) otherResult left right
    (knownOthers otherResult (by simp)) leftEnds rightEnds
    (List.append_cancel_right start)
  obtain ⟨rfl, rfl⟩ := items_inj sameItems
  exact ⟨sameFront, rfl, rfl, rfl⟩

include spelled in
/-- A kind at the end of a text is determined by the text, as its parts
are. -/
theorem chars_apart {kind other : TypeKind}
    (apart : ∀ part ∈ kind.parts, Apart spell known part)
    (knownParts : ∀ part ∈ kind.parts, known part)
    (knownOther : ∀ part ∈ other.parts, known part)
    {left right : List Char} (leftEnds : EndsIn isOpener left)
    (rightEnds : EndsIn isOpener right)
    (same : left ++ kind.chars spell = right ++ other.chars spell) :
    left = right ∧ kind = other := by
  have sameMark := mark?_eq_of_chars same
  cases found : kind.mark? with
  | none =>
      have word {kind : TypeKind} (found : kind.mark? = none) :
          FreeOf isOpener (kind.chars spell) :=
        (chars_of_no_mark spell found).2.mono fun _ => isMark_of_isOpener
      have otherFound := sameMark.symm.trans found
      obtain ⟨front, sameWord⟩ := append_inj_of_free leftEnds rightEnds
        (word found) (word otherFound) same
      exact ⟨front, eq_of_word found otherFound sameWord⟩
  | some mark =>
      -- The same mark stands for the same way to make a type.
      have some : kind.mark? ≠ none := by simp [found]
      cases kind <;> cases other <;> simp [mark?] at sameMark some
      case some.pointer.pointer pointee otherPointee =>
        rw [chars, chars, ← List.append_assoc, ← List.append_assoc] at same
        obtain ⟨front, rfl⟩ := apart pointee (by simp [parts])
          otherPointee left right (knownOther _ (by simp [parts])) leftEnds
          rightEnds (List.append_cancel_right same)
        exact ⟨front, rfl⟩
      case some.array.array =>
        obtain ⟨front, rfl, rfl⟩ := array_apart
          (apart _ (by simp [parts])) (knownOther _ (by simp [parts])) same
        exact ⟨front, rfl⟩
      case some.struct.struct =>
        obtain ⟨front, rfl⟩ :=
          struct_apart spelled apart knownParts knownOther same
        exact ⟨front, rfl⟩
      case some.named.named =>
        obtain ⟨front, rfl⟩ := named_apart some (by simpa [some] using sameMark)
          same
        exact ⟨front, rfl⟩
      case some.function.function =>
        obtain ⟨front, rfl, rfl, rfl⟩ := function_apart spelled apart
          knownParts knownOther leftEnds rightEnds same
        exact ⟨front, rfl⟩
      -- No quoted name is a word.
      all_goals
        rw [some] at sameMark
        cases sameMark

end Parts

end TypeKind

theorem fieldTexts_toList (spell : TypeId → String) (fields : List TypeId) :
    (fieldTexts (fields.map spell)).toList =
      (TypeKind.struct fields).chars fun type => (spell type).toList := by
  unfold fieldTexts
  cases fields <;> simp [TypeKind.chars, TypeKind.braced, listed,
    String.toList_intercalate, Function.comp_def]

namespace TypeTable

/-- One level of a spelling. -/
theorem spellWithin_toList (table : TypeTable) (depth : Nat) (type : TypeId) :
    (table.spellWithin (depth + 1) type).toList =
      (table.kind type).chars fun part =>
        (table.spellWithin depth part).toList := by
  rw [spellWithin]
  cases table.kind type with
  | struct fields => exact fieldTexts_toList (table.spellWithin depth) fields
  | named name =>
      simp only [TypeKind.chars, identifierText]
      split <;> simp [escapedBytes]
  | function result parameters variadic =>
      cases variadic <;>
        simp [TypeKind.chars, parameterTexts, listed,
          String.toList_intercalate, Function.comp_def]
  | _ => simp [TypeKind.chars]

/-! ## Tables built step by step -/

/-- A table that is built by adding kinds of types that it holds, and by
giving bodies to named structs. -/
inductive Reached : TypeTable → Prop where
  | empty : Reached .empty
  | intern {table : TypeTable} {kind : TypeKind} (reached : Reached table)
      (parts : ∀ part ∈ kind.parts, table.Has part) :
      Reached (TypeTable.intern kind table).2
  | setBody {table : TypeTable} (type : TypeId) (fields : List TypeId)
      (reached : Reached table) :
      Reached (TypeTable.setBody type fields table).2

instance (table : TypeTable) (type : TypeId) : Decidable (table.Has type) :=
  inferInstanceAs (Decidable (_ < _))

/-- Every kind stands in a table once, behind its parts. -/
structure Layered (table : TypeTable) : Prop where
  once : table.kinds.Nodup
  below : ∀ type, table.Has type → ∀ part ∈ (table.kind type).parts,
    part.index < type.index

theorem Layered.has_part {table : TypeTable} (layered : table.Layered)
    {type part : TypeId} (has : table.Has type)
    (member : part ∈ (table.kind type).parts) : table.Has part :=
  Nat.lt_trans (layered.below type has part member) has

theorem Layered.intern {table : TypeTable} {kind : TypeKind}
    (layered : table.Layered) (parts : ∀ part ∈ kind.parts, table.Has part) :
    (TypeTable.intern kind table).2.Layered := by
  unfold TypeTable.intern
  cases found : table.find? kind with
  | some type => exact layered
  | none =>
      have new : kind ∉ table.kinds := by
        simpa [find?] using found
      refine ⟨?_, ?_⟩
      · exact List.nodup_append.mpr ⟨layered.once, by simp, by
          rintro old member _ (⟨⟩ | ⟨_, ⟨⟩⟩) rfl
          exact new member⟩
      · intro type has part member
        have bound : type.index < table.kinds.length + 1 := by
          simpa [Has] using has
        rcases Nat.lt_succ_iff_lt_or_eq.mp bound with old | last
        · have kept : TypeTable.kind
              { table with kinds := table.kinds ++ [kind] } type =
                table.kind type :=
            Has.kind_kept old (List.prefix_append _ _)
          rw [kept] at member
          exact layered.below type old part member
        · have isKind : TypeTable.kind
              { table with kinds := table.kinds ++ [kind] } type = kind := by
            simp [TypeTable.kind, last]
          rw [isKind] at member
          exact last ▸ parts part member

theorem Reached.layered {table : TypeTable} (reached : table.Reached) :
    table.Layered := by
  induction reached with
  | empty => exact ⟨.nil, fun _ has => absurd has (Nat.not_lt_zero _)⟩
  | intern _ parts ih => exact ih.intern parts
  | setBody type fields _ ih => exact ⟨ih.once, ih.below⟩

/-- Equal kinds are equal types. -/
theorem Layered.kind_inj {table : TypeTable} (layered : table.Layered)
    {first second : TypeId} (hasFirst : table.Has first)
    (hasSecond : table.Has second)
    (same : table.kind first = table.kind second) : first = second := by
  rw [kind, kind, List.getElem?_eq_getElem hasFirst,
    List.getElem?_eq_getElem hasSecond] at same
  have sameIndex := (List.Nodup.getElem_inj_iff layered.once).mp same
  cases first
  cases second
  exact congrArg TypeId.mk sameIndex

/-! ## Spellings of the types of a table -/

/-- The spelling of a type does not depend on the depth that it is read to,
when that reaches its parts. -/
theorem Layered.spellWithin_eq {table : TypeTable} (layered : table.Layered)
    {type : TypeId} (has : table.Has type) {depth other : Nat}
    (enough : type.index < depth) (otherEnough : type.index < other) :
    table.spellWithin depth type = table.spellWithin other type := by
  induction depth generalizing type other with
  | zero => exact absurd enough (Nat.not_lt_zero _)
  | succ depth ih =>
      cases other with
      | zero => exact absurd otherEnough (Nat.not_lt_zero _)
      | succ other =>
          apply String.toList_inj.mp
          rw [spellWithin_toList, spellWithin_toList]
          apply TypeKind.chars_congr
          intro part member
          have below := layered.below type has part member
          have samePart : table.spellWithin depth part =
              table.spellWithin other part :=
            ih (layered.has_part has member) (by omega) (by omega)
          rw [samePart]

/-- A type is spelled as its kind is, with the spelling of its parts. -/
theorem Layered.spell_toList {table : TypeTable} (layered : table.Layered)
    {type : TypeId} (has : table.Has type) :
    (table.spell type).toList =
      (table.kind type).chars fun part => (table.spell part).toList := by
  rw [spell, spellWithin_toList]
  apply TypeKind.chars_congr
  intro part member
  have hasPart := layered.has_part has member
  unfold spell
  rw [layered.spellWithin_eq hasPart hasPart (Nat.lt_succ_of_lt hasPart)]

/-- Every type is spelled apart. -/
theorem Layered.apart {table : TypeTable} (layered : table.Layered)
    {type : TypeId} (has : table.Has type) :
    Apart (fun type => (table.spell type).toList) table.Has type := by
  induction index : type.index using Nat.strong_induction_on
    generalizing type with
  | _ index ih =>
      subst index
      intro other left right hasOther leftEnds rightEnds same
      simp only [layered.spell_toList has,
        layered.spell_toList hasOther] at same
      obtain ⟨front, sameKind⟩ := TypeKind.chars_apart
        (fun type has => ⟨table.kind type, layered.spell_toList has⟩)
        (fun part member => ih part.index (layered.below type has part member)
          (layered.has_part has member) rfl)
        (fun part member => layered.has_part has member)
        (fun part member => layered.has_part hasOther member)
        leftEnds rightEnds same
      exact ⟨front, layered.kind_inj has hasOther sameKind⟩

end TypeTable

/-- Two types of a table that was built step by step are not spelled alike, so
what is said about a type that is not the expected one shows two different
spellings. -/
theorem spelling_injective {table : TypeTable} (reached : table.Reached)
    {first second : TypeId} (hasFirst : table.Has first)
    (hasSecond : table.Has second) :
    (table.spell first = table.spell second → first = second) ∧
      ∀ (what : String) (environment : Environment) (state : EmitState),
        state.table = table → first ≠ second →
          (mismatch what first second : Handler Unit).run environment state =
              (.error (.typeMismatch (what ++ ": expected " ++
                table.spell first ++ ", found " ++ table.spell second)),
                state) ∧
            table.spell first ≠ table.spell second := by
  have injective (same : table.spell first = table.spell second) :
      first = second := by
    have ends : EndsIn isOpener [] := fun last member => by simp at member
    exact (reached.layered.apart hasFirst second [] [] hasSecond ends ends
      (congrArg String.toList same)).2
  refine ⟨injective, ?_⟩
  rintro what environment state rfl different
  exact ⟨rfl, fun same => different (injective same)⟩

/-- A pointer to a function, and the type of a function that gives such a
pointer. -/
theorem spelling_injective_functionPointers :
    let step := fun (table : TypeTable) (kind : TypeKind) =>
      (TypeTable.intern kind table).2
    let table := [.int 8, .function ⟨0⟩ [] false, .pointer ⟨1⟩,
      .named "pair", .function ⟨2⟩ [⟨3⟩] true].foldl step .empty
    table.spell ⟨2⟩ = "i8 ()*" ∧ table.spell ⟨4⟩ = "i8 ()* (%pair, ...)" ∧
      table.Reached ∧ table.Has ⟨2⟩ ∧ table.Has ⟨4⟩ ∧
      table.spell ⟨2⟩ ≠ table.spell ⟨4⟩ := by
  intro step table
  have reached : table.Reached :=
    .intern (.intern (.intern (.intern (.intern .empty
      (by decide)) (by decide)) (by decide)) (by decide)) (by decide)
  have different : (⟨2⟩ : TypeId) ≠ ⟨4⟩ := by decide
  exact ⟨by decide, by decide, reached, by decide, by decide, fun same =>
    different ((spelling_injective reached (by decide) (by decide)).1 same)⟩

end FormCompiler
