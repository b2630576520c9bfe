import FormCompiler.Proofs.DoubleDigits

/-!
# Reading back the text of a double

The text of a finite double is an optional sign and a numeral: digits, then a
fraction or an exponent or both.  Reading a numeral takes its parts apart
again, and since its number lies in the rounding interval of the double, the
double itself is read, with its sign, also where it is zero.
-/

namespace FormCompiler

/-! ## Digits and integers -/

theorem digitsValue_toDigits (number : Nat) :
    digitsValue (Nat.toDigits 10 number) = number :=
  Nat.ofDigitChars_ten_toDigits

theorem digitsValue_append (left right : List Char) :
    digitsValue (left ++ right) =
      10 ^ right.length * digitsValue left + digitsValue right := by
  calc digitsValue (left ++ right)
      = Nat.ofDigitChars 10 right (digitsValue left) :=
        Nat.ofDigitChars_append 0
    _ = 10 ^ right.length * digitsValue left + digitsValue right :=
        Nat.ofDigitChars_eq_ofDigitChars_zero

theorem digitsValue_zeros (count : Nat) :
    digitsValue (List.replicate count '0') = 0 := by
  calc digitsValue (List.replicate count '0')
      = 10 ^ count * 0 := Nat.ofDigitChars_replicate_zero
    _ = 0 := Nat.mul_zero _

theorem isDigit_of_mem_toDigits {number : Nat} {character : Char}
    (member : character ∈ Nat.toDigits 10 number) :
    character.isDigit = true :=
  Nat.isDigit_of_mem_toDigits (by decide) (by decide) member

theorem toString_nat_toList (number : Nat) :
    (toString number).toList = Nat.toDigits 10 number := by
  rw [Nat.toString_eq_repr, Nat.toList_repr]

/-- An integer is written as its digits, after a minus sign where it is
negative. -/
theorem toString_int_toList (number : Int) :
    (toString number).toList =
      if 0 ≤ number then Nat.toDigits 10 number.toNat
      else '-' :: Nat.toDigits 10 (-number).toNat := by
  rw [Int.toString_eq_repr, Int.repr_eq_if]
  split
  · rw [Nat.toList_repr]
  · rw [String.toList_append, Nat.toList_repr]
    rfl

theorem splitSign_of_isDigit {first : Char} {rest : List Char}
    (digit : first.isDigit = true) :
    splitSign (first :: rest) = (false, first :: rest) := by
  unfold splitSign
  split
  · next same => cases same; simp at digit
  · next same => cases same; simp at digit
  · rfl

/-- Taking the sign off a written integer leaves its digits. -/
theorem splitSign_toString_int (number : Int) :
    splitSign (toString number).toList =
      (decide (number < 0), Nat.toDigits 10 number.natAbs) := by
  rw [toString_int_toList]
  split
  · next nonneg =>
      have same : number.toNat = number.natAbs := by omega
      rw [same]
      cases written : Nat.toDigits 10 number.natAbs with
      | nil => exact absurd written Nat.toDigits_ne_nil
      | cons first rest =>
          have member : first ∈ Nat.toDigits 10 number.natAbs := by
            simp [written]
          rw [splitSign_of_isDigit (isDigit_of_mem_toDigits member)]
          simp [nonneg]
  · next negative =>
      have same : (-number).toNat = number.natAbs := by omega
      rw [same]
      simp [splitSign]
      omega

theorem all_isDigit_toDigits (number : Nat) :
    (Nat.toDigits 10 number).all Char.isDigit = true := by
  rw [List.all_eq_true]
  intro character member
  exact isDigit_of_mem_toDigits member

/-- A written integer is read back. -/
theorem parseInt64?_toString (value : Int64) :
    parseInt64? (toString value.toInt).toList = some value := by
  have low := value.minValue_le_toInt
  have high := value.toInt_le
  have lowEq : Int64.minValue.toInt = -9223372036854775808 := by decide
  have highEq : Int64.maxValue.toInt = 9223372036854775807 := by decide
  rw [lowEq] at low
  rw [highEq] at high
  have magnitude : (if decide (value.toInt < 0) = true then
      -((value.toInt.natAbs : Nat) : Int) else (value.toInt.natAbs : Int)) =
        value.toInt := by
    simp only [decide_eq_true_eq]
    split <;> omega
  unfold parseInt64?
  rw [splitSign_toString_int]
  simp only [digitsValue_toDigits, all_isDigit_toDigits, List.isEmpty_iff,
    Nat.toDigits_ne_nil, magnitude, Bool.not_true, Bool.or_false, if_false,
    low, high, and_self, if_true, Int64.ofInt_toInt]

/-- A written exponent is read back. -/
theorem parseExponent?_toString (exponent : Int) :
    parseExponent? ('e' :: (toString exponent).toList) = some exponent := by
  unfold parseExponent?
  simp only
  rw [splitSign_toString_int]
  simp only [digitsValue_toDigits, all_isDigit_toDigits, ne_eq,
    Nat.toDigits_ne_nil, not_false_eq_true, true_or, and_self, if_true,
    decide_eq_true_eq, Option.some.injEq]
  split <;> omega

/-! ## Numerals -/

/-- A numeral: digits, an optional fraction and an optional exponent. -/
structure Numeral where
  whole : List Char
  fraction : Option (List Char)
  exponent : Option Int

namespace Numeral

def chars (numeral : Numeral) : List Char :=
  numeral.whole ++ numeral.fraction.elim [] ('.' :: ·) ++
    numeral.exponent.elim [] fun exponent =>
      'e' :: (toString exponent).toList

def fractionDigits (numeral : Numeral) : List Char :=
  numeral.fraction.getD []

/-- The power of ten that scales all digits of a numeral. -/
def power (numeral : Numeral) : Int :=
  numeral.exponent.getD 0 - numeral.fractionDigits.length

/-- The number that a numeral stands for. -/
def value (numeral : Numeral) : ℚ :=
  decimalValue (digitsValue (numeral.whole ++ numeral.fractionDigits))
    numeral.power

/-- Numerals that no integer is written as. -/
structure IsFloat (numeral : Numeral) : Prop where
  whole_ne : numeral.whole ≠ []
  wholeDigits : ∀ character ∈ numeral.whole, character.isDigit = true
  fractionDigits :
    ∀ character ∈ numeral.fractionDigits, character.isDigit = true
  marked : numeral.fraction.isSome ∨ numeral.exponent.isSome

/-- A numeral starts with a digit. -/
theorem IsFloat.exists_cons {numeral : Numeral} (float : numeral.IsFloat) :
    ∃ first rest, numeral.chars = first :: rest ∧ first.isDigit = true := by
  cases whole : numeral.whole with
  | nil => exact absurd whole float.whole_ne
  | cons first rest =>
      have digit := float.wholeDigits first (by simp [whole])
      rw [chars, whole, List.append_assoc, List.cons_append]
      exact ⟨first, _, rfl, digit⟩

private theorem takeWhile_digits {digits rest : List Char}
    (allDigits : ∀ character ∈ digits, character.isDigit = true)
    (stops : rest.takeWhile Char.isDigit = []) :
    (digits ++ rest).takeWhile Char.isDigit = digits := by
  rw [List.takeWhile_append_of_pos allDigits, stops, List.append_nil]

private theorem dropWhile_digits {digits rest : List Char}
    (allDigits : ∀ character ∈ digits, character.isDigit = true)
    (stops : rest.dropWhile Char.isDigit = rest) :
    (digits ++ rest).dropWhile Char.isDigit = rest := by
  rw [List.dropWhile_append_of_pos allDigits, stops]

/-- Reading a numeral rounds its number. -/
theorem parseDecimal?_chars {numeral : Numeral} (float : numeral.IsFloat) :
    parseDecimal? numeral.chars =
      some (Double.ofDecimal
        (digitsValue (numeral.whole ++ numeral.fractionDigits))
        numeral.power) := by
  obtain ⟨whole, fraction, exponent⟩ := numeral
  obtain ⟨nonempty, wholeDigits, fractionDigits, -⟩ := float
  simp only [Numeral.fractionDigits] at *
  have exponentRead : parseExponent? (exponent.elim [] fun exponent =>
      'e' :: (toString exponent).toList) = some (exponent.getD 0) := by
    cases exponent with
    | none => rfl
    | some exponent => exact parseExponent?_toString exponent
  have exponentStops : (exponent.elim [] fun exponent =>
      'e' :: (toString exponent).toList).takeWhile Char.isDigit = [] ∧
      (exponent.elim [] fun exponent =>
        'e' :: (toString exponent).toList).dropWhile Char.isDigit =
          exponent.elim [] fun exponent =>
            'e' :: (toString exponent).toList := by
    cases exponent with
    | none => exact ⟨rfl, rfl⟩
    | some exponent => exact ⟨rfl, rfl⟩
  have notPoint (rest : List Char) : (exponent.elim [] fun exponent =>
      'e' :: (toString exponent).toList) ≠ '.' :: rest := by
    cases exponent <;> simp
  unfold parseDecimal? chars
  cases fraction with
  | some fraction =>
      simp only [Option.elim_some, Option.getD_some, List.cons_append,
        List.append_assoc] at *
      rw [takeWhile_digits wholeDigits (by rfl),
        dropWhile_digits wholeDigits (by rfl)]
      simp only
      rw [takeWhile_digits fractionDigits exponentStops.1,
        dropWhile_digits fractionDigits exponentStops.2, exponentRead]
      simp [nonempty, power, Numeral.fractionDigits]
  | none =>
      simp only [Option.elim_none, Option.getD_none, List.append_nil] at *
      rw [takeWhile_digits wholeDigits exponentStops.1,
        dropWhile_digits wholeDigits exponentStops.2]
      split
      · next rest point => exact absurd point (notPoint _)
      · rw [exponentRead]
        simp [nonempty, power, Numeral.fractionDigits]

end Numeral

/-! ## The text of a magnitude -/

namespace Double

private theorem numeral_positional_small (digits : List Char) (zeros : Nat)
    (allDigits : ∀ character ∈ digits, character.isDigit = true) :
    ∃ numeral : Numeral, numeral.IsFloat ∧
      numeral.chars = '0' :: '.' :: (List.replicate zeros '0' ++ digits) ∧
      numeral.value =
        decimalValue (digitsValue digits) (-(zeros + digits.length : Nat)) := by
  refine ⟨⟨['0'], some (List.replicate zeros '0' ++ digits), none⟩, ?_, ?_, ?_⟩
  · refine ⟨by simp, by simp, ?_, .inl rfl⟩
    intro character member
    simp only [Numeral.fractionDigits, Option.getD_some,
      List.mem_append] at member
    rcases member with zero | digit
    · rw [List.eq_of_mem_replicate zero]
      rfl
    · exact allDigits character digit
  · simp [Numeral.chars]
  · have leading : digitsValue ['0'] = 0 := rfl
    simp only [Numeral.value, Numeral.power, Numeral.fractionDigits,
      Option.getD_some, Option.getD_none]
    rw [digitsValue_append, digitsValue_append, leading, digitsValue_zeros]
    simp

private theorem numeral_positional_large (digits : List Char) (zeros : Nat)
    (nonempty : digits ≠ [])
    (allDigits : ∀ character ∈ digits, character.isDigit = true) :
    ∃ numeral : Numeral, numeral.IsFloat ∧
      numeral.chars = digits ++ List.replicate zeros '0' ++ ['.', '0'] ∧
      numeral.value = decimalValue (digitsValue digits) zeros := by
  refine ⟨⟨digits ++ List.replicate zeros '0', some ['0'], none⟩, ?_, ?_, ?_⟩
  · refine ⟨by simp [nonempty], ?_, by simp [Numeral.fractionDigits],
      .inl rfl⟩
    intro character member
    rcases List.mem_append.mp member with digit | zero
    · exact allDigits character digit
    · rw [List.eq_of_mem_replicate zero]
      rfl
  · simp [Numeral.chars]
  · have leading : digitsValue ['0'] = 0 := rfl
    simp only [Numeral.value, Numeral.power, Numeral.fractionDigits,
      Option.getD_some, Option.getD_none]
    rw [digitsValue_append, digitsValue_append, leading, digitsValue_zeros]
    unfold decimalValue
    simp only [List.length_replicate, List.length_singleton, add_zero,
      pow_one, Nat.cast_mul, Nat.cast_pow, Nat.cast_ofNat, Nat.cast_one,
      zero_sub, zpow_natCast, zpow_neg, zpow_one]
    field_simp

private theorem numeral_positional_split (digits : List Char) (point : Nat)
    (inside : 0 < point ∧ point < digits.length)
    (allDigits : ∀ character ∈ digits, character.isDigit = true) :
    ∃ numeral : Numeral, numeral.IsFloat ∧
      numeral.chars = digits.take point ++ '.' :: digits.drop point ∧
      numeral.value = decimalValue (digitsValue digits)
        (-(digits.length - point : Nat)) := by
  refine ⟨⟨digits.take point, some (digits.drop point), none⟩, ?_, ?_, ?_⟩
  · refine ⟨?_, ?_, ?_, .inl rfl⟩
    · intro empty
      have := congrArg List.length empty
      rw [List.length_take, List.length_nil] at this
      omega
    · intro character member
      exact allDigits character (List.mem_of_mem_take member)
    · intro character member
      exact allDigits character (List.mem_of_mem_drop member)
  · simp [Numeral.chars]
  · simp [Numeral.value, Numeral.power, Numeral.fractionDigits]

private theorem numeral_scientific (first : Char) (rest : List Char)
    (exponent : Int)
    (allDigits : ∀ character ∈ first :: rest, character.isDigit = true) :
    ∃ numeral : Numeral, numeral.IsFloat ∧
      numeral.chars = (first :: if rest = [] then [] else '.' :: rest) ++
        'e' :: (toString exponent).toList ∧
      numeral.value = decimalValue (digitsValue (first :: rest))
        (exponent - rest.length) := by
  refine ⟨⟨[first], if rest = [] then none else some rest, some exponent⟩,
    ?_, ?_, ?_⟩
  · refine ⟨by simp, ?_, ?_, .inr rfl⟩
    · intro character member
      exact allDigits character (by simp_all)
    · intro character member
      apply allDigits
      simp only [Numeral.fractionDigits] at member
      split at member <;> simp_all
  · simp only [Numeral.chars]
    split <;> simp
  · simp only [Numeral.value, Numeral.power, Numeral.fractionDigits]
    split
    · next empty => simp [empty]
    · simp

/-- The text of a magnitude is a numeral for its shortest digits. -/
theorem exists_numeral (value : Double) :
    ∃ numeral : Numeral, numeral.IsFloat ∧
      numeral.chars = value.magnitudeText.toList ∧
      numeral.value =
        decimalValue value.shortestDigits.1 value.shortestDigits.2 := by
  unfold magnitudeText
  obtain ⟨digits, power⟩ := value.shortestDigits
  simp only
  have written := toString_nat_toList digits
  have length : (toString digits).length = (Nat.toDigits 10 digits).length := by
    rw [← written, String.length_toList]
  have nonempty : Nat.toDigits 10 digits ≠ [] := Nat.toDigits_ne_nil
  have number := digitsValue_toDigits digits
  have allDigits : ∀ character ∈ Nat.toDigits 10 digits,
      character.isDigit = true := fun _ => isDigit_of_mem_toDigits
  rw [length, written]
  generalize Nat.toDigits 10 digits = chars at *
  generalize toString digits = text at *
  split
  · split
    · obtain ⟨numeral, float, charsEq, valueEq⟩ := numeral_positional_small
        chars (-((chars.length : Int) + power)).toNat allDigits
      refine ⟨numeral, float, ?_, ?_⟩
      · rw [charsEq]
        simp [written]
      · rw [valueEq, number]
        congr 1
        omega
    · split
      · obtain ⟨numeral, float, charsEq, valueEq⟩ := numeral_positional_large
          chars power.toNat nonempty allDigits
        refine ⟨numeral, float, ?_, ?_⟩
        · rw [charsEq]
          simp [written]
        · rw [valueEq, number]
          congr 1
          omega
      · obtain ⟨numeral, float, charsEq, valueEq⟩ := numeral_positional_split
          chars ((chars.length : Int) + power).toNat (by omega) allDigits
        refine ⟨numeral, float, ?_, ?_⟩
        · rw [charsEq]
          simp
        · rw [valueEq, number]
          congr 1
          omega
  · cases chars with
    | nil => exact absurd rfl nonempty
    | cons first rest =>
        obtain ⟨numeral, float, charsEq, valueEq⟩ := numeral_scientific
          first rest (((first :: rest).length : Int) + power - 1) allDigits
        refine ⟨numeral, float, ?_, ?_⟩
        · rw [charsEq]
          cases rest <;> simp [written]
        · rw [valueEq, number]
          congr 1
          simp only [List.length_cons]
          omega

/-! ## Signs -/

/-- The characters of the sign that a double is written with. -/
def signChars (value : Double) : List Char :=
  if value.isNegative then ['-'] else []

private theorem signBit_toBitVec :
    signBit.toBitVec = BitVec.twoPow 64 63 := by decide

/-- A double is its magnitude with its sign. -/
theorem withSign_magnitudeBits (value : Double) :
    withSign value.isNegative ⟨value.magnitudeBits⟩ = value := by
  obtain ⟨bits⟩ := value
  unfold withSign isNegative negate magnitudeBits
  split
  · next negative =>
      have high : bits.toBitVec.getLsbD 63 = true := by
        by_contra low
        apply bne_iff_ne.mp negative
        apply UInt64.eq_of_toBitVec_eq
        rw [UInt64.toBitVec_and, signBit_toBitVec, BitVec.and_twoPow, if_neg low]
        rfl
      congr 1
      apply UInt64.eq_of_toBitVec_eq
      apply BitVec.eq_of_getLsbD_eq
      intro index inRange
      simp only [UInt64.toBitVec_xor, UInt64.toBitVec_and,
        UInt64.toBitVec_not, signBit_toBitVec, BitVec.getLsbD_xor,
        BitVec.getLsbD_and, BitVec.getLsbD_not, BitVec.getLsbD_twoPow]
      by_cases top : index = 63
      · subst top
        simp [high]
      · simp [Ne.symm top, inRange]
  · next nonnegative =>
      congr 1
      have clear : bits &&& signBit = 0 := by
        simpa using nonnegative
      apply UInt64.eq_of_toBitVec_eq
      have clearBits : bits.toBitVec &&& BitVec.twoPow 64 63 = 0#64 := by
        rw [← signBit_toBitVec, ← UInt64.toBitVec_and, clear]
        rfl
      apply BitVec.eq_of_getLsbD_eq
      intro index inRange
      have bit := congrArg (BitVec.getLsbD · index) clearBits
      simp only [BitVec.getLsbD_and, BitVec.getLsbD_twoPow] at bit
      simp only [UInt64.toBitVec_and, UInt64.toBitVec_not,
        signBit_toBitVec, BitVec.getLsbD_and, BitVec.getLsbD_not, BitVec.getLsbD_twoPow]
      by_cases top : index = 63
      · subst top
        simpa using bit
      · simp [Ne.symm top, inRange]

private theorem magnitudeBits_of_isZero {value : Double}
    (zero : value.isZero = true) : value.magnitudeBits = 0 := by
  simpa [isZero] using zero

/-- A nonzero finite double has a positive mantissa. -/
theorem mantissa_pos {value : Double} (nonzero : value.isZero = false) :
    0 < value.mantissa := by
  have magnitude : value.magnitudeBits.toNat ≠ 0 := by
    intro none
    have zero : value.magnitudeBits = 0 :=
      UInt64.toNat_inj.mp (by rw [none]; rfl)
    simp [isZero, zero] at nonzero
  have exponentEq := exponentField_eq value
  have fractionEq := fractionField_eq value
  unfold mantissa leadingBit
  split <;> omega

/-- The text of a finite double is a sign and a numeral that is read as its
magnitude. -/
theorem text_eq_numeral {value : Double} (finite : value.isFinite = true) :
    ∃ numeral : Numeral, numeral.IsFloat ∧
      value.text.toList = value.signChars ++ numeral.chars ∧
      parseDecimal? numeral.chars = some ⟨value.magnitudeBits⟩ := by
  have notNan : value.isNan = false := by
    simp only [isNan, isFinite, UInt64.lt_iff_toNat_lt,
      decide_eq_true_eq, decide_eq_false_iff_not] at *
    omega
  have notInfinite : value.isInfinite = false := by
    simp only [isInfinite, isFinite, UInt64.lt_iff_toNat_lt,
      decide_eq_true_eq, beq_eq_false_iff_ne] at *
    intro same
    rw [same] at finite
    omega
  have sign : (if value.isNegative = true then "-" else "").toList =
      value.signChars := by
    unfold signChars
    split <;> rfl
  unfold text
  simp only [notNan, notInfinite, Bool.false_eq_true, if_false]
  cases zero : value.isZero with
  | true =>
      refine ⟨⟨['0'], some ['0'], none⟩, ?_, ?_, ?_⟩
      · refine ⟨by simp, by simp, ?_, .inl rfl⟩
        simp [Numeral.fractionDigits]
      · rw [if_pos rfl, String.toList_append, sign]
        rfl
      · rw [magnitudeBits_of_isZero zero]
        rfl
  | false =>
      obtain ⟨numeral, float, chars, number⟩ := value.exists_numeral
      refine ⟨numeral, float, ?_, ?_⟩
      · rw [if_neg (by decide), String.toList_append, sign, chars]
      · have enclosed := shortestDigits_encloses (mantissa_pos zero)
        rw [← number] at enclosed
        rw [Numeral.parseDecimal?_chars float]
        congr 1
        exact ofDecimal_of_encloses finite (mantissa_pos zero) enclosed

/-- The text of a finite double is read back as the same double. -/
theorem parse?_text {value : Double} (finite : value.isFinite = true) :
    parse? value.text.toList = some value := by
  obtain ⟨numeral, float, written, magnitude⟩ := text_eq_numeral finite
  obtain ⟨first, rest, chars, digit⟩ := float.exists_cons
  have split : splitSign value.text.toList =
      (value.isNegative, numeral.chars) := by
    rw [written, signChars, chars]
    cases value.isNegative with
    | true => rfl
    | false => exact splitSign_of_isDigit digit
  have lower : first.toLower.isDigit = true := by
    have unchanged : first.toLower = first := by
      unfold Char.toLower
      rw [dif_neg]
      intro upper
      have nine : '9'.val.toNat = 57 := rfl
      have capital : 'A'.val.toNat = 65 := rfl
      simp only [Char.isDigit, Bool.and_eq_true, decide_eq_true_eq,
        UInt32.le_iff_toNat_le, ge_iff_le] at digit upper
      omega
    rw [unchanged]
    exact digit
  have word (text : String) (letter : Char) (letters : List Char)
      (spelled : text.toList = letter :: letters)
      (notDigit : letter.isDigit = false) :
      String.ofList (numeral.chars.map Char.toLower) ≠ text := by
    intro same
    have heads := congrArg String.toList same
    rw [chars, String.toList_ofList, List.map_cons, spelled] at heads
    rw [(List.cons.inj heads).1, notDigit] at lower
    exact absurd lower (by decide)
  unfold parse?
  rw [split]
  simp only [word "inf" 'i' ['n', 'f'] rfl rfl,
    word "infinity" 'i' ['n', 'f', 'i', 'n', 'i', 't', 'y'] rfl rfl,
    word "nan" 'n' ['a', 'n'] rfl rfl, or_self, if_false, magnitude,
    Option.map_some, withSign_magnitudeBits]

end Double

end FormCompiler
