import Mathlib.Tactic.NormNum
import FormCompiler.Double.Text
import FormCompiler.Proofs.DoubleRounding

/-!
# Shortest digits of a double

A decimal is written with digits that lie in the interval of numbers which
round to the double.  Seventeen digits always suffice: on that grid two
neighbours are closer to each other than the ends of the interval.  Every
decimal in the interval, however its digits and its power of ten are chosen,
rounds to the magnitude of the double.
-/

namespace FormCompiler

/-- The number that digits and a power of ten stand for. -/
def decimalValue (digits : Nat) (power : Int) : ℚ := digits * 10 ^ power

private theorem ten_zpow_pos (power : Int) : (0 : ℚ) < 10 ^ power := by
  positivity

/-- A power of ten as the quotient of two natural powers. -/
theorem ten_zpow_eq (power : Int) :
    (10 : ℚ) ^ power =
      ((Nat.pow 10 power.toNat : Nat) : ℚ) /
        ((Nat.pow 10 (-power).toNat : Nat) : ℚ) := by
  obtain ⟨size, rfl | rfl⟩ := power.eq_nat_or_neg
  · simp
  · simp

private theorem ten_pow_pos (size : Nat) :
    (0 : ℚ) < ((Nat.pow 10 size : Nat) : ℚ) := by
  have := Nat.pow_pos (n := size) (by decide : 0 < 10)
  exact_mod_cast this

/-- The length of a number bounds it by powers of ten. -/
theorem decimalLength_bounds {number : Nat} (positive : 0 < number) :
    10 ^ (decimalLength number - 1) ≤ number ∧
      number < 10 ^ decimalLength number ∧ 0 < decimalLength number := by
  have lengthPos : 0 < (Nat.toDigits 10 number).length :=
    Nat.length_toDigits_pos
  have base : 1 < 10 := by decide
  rw [decimalLength, if_neg positive.ne']
  refine ⟨?_, ?_, lengthPos⟩
  · rcases Nat.eq_zero_or_pos ((Nat.toDigits 10 number).length - 1) with
      single | several
    · rw [single]
      omega
    · by_contra small
      have short := (Nat.length_toDigits_le_iff base several).mpr
        (lt_of_not_ge small)
      omega
  · exact (Nat.length_toDigits_le_iff base lengthPos).mp (Nat.le_refl _)

/-! ## Decimals in an interval -/

namespace RoundingInterval

/-- A decimal lies in an interval, whose ends count where it is closed. -/
theorem contains_iff {interval : RoundingInterval}
    (positive : 0 < interval.denominator) (candidate : Nat) (power : Int) :
    interval.contains candidate power = true ↔
      ((interval.low : ℚ) / interval.denominator ≤
          decimalValue candidate power ∧
        decimalValue candidate power ≤
          interval.high / interval.denominator) ∧
      (interval.closed = false →
        (interval.low : ℚ) / interval.denominator <
            decimalValue candidate power ∧
          decimalValue candidate power <
            interval.high / interval.denominator) := by
  have denominatorPos : (0 : ℚ) < interval.denominator := by
    exact_mod_cast positive
  have powerPos := ten_pow_pos (-power).toNat
  unfold contains decimalValue
  rw [ten_zpow_eq, ← mul_div_assoc,
    div_le_div_iff₀ denominatorPos powerPos,
    div_le_div_iff₀ powerPos denominatorPos,
    div_lt_div_iff₀ denominatorPos powerPos,
    div_lt_div_iff₀ powerPos denominatorPos]
  norm_cast
  cases interval.closed
  · simp only [Bool.false_eq_true, if_false, Bool.and_eq_true,
      decide_eq_true_eq, forall_const]
    constructor
    · intro inside
      exact ⟨⟨inside.1.le, inside.2.le⟩, inside⟩
    · intro inside
      exact inside.2
  · simp

/-- The grid of a number of digits that is finer than an interval has a point
in it. -/
theorem withDigits_isSome {interval : RoundingInterval} {count : Nat}
    (positive : 0 < interval.denominator)
    (low : interval.low < interval.value)
    (high : interval.value < interval.high)
    (fine : (10 : ℚ) ^ (interval.magnitude - count) <
      ((interval.high : ℚ) - interval.low) / interval.denominator) :
    (interval.withDigits count).isSome := by
  have denominatorPos : (0 : ℚ) < interval.denominator := by
    exact_mod_cast positive
  unfold withDigits
  generalize interval.magnitude - count = power at *
  simp only
  generalize belowEq : interval.value * Nat.pow 10 (-power).toNat /
    (interval.denominator * Nat.pow 10 power.toNat) = below
  have unitPos : 0 < interval.denominator * Nat.pow 10 power.toNat :=
    Nat.mul_pos positive (Nat.pow_pos (by decide))
  have powerPos := ten_pow_pos (-power).toNat
  have belowLow : decimalValue below power ≤
      (interval.value : ℚ) / interval.denominator := by
    have := Nat.div_mul_le_self (interval.value * Nat.pow 10 (-power).toNat)
      (interval.denominator * Nat.pow 10 power.toNat)
    rw [belowEq] at this
    rw [decimalValue, ten_zpow_eq, ← mul_div_assoc,
      div_le_div_iff₀ powerPos denominatorPos]
    norm_cast
    calc below * Nat.pow 10 power.toNat * interval.denominator
        = below * (interval.denominator * Nat.pow 10 power.toNat) := by ring
      _ ≤ _ := this
  have aboveHigh : (interval.value : ℚ) / interval.denominator <
      decimalValue (below + 1) power := by
    have := Nat.lt_div_mul_add (a := interval.value *
      Nat.pow 10 (-power).toNat) unitPos
    rw [belowEq] at this
    rw [decimalValue, ten_zpow_eq, ← mul_div_assoc,
      div_lt_div_iff₀ denominatorPos powerPos]
    norm_cast
    calc interval.value * Nat.pow 10 (-power).toNat
        < below * (interval.denominator * Nat.pow 10 power.toNat) +
            interval.denominator * Nat.pow 10 power.toNat := this
      _ = _ := by ring
  have lowRat : (interval.low : ℚ) / interval.denominator <
      interval.value / interval.denominator := by
    have : (interval.low : ℚ) < interval.value := by exact_mod_cast low
    gcongr
  have highRat : (interval.value : ℚ) / interval.denominator <
      interval.high / interval.denominator := by
    have : (interval.value : ℚ) < interval.high := by exact_mod_cast high
    gcongr
  by_cases lower : interval.contains below power = true
  · rw [lower]
    cases interval.contains (below + 1) power <;> rfl
  · by_cases upper : interval.contains (below + 1) power = true
    · rw [upper]
      cases interval.contains below power <;> rfl
    · exfalso
      rw [contains_iff positive] at lower upper
      have belowOut : decimalValue below power ≤
          interval.low / interval.denominator := by
        by_contra inside
        rw [not_le] at inside
        exact lower ⟨⟨inside.le, (belowLow.trans_lt highRat).le⟩,
          fun _ => ⟨inside, belowLow.trans_lt highRat⟩⟩
      have aboveOut : (interval.high : ℚ) / interval.denominator ≤
          decimalValue (below + 1) power := by
        by_contra inside
        rw [not_le] at inside
        exact upper ⟨⟨(lowRat.trans aboveHigh).le, inside.le⟩,
          fun _ => ⟨lowRat.trans aboveHigh, inside⟩⟩
      have step : decimalValue (below + 1) power =
          decimalValue below power + 10 ^ power := by
        unfold decimalValue
        push_cast
        ring
      rw [sub_div] at fine
      linarith

theorem withDigits_contains {interval : RoundingInterval} {count : Nat}
    {found : Nat × Int} (result : interval.withDigits count = some found) :
    interval.contains found.1 found.2 = true := by
  unfold withDigits at result
  simp only at result
  split at result <;> cases result
  · split <;> assumption
  · assumption
  · assumption

/-- The value of an interval has the magnitude that the grids start from. -/
theorem ten_zpow_magnitude_le {interval : RoundingInterval}
    (valuePos : 0 < interval.value) (denominatorPos : 0 < interval.denominator) :
    (10 : ℚ) ^ (interval.magnitude - 1) ≤
      interval.value / interval.denominator := by
  have denominatorRat : (0 : ℚ) < interval.denominator := by
    exact_mod_cast denominatorPos
  unfold magnitude
  rw [le_div_iff₀ denominatorRat]
  split
  · next large =>
      have quotientPos := Nat.div_pos large denominatorPos
      obtain ⟨atLeast, -, lengthPos⟩ := decimalLength_bounds quotientPos
      generalize decimalLength (interval.value / interval.denominator) =
        length at *
      have power : (10 : ℚ) ^ ((length : Int) - 1) =
          ((10 ^ (length - 1) : Nat) : ℚ) := by
        rw [show ((length : Int) - 1) = ((length - 1 : Nat) : Int) by omega,
          zpow_natCast]
        push_cast
        rfl
      rw [power]
      exact_mod_cast (Nat.mul_le_mul_right _ atLeast).trans
        (Nat.div_mul_le_self _ _)
  · next small =>
      have quotientPos : 0 < (interval.denominator - 1) / interval.value :=
        Nat.div_pos (by omega) valuePos
      obtain ⟨-, atMost, -⟩ := decimalLength_bounds quotientPos
      generalize decimalLength ((interval.denominator - 1) / interval.value) =
        length at *
      rw [Nat.div_lt_iff_lt_mul valuePos] at atMost
      have bound : interval.denominator ≤ 10 ^ length * interval.value := by
        omega
      have boundRat : (interval.denominator : ℚ) ≤
          10 ^ length * interval.value := by exact_mod_cast bound
      have power : (10 : ℚ) ^ (1 - (length : Int) - 1) * 10 ^ length = 1 := by
        rw [← zpow_natCast, ← zpow_add₀ (by norm_num)]
        simp
      calc (10 : ℚ) ^ (1 - (length : Int) - 1) * interval.denominator
          ≤ 10 ^ (1 - (length : Int) - 1) *
              (10 ^ length * interval.value) :=
            mul_le_mul_of_nonneg_left boundRat (ten_zpow_pos _).le
        _ = interval.value := by rw [← mul_assoc, power, one_mul]

end RoundingInterval

/-! ## The digits of a double -/

/-- Moving zeros from the digits to the power keeps the number. -/
theorem decimalValue_stripTrailingZeros (fuel : Nat) (digits : Nat)
    (power : Int) :
    decimalValue (stripTrailingZeros fuel (digits, power)).1
        (stripTrailingZeros fuel (digits, power)).2 =
      decimalValue digits power := by
  induction fuel generalizing digits power with
  | zero => rfl
  | succ fuel ih =>
      unfold stripTrailingZeros
      split
      · next trailing =>
          rw [ih]
          have exact10 : digits = 10 * (digits / 10) := by omega
          unfold decimalValue
          rw [zpow_add₀ (by norm_num), zpow_one]
          nth_rewrite 2 [exact10]
          push_cast
          ring
      · rfl

namespace Double

private theorem roundingInterval_denominator_pos (value : Double) :
    0 < value.roundingInterval.denominator :=
  Nat.two_pow_pos _

/-- The rational numbers that the ends and the middle of the interval of a
double stand for. -/
private theorem roundingInterval_scaled (value : Double) (quarters : Nat) :
    ((quarters * Nat.pow 2 (value.exponent - 2).toNat : Nat) : ℚ) /
        value.roundingInterval.denominator =
      quarters * 2 ^ (value.exponent - 2) := by
  rw [two_zpow_eq]
  simp only [roundingInterval]
  push_cast
  rw [mul_div_assoc]

private theorem gapBelow_le (value : Double) :
    value.gapBelow = 1 ∨ value.gapBelow = 2 := by
  unfold gapBelow
  split
  · exact .inl rfl
  · exact .inr rfl

/-- Decimals found in the interval of a positive double are enclosed by it. -/
theorem encloses_of_contains {value : Double} (positive : 0 < value.mantissa)
    {candidate : Nat} {power : Int}
    (found : value.roundingInterval.contains candidate power = true) :
    value.Encloses (decimalValue candidate power) := by
  have lowEq : (value.roundingInterval.low : ℚ) /
      value.roundingInterval.denominator =
        (4 * (value.mantissa : ℚ) - value.gapBelow) *
          2 ^ (value.exponent - 2) := by
    have shown : value.roundingInterval.low =
        (4 * value.mantissa - value.gapBelow) *
          Nat.pow 2 (value.exponent - 2).toNat := rfl
    have enough : value.gapBelow ≤ 4 * value.mantissa := by
      have := value.gapBelow_le
      omega
    rw [shown, roundingInterval_scaled]
    push_cast [Nat.cast_sub enough]
    rfl
  have highEq : (value.roundingInterval.high : ℚ) /
      value.roundingInterval.denominator =
        (4 * (value.mantissa : ℚ) + 2) * 2 ^ (value.exponent - 2) := by
    have shown : value.roundingInterval.high =
        (4 * value.mantissa + 2) * Nat.pow 2 (value.exponent - 2).toNat := rfl
    rw [shown, roundingInterval_scaled]
    push_cast
    rfl
  rw [RoundingInterval.contains_iff value.roundingInterval_denominator_pos,
    lowEq, highEq] at found
  refine ⟨found.1.1, found.1.2, ?_⟩
  intro odd
  apply found.2
  simp [roundingInterval, odd]

/-- Some grid of at most seventeen digits has a point in the interval. -/
private theorem exists_withDigits {value : Double}
    (positive : 0 < value.mantissa) :
    (value.roundingInterval.withDigits 17).isSome := by
  have denominatorPos := value.roundingInterval_denominator_pos
  have unitPos : 0 < Nat.pow 2 (value.exponent - 2).toNat :=
    Nat.two_pow_pos _
  have gap := value.gapBelow_le
  have lowEq : value.roundingInterval.low =
      (4 * value.mantissa - value.gapBelow) *
        Nat.pow 2 (value.exponent - 2).toNat := rfl
  have valueEq : value.roundingInterval.value =
      4 * value.mantissa * Nat.pow 2 (value.exponent - 2).toNat := rfl
  have highEq : value.roundingInterval.high =
      (4 * value.mantissa + 2) * Nat.pow 2 (value.exponent - 2).toNat := rfl
  apply RoundingInterval.withDigits_isSome denominatorPos
  · rw [lowEq, valueEq]
    exact Nat.mul_lt_mul_of_pos_right (by omega) unitPos
  · rw [valueEq, highEq]
    exact Nat.mul_lt_mul_of_pos_right (by omega) unitPos
  · have valuePos : 0 < value.roundingInterval.value := by
      rw [valueEq]
      exact Nat.mul_pos (by omega) unitPos
    have magnitude := RoundingInterval.ten_zpow_magnitude_le valuePos
      denominatorPos
    have shifted : (10 : ℚ) ^ (value.roundingInterval.magnitude - (17 : Nat)) =
        10 ^ (value.roundingInterval.magnitude - 1) / 10 ^ 16 := by
      rw [show value.roundingInterval.magnitude - ((17 : Nat) : Int) =
        value.roundingInterval.magnitude - 1 - 16 by norm_num; ring,
        zpow_sub₀ (by norm_num)]
      norm_num
    have enough : value.gapBelow ≤ 4 * value.mantissa := by omega
    have wide : 4 * value.mantissa < (2 + value.gapBelow) * 10 ^ 16 := by
      have small := value.mantissa_lt
      unfold gapBelow
      split
      · next least =>
          rw [least.1]
          norm_num [leadingBit]
      · omega
    have wideRat : 4 * (value.mantissa : ℚ) <
        (2 + value.gapBelow) * 10 ^ 16 := by exact_mod_cast wide
    rw [sub_div, highEq, lowEq, roundingInterval_scaled,
      roundingInterval_scaled, shifted]
    rw [valueEq, roundingInterval_scaled] at magnitude
    have unitRat : (0 : ℚ) < 2 ^ (value.exponent - 2) := by positivity
    push_cast [Nat.cast_sub enough] at magnitude ⊢
    rw [div_lt_iff₀ (by norm_num)]
    nlinarith

/-- The shortest digits lie in the interval of their double. -/
theorem shortestDigits_encloses {value : Double}
    (positive : 0 < value.mantissa) :
    value.Encloses
      (decimalValue value.shortestDigits.1 value.shortestDigits.2) := by
  have found : ((List.range 17).findSome? fun count =>
      value.roundingInterval.withDigits (count + 1)).isSome := by
    rw [List.findSome?_isSome_iff]
    exact ⟨16, by simp, exists_withDigits positive⟩
  obtain ⟨decimal, decimalEq⟩ := Option.isSome_iff_exists.mp found
  obtain ⟨count, -, countEq⟩ := List.exists_of_findSome?_eq_some decimalEq
  unfold shortestDigits
  simp only [decimalEq, Option.getD_some]
  rw [decimalValue_stripTrailingZeros]
  exact encloses_of_contains positive
    (RoundingInterval.withDigits_contains countEq)

/-! ## Reading a decimal -/

private theorem Encloses.pos {value : Double} {number : ℚ}
    (positive : 0 < value.mantissa) (enclosed : value.Encloses number) :
    (2 : ℚ) ^ (-1075 : Int) ≤ number := by
  refine le_trans ?_ enclosed.low
  have exponentLow : (-1076 : Int) ≤ value.exponent - 2 := by
    unfold exponent
    omega
  have gap : (value.gapBelow : ℚ) ≤ 2 := by
    rcases value.gapBelow_le with one | two
    · rw [one]
      norm_num
    · rw [two]
      norm_num
  have mantissaRat : (1 : ℚ) ≤ value.mantissa := by exact_mod_cast positive
  have power : (2 : ℚ) ^ (-1076 : Int) ≤ 2 ^ (value.exponent - 2) :=
    zpow_le_zpow_right₀ (by norm_num) exponentLow
  have base : (0 : ℚ) < 2 ^ (-1076 : Int) := by positivity
  calc (2 : ℚ) ^ (-1075 : Int) = 2 * 2 ^ (-1076 : Int) := by
        rw [show (-1075 : Int) = 1 + -1076 by norm_num,
          zpow_add₀ two_ne_zero, zpow_one]
    _ ≤ (4 * (value.mantissa : ℚ) - value.gapBelow) *
          2 ^ (value.exponent - 2) := by
        apply mul_le_mul _ power base.le
        · linarith
        · linarith

private theorem Encloses.lt {value : Double} {number : ℚ}
    (finite : value.isFinite) (enclosed : value.Encloses number) :
    number < 2 ^ (1024 : Int) := by
  refine lt_of_le_of_lt enclosed.high ?_
  have nonneg : (0 : ℚ) ≤ 4 * (value.mantissa : ℚ) + 2 := by positivity
  have exponentHigh : value.exponent - 2 ≤ 969 := by
    have := exponentField_lt finite
    unfold exponent
    omega
  have mantissaRat : (value.mantissa : ℚ) + 1 ≤ 2 ^ 53 := by
    exact_mod_cast value.mantissa_lt
  have power : (2 : ℚ) ^ (value.exponent - 2) ≤ 2 ^ (969 : Int) :=
    zpow_le_zpow_right₀ (by norm_num) exponentHigh
  have top : (0 : ℚ) < 2 ^ (969 : Int) := by positivity
  have total : (2 : ℚ) ^ (1024 : Int) = 2 ^ (55 : Nat) * 2 ^ (969 : Int) := by
    rw [← zpow_natCast, ← zpow_add₀ two_ne_zero]
    congr 1
  rw [total]
  generalize (2 : ℚ) ^ (969 : Int) = greatest at *
  calc (4 * (value.mantissa : ℚ) + 2) * 2 ^ (value.exponent - 2)
      ≤ (4 * (value.mantissa : ℚ) + 2) * greatest :=
        mul_le_mul_of_nonneg_left power nonneg
    _ < 2 ^ (55 : Nat) * greatest := by
        refine mul_lt_mul_of_pos_right ?_ top
        linarith

private theorem ten_zpow_lt_least :
    (10 : ℚ) ^ (-325 : Int) < 2 ^ (-1075 : Int) := by
  have factor : (2 : ℚ) ^ 43 < 10 ^ 13 := by norm_num
  have bound : ((2 : ℚ) ^ 43) ^ 25 < (10 ^ 13) ^ 25 :=
    pow_lt_pow_left₀ factor (by positivity) (by decide)
  rw [← pow_mul, ← pow_mul] at bound
  rw [show (-325 : Int) = -((13 * 25 : Nat) : Int) by rfl,
    show (-1075 : Int) = -((43 * 25 : Nat) : Int) by rfl, zpow_neg, zpow_neg,
    zpow_natCast, zpow_natCast]
  exact inv_strictAnti₀ (by positivity) bound

private theorem greatest_lt_ten_zpow :
    (2 : ℚ) ^ (1024 : Int) < 10 ^ (309 : Int) := by
  have factor : (2 : ℚ) ^ 93 < 10 ^ 28 := by norm_num
  have bound : ((2 : ℚ) ^ 93) ^ 11 < (10 ^ 28) ^ 11 :=
    pow_lt_pow_left₀ factor (by positivity) (by decide)
  rw [← pow_mul, ← pow_mul] at bound
  rw [show (1024 : Int) = ((93 * 11 + 1 : Nat) : Int) by rfl,
    show (309 : Int) = ((28 * 11 + 1 : Nat) : Int) by rfl,
    zpow_natCast, zpow_natCast, pow_succ _ (93 * 11), pow_succ _ (28 * 11)]
  have last : (2 : ℚ) < 10 := by norm_num
  exact mul_lt_mul'' bound last (by positivity) (by norm_num)

/-- A decimal that a finite double encloses is read as its magnitude. -/
theorem ofDecimal_of_encloses {value : Double} (finite : value.isFinite)
    (positive : 0 < value.mantissa) {digits : Nat} {power : Int}
    (enclosed : value.Encloses (decimalValue digits power)) :
    ofDecimal digits power = ⟨value.magnitudeBits⟩ := by
  have low := enclosed.pos positive
  have high := enclosed.lt finite
  have digitsPos : 0 < digits := by
    by_contra none
    obtain rfl : digits = 0 := by omega
    have least : (0 : ℚ) < 2 ^ (-1075 : Int) := by positivity
    rw [decimalValue, Nat.cast_zero, zero_mul] at low
    exact absurd low (not_le.mpr least)
  obtain ⟨atLeast, atMost, lengthPos⟩ := decimalLength_bounds digitsPos
  generalize lengthEq : decimalLength digits = length at *
  have ten : (1 : ℚ) < 10 := by norm_num
  have powerPos := ten_zpow_pos power
  have valueLow : (10 : ℚ) ^ ((length : Int) + power - 1) ≤
      decimalValue digits power := by
    have : ((10 ^ (length - 1) : Nat) : ℚ) ≤ digits := by
      exact_mod_cast atLeast
    rw [show (length : Int) + power - 1 = ((length - 1 : Nat) : Int) + power by
      omega, zpow_add₀ (by norm_num), zpow_natCast]
    push_cast at this
    exact mul_le_mul_of_nonneg_right this powerPos.le
  have valueHigh : decimalValue digits power <
      10 ^ ((length : Int) + power) := by
    have : (digits : ℚ) < ((10 ^ length : Nat) : ℚ) := by
      exact_mod_cast atMost
    rw [zpow_add₀ (by norm_num), zpow_natCast]
    push_cast at this
    exact mul_lt_mul_of_pos_right this powerPos
  have notSmall : -330 ≤ (length : Int) + power := by
    have := (zpow_lt_zpow_iff_right₀ ten).mp
      ((ten_zpow_lt_least.trans_le low).trans valueHigh)
    omega
  have notLarge : (length : Int) + power ≤ 310 := by
    have := (zpow_lt_zpow_iff_right₀ ten).mp
      ((valueLow.trans_lt high).trans greatest_lt_ten_zpow)
    omega
  have quotient : ((digits * Nat.pow 10 power.toNat : Nat) : ℚ) /
      ((Nat.pow 10 (-power).toNat : Nat) : ℚ) =
        decimalValue digits power := by
    rw [decimalValue, ten_zpow_eq]
    push_cast
    rw [mul_div_assoc]
  unfold ofDecimal
  simp only [lengthEq]
  rw [if_neg (by omega), if_neg (by omega)]
  apply nearest_of_encloses finite
  · exact Nat.mul_pos digitsPos (Nat.pow_pos (by decide))
  · exact Nat.pow_pos (by decide)
  · rwa [quotient]

end Double

end FormCompiler
