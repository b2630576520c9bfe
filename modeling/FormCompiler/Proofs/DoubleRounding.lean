import Mathlib.Tactic.Linarith
import Mathlib.Tactic.Ring
import Mathlib.Tactic.Positivity
import Mathlib.Tactic.FieldSimp
import Mathlib.Algebra.Order.Field.Power
import Mathlib.Data.Rat.Cast.Order
import FormCompiler.Double.Basic

/-!
# Rounding to the closest double

The closest double to a quotient is found in three steps: the binary
logarithm of the quotient chooses a scale, the scaled quotient is rounded to
an integer, and integer and scale are packed.  Each step is characterised by
inequalities between rational numbers, so that a quotient known to lie near a
double can be followed through all three.
-/

namespace FormCompiler

/-- A rational is closer to an integer than to every other one, or half way
from an even integer. -/
structure RoundsTo (value : ℚ) (integer : Nat) : Prop where
  below : 2 * value ≤ 2 * integer + 1
  above : 2 * (integer : ℚ) - 1 ≤ 2 * value
  tieBelow : 2 * value = 2 * integer + 1 → integer % 2 = 0
  tieAbove : 2 * (integer : ℚ) - 1 = 2 * value → integer % 2 = 0

private theorem roundDivide_of_bounds {numerator denominator integer : Nat}
    (positive : 0 < denominator)
    (below : 2 * numerator ≤ (2 * integer + 1) * denominator)
    (above : 2 * integer * denominator ≤ 2 * numerator + denominator)
    (tieBelow : 2 * numerator = (2 * integer + 1) * denominator →
      integer % 2 = 0)
    (tieAbove : 2 * integer * denominator = 2 * numerator + denominator →
      integer % 2 = 0) :
    roundDivide numerator denominator = integer := by
  have split := Nat.div_add_mod numerator denominator
  have small := Nat.mod_lt numerator positive
  unfold roundDivide
  generalize numerator / denominator = quotient at *
  generalize numerator % denominator = remainder at *
  have lower : quotient ≤ integer := by
    by_contra less
    have further : integer + 1 ≤ quotient := by omega
    have := Nat.mul_le_mul_left denominator further
    nlinarith
  have upper : integer ≤ quotient + 1 := by
    by_contra less
    have further : quotient + 2 ≤ integer := by omega
    have := Nat.mul_le_mul_left denominator further
    nlinarith
  have scaled : 2 * quotient * denominator = 2 * (denominator * quotient) := by
    ring
  rcases Nat.lt_or_ge quotient integer with rounded | rounded
  · obtain rfl : integer = quotient + 1 := by omega
    have expanded : 2 * (quotient + 1) * denominator =
        2 * (denominator * quotient) + 2 * denominator := by ring
    rw [expanded] at above tieAbove
    simp only
    split_ifs <;> omega
  · obtain rfl : integer = quotient := by omega
    have expanded : (2 * integer + 1) * denominator =
        2 * (denominator * integer) + denominator := by ring
    rw [expanded] at below tieBelow
    simp only
    split_ifs <;> omega

/-- Rounding division gives the integer that the quotient rounds to. -/
theorem roundDivide_eq {numerator denominator integer : Nat}
    (positive : 0 < denominator)
    (rounds : RoundsTo ((numerator : ℚ) / denominator) integer) :
    roundDivide numerator denominator = integer := by
  have positiveRat : (0 : ℚ) < denominator := by exact_mod_cast positive
  have cancel : (numerator : ℚ) / denominator * denominator = numerator := by
    field_simp
  apply roundDivide_of_bounds positive
  · have := mul_le_mul_of_nonneg_right rounds.below positiveRat.le
    rw [mul_assoc, cancel] at this
    exact_mod_cast this
  · have := mul_le_mul_of_nonneg_right rounds.above positiveRat.le
    rw [mul_assoc, cancel, sub_mul] at this
    have shifted : 2 * (integer : ℚ) * denominator ≤
        2 * numerator + denominator := by linarith
    exact_mod_cast shifted
  · intro tie
    apply rounds.tieBelow
    have tieRat : 2 * (numerator : ℚ) = (2 * integer + 1) * denominator := by
      exact_mod_cast tie
    field_simp
    linarith
  · intro tie
    apply rounds.tieAbove
    have tieRat : 2 * (integer : ℚ) * denominator =
        2 * numerator + denominator := by exact_mod_cast tie
    field_simp
    linarith

/-! ## The scale -/

/-- A power of two as the quotient of two natural powers. -/
theorem two_zpow_eq (exponent : Int) :
    (2 : ℚ) ^ exponent =
      ((Nat.pow 2 exponent.toNat : Nat) : ℚ) /
        ((Nat.pow 2 (-exponent).toNat : Nat) : ℚ) := by
  obtain ⟨size, rfl | rfl⟩ := exponent.eq_nat_or_neg
  · simp
  · simp

/-- `floorLog` is the binary logarithm, rounded down. -/
theorem floorLog_spec {numerator denominator : Nat}
    (numeratorPos : 0 < numerator) (denominatorPos : 0 < denominator) :
    (2 : ℚ) ^ floorLog numerator denominator ≤ numerator / denominator ∧
      (numerator : ℚ) / denominator <
        2 ^ (floorLog numerator denominator + 1) := by
  have denominatorRat : (0 : ℚ) < denominator := by
    exact_mod_cast denominatorPos
  have numeratorLow : (2 : ℚ) ^ (numerator.log2 : Int) ≤ numerator := by
    exact_mod_cast Nat.log2_self_le numeratorPos.ne'
  have numeratorHigh : (numerator : ℚ) < 2 ^ ((numerator.log2 : Int) + 1) := by
    exact_mod_cast Nat.lt_log2_self
  have denominatorLow : (2 : ℚ) ^ (denominator.log2 : Int) ≤ denominator := by
    exact_mod_cast Nat.log2_self_le denominatorPos.ne'
  have denominatorHigh :
      (denominator : ℚ) < 2 ^ ((denominator.log2 : Int) + 1) := by
    exact_mod_cast Nat.lt_log2_self
  have powerPos (exponent : Int) : (0 : ℚ) < 2 ^ exponent := by positivity
  generalize estimated :
    (numerator.log2 : Int) - (denominator.log2 : Int) = estimate
  have atMost : (numerator : ℚ) / denominator < 2 ^ (estimate + 1) := by
    rw [div_lt_iff₀ denominatorRat]
    calc (numerator : ℚ)
        < 2 ^ ((numerator.log2 : Int) + 1) := numeratorHigh
      _ = 2 ^ (estimate + 1) * 2 ^ (denominator.log2 : Int) := by
          rw [← zpow_add₀ two_ne_zero, ← estimated]
          congr 1
          ring
      _ ≤ 2 ^ (estimate + 1) * denominator :=
          mul_le_mul_of_nonneg_left denominatorLow (powerPos _).le
  have atLeast : (2 : ℚ) ^ (estimate - 1) < numerator / denominator := by
    rw [lt_div_iff₀ denominatorRat]
    calc (2 : ℚ) ^ (estimate - 1) * denominator
        < 2 ^ (estimate - 1) * 2 ^ ((denominator.log2 : Int) + 1) :=
          mul_lt_mul_of_pos_left denominatorHigh (powerPos _)
      _ = 2 ^ (numerator.log2 : Int) := by
          rw [← zpow_add₀ two_ne_zero, ← estimated]
          congr 1
          ring
      _ ≤ numerator := numeratorLow
  have test : denominator * Nat.pow 2 estimate.toNat ≤
      numerator * Nat.pow 2 (-estimate).toNat ↔
        (2 : ℚ) ^ estimate ≤ numerator / denominator := by
    have powersPos : (0 : ℚ) < ((Nat.pow 2 (-estimate).toNat : Nat) : ℚ) := by
      have := Nat.two_pow_pos (-estimate).toNat
      exact_mod_cast this
    rw [two_zpow_eq, div_le_div_iff₀ powersPos denominatorRat,
      mul_comm denominator]
    exact_mod_cast Iff.rfl
  unfold floorLog
  simp only [estimated, test]
  split
  · next fits => exact ⟨fits, atMost⟩
  · next tooLarge =>
      refine ⟨atLeast.le, ?_⟩
      rw [sub_add_cancel]
      exact lt_of_not_ge tooLarge

/-- Bounds by powers of two determine `floorLog`. -/
theorem floorLog_eq {numerator denominator : Nat} {exponent : Int}
    (numeratorPos : 0 < numerator) (denominatorPos : 0 < denominator)
    (low : (2 : ℚ) ^ exponent ≤ numerator / denominator)
    (high : (numerator : ℚ) / denominator < 2 ^ (exponent + 1)) :
    floorLog numerator denominator = exponent := by
  have spec := floorLog_spec numeratorPos denominatorPos
  have one : (1 : ℚ) < 2 := by norm_num
  have left := (zpow_lt_zpow_iff_right₀ one).mp (spec.1.trans_lt high)
  have right := (zpow_lt_zpow_iff_right₀ one).mp (low.trans_lt spec.2)
  omega

theorem floorLog_lt {numerator denominator : Nat} {exponent : Int}
    (numeratorPos : 0 < numerator) (denominatorPos : 0 < denominator)
    (high : (numerator : ℚ) / denominator < 2 ^ exponent) :
    floorLog numerator denominator < exponent := by
  have spec := floorLog_spec numeratorPos denominatorPos
  exact (zpow_lt_zpow_iff_right₀ (by norm_num : (1 : ℚ) < 2)).mp
    (spec.1.trans_lt high)

/-- The closest double, from the scale and the integer that the scaled
quotient rounds to. -/
theorem nearest_eq_pack {numerator denominator mantissa : Nat}
    {exponent : Int} (numeratorPos : 0 < numerator)
    (denominatorPos : 0 < denominator)
    (scale : max (floorLog numerator denominator - 52) (-1074) = exponent)
    (rounds : RoundsTo ((numerator : ℚ) / denominator / 2 ^ exponent)
      mantissa) :
    Double.nearest numerator denominator = Double.pack mantissa exponent := by
  have chosen : max (floorLog numerator denominator + 1 -
      BinaryFormat.double.precision) BinaryFormat.double.leastExponent =
        exponent := by
    rw [← scale]
    simp only [BinaryFormat.double]
    congr 1
    omega
  have rounded : roundDivide (numerator * Nat.pow 2 (-exponent).toNat)
      (denominator * Nat.pow 2 exponent.toNat) = mantissa := by
    apply roundDivide_eq
    · exact Nat.mul_pos denominatorPos (Nat.two_pow_pos _)
    · convert rounds using 1
      rw [two_zpow_eq]
      have low : (0 : ℚ) < ((Nat.pow 2 (-exponent).toNat : Nat) : ℚ) := by
        have := Nat.two_pow_pos (-exponent).toNat
        exact_mod_cast this
      have high : (0 : ℚ) < ((Nat.pow 2 exponent.toNat : Nat) : ℚ) := by
        have := Nat.two_pow_pos exponent.toNat
        exact_mod_cast this
      have denominatorRat : (0 : ℚ) < denominator := by
        exact_mod_cast denominatorPos
      push_cast
      field_simp
  unfold Double.nearest BinaryFormat.round
  simp only [numeratorPos.ne', if_false, chosen, rounded]

/-! ## Fields of a double -/

namespace Double

theorem toNat_magnitudeBits (value : Double) :
    value.magnitudeBits.toNat = value.bits.toNat % 2 ^ 63 := by
  have mask : (~~~signBit).toNat = 2 ^ 63 - 1 := by decide
  rw [magnitudeBits, UInt64.toNat_and, mask, Nat.and_two_pow_sub_one_eq_mod]

theorem exponentField_eq (value : Double) :
    value.exponentField = value.magnitudeBits.toNat / 2 ^ 52 := by
  rw [exponentField, UInt64.toNat_shiftRight, Nat.shiftRight_eq_div_pow]
  rfl

theorem fractionField_eq (value : Double) :
    value.fractionField = value.magnitudeBits.toNat % 2 ^ 52 := by
  have mask : (0x000FFFFFFFFFFFFF : UInt64).toNat = 2 ^ 52 - 1 := by decide
  rw [fractionField, UInt64.toNat_and, mask, Nat.and_two_pow_sub_one_eq_mod,
    toNat_magnitudeBits]
  omega

/-- The exponent of a finite double is not the greatest one. -/
theorem exponentField_lt {value : Double} (finite : value.isFinite) :
    value.exponentField < 2047 := by
  have below : value.magnitudeBits.toNat < 0x7FF0000000000000 := by
    simpa [isFinite, infinityBits, UInt64.lt_iff_toNat_lt] using finite
  rw [exponentField_eq]
  omega

theorem mantissa_lt (value : Double) : value.mantissa < 2 ^ 53 := by
  have := fractionField_eq value
  unfold mantissa leadingBit
  split <;> omega

/-- Mantissa and exponent of a finite double are its bits. -/
theorem pack_mantissa {value : Double} (finite : value.isFinite) :
    pack value.mantissa value.exponent = ⟨value.magnitudeBits⟩ := by
  have exponentEq := exponentField_eq value
  have fractionEq := fractionField_eq value
  have bound := exponentField_lt finite
  have packed : (value.exponent + 1074).toNat * leadingBit + value.mantissa =
      value.magnitudeBits.toNat := by
    unfold exponent mantissa leadingBit
    split <;> omega
  have below : value.magnitudeBits.toNat < infinityBits.toNat := by
    simpa [isFinite, UInt64.lt_iff_toNat_lt] using finite
  unfold pack
  simp only [packed, below, if_true]
  congr 1
  simp

/-- The least mantissa of an exponent is twice the mantissa beyond the
greatest one of the exponent below. -/
theorem pack_carry {exponent : Int} (inRange : -1074 < exponent) :
    pack (2 ^ 53) (exponent - 1) = pack leadingBit exponent := by
  have same : (exponent - 1 + 1074).toNat * leadingBit + 2 ^ 53 =
      (exponent + 1074).toNat * leadingBit + leadingBit := by
    unfold leadingBit
    omega
  unfold pack
  rw [same]

/-! ## Quotients near a double -/

/-- The distance from a double to the end of its interval below, in quarters
of its last place. -/
def gapBelow (value : Double) : Nat :=
  if value.mantissa = leadingBit ∧ 1 < value.exponentField then 1 else 2

/-- A rational that rounds to a positive double, by the distance to its
neighbours. -/
structure Encloses (value : Double) (number : ℚ) : Prop where
  low : (4 * (value.mantissa : ℚ) - value.gapBelow) *
    2 ^ (value.exponent - 2) ≤ number
  high : number ≤ (4 * (value.mantissa : ℚ) + 2) * 2 ^ (value.exponent - 2)
  inside : value.mantissa % 2 ≠ 0 →
    (4 * (value.mantissa : ℚ) - value.gapBelow) *
        2 ^ (value.exponent - 2) < number ∧
      number < (4 * (value.mantissa : ℚ) + 2) * 2 ^ (value.exponent - 2)

private theorem two_zpow_pos (exponent : Int) : (0 : ℚ) < 2 ^ exponent := by
  positivity

private theorem quarter (exponent : Int) :
    (2 : ℚ) ^ (exponent - 2) = 2 ^ exponent / 4 := by
  rw [zpow_sub₀ two_ne_zero]
  norm_num

/-- Enclosed rationals round to the mantissa where the gap below is half a
last place, or where they are not below the double. -/
theorem Encloses.roundsTo {value : Double} {number : ℚ}
    (enclosed : value.Encloses number)
    (upper : value.gapBelow = 2 ∨
      (value.mantissa : ℚ) * 2 ^ value.exponent ≤ number) :
    RoundsTo (number / 2 ^ value.exponent) value.mantissa := by
  have positive := two_zpow_pos value.exponent
  obtain ⟨low, high, inside⟩ := enclosed
  rw [quarter] at low high inside
  generalize (2 : ℚ) ^ value.exponent = unit at *
  have scaled : number / unit * unit = number := by field_simp
  generalize number / unit = ratio at *
  subst scaled
  have highRatio : 2 * ratio ≤ 2 * value.mantissa + 1 := by
    by_contra beyond
    nlinarith
  have lowRatio : 2 * (value.mantissa : ℚ) - 1 ≤ 2 * ratio := by
    by_contra beyond
    rcases upper with half | above
    · rw [half] at low
      push_cast at low
      nlinarith
    · nlinarith
  refine ⟨highRatio, lowRatio, ?_, ?_⟩
  · intro tie
    by_contra odd
    have := (inside odd).2
    nlinarith
  · intro tie
    by_contra odd
    rcases upper with half | above
    · have strict := (inside odd).1
      rw [half] at strict
      push_cast at strict
      nlinarith
    · nlinarith

private theorem ratio_lt_of_rounds {ratio : ℚ} {mantissa bound : Nat}
    (rounds : RoundsTo ratio mantissa) (small : mantissa < bound) :
    ratio < bound := by
  have step : (mantissa : ℚ) + 1 ≤ bound := by exact_mod_cast small
  linarith [rounds.below]

/-- Below the least mantissa of its exponent, a number is scaled by the
exponent before, where it rounds to twice that mantissa. -/
private theorem nearest_of_carry {value : Double}
    {numerator denominator : Nat} (numeratorPos : 0 < numerator)
    (denominatorPos : 0 < denominator)
    (enclosed : value.Encloses ((numerator : ℚ) / denominator))
    (least : value.mantissa = leadingBit) (normal : 1 < value.exponentField)
    (below : (numerator : ℚ) / denominator <
      (value.mantissa : ℚ) * 2 ^ value.exponent) :
    nearest numerator denominator = pack value.mantissa value.exponent := by
  have inRange : -1074 < value.exponent := by
    unfold exponent
    omega
  have gap : value.gapBelow = 1 := by simp [gapBelow, least, normal]
  have low := enclosed.low
  have positive := two_zpow_pos value.exponent
  rw [gap, quarter] at low
  have halved : (2 : ℚ) ^ (value.exponent - 1) = 2 ^ value.exponent / 2 := by
    rw [zpow_sub₀ two_ne_zero]
    norm_num
  have leastRat : (value.mantissa : ℚ) = 2 ^ (52 : Nat) := by
    rw [least]
    norm_num [leadingBit]
  rw [leastRat] at low below
  have scale : max (floorLog numerator denominator - 52) (-1074) =
      value.exponent - 1 := by
    have logarithm : floorLog numerator denominator = value.exponent + 51 := by
      apply floorLog_eq numeratorPos denominatorPos
      · rw [zpow_add₀ two_ne_zero]
        norm_num at low ⊢
        nlinarith
      · rw [show value.exponent + 51 + 1 = value.exponent + (52 : Nat) by
          norm_num [add_assoc], zpow_add₀ two_ne_zero, zpow_natCast]
        linarith
    omega
  suffices rounds : RoundsTo ((numerator : ℚ) / denominator /
      2 ^ (value.exponent - 1)) (2 ^ 53) by
    rw [nearest_eq_pack numeratorPos denominatorPos scale rounds,
      pack_carry inRange, least]
  rw [halved]
  generalize (2 : ℚ) ^ value.exponent = unit at *
  have scaled : (numerator : ℚ) / denominator / (unit / 2) * (unit / 2) =
      numerator / denominator := by field_simp
  generalize (numerator : ℚ) / denominator / (unit / 2) = ratio at *
  rw [← scaled] at low below
  have ratioHigh : ratio < 2 ^ 53 := by
    by_contra beyond
    norm_num at beyond below
    nlinarith
  have ratioLow : (2 : ℚ) * 2 ^ 53 - 1 ≤ 2 * ratio := by
    by_contra beyond
    norm_num at beyond low
    nlinarith
  constructor
  · push_cast
    linarith
  · push_cast
    exact ratioLow
  · intro _
    norm_num
  · intro _
    norm_num

/-- A quotient in the rounding interval of a positive double rounds to its
magnitude. -/
theorem nearest_of_encloses {value : Double} {numerator denominator : Nat}
    (finite : value.isFinite) (numeratorPos : 0 < numerator)
    (denominatorPos : 0 < denominator)
    (enclosed : value.Encloses ((numerator : ℚ) / denominator)) :
    nearest numerator denominator = ⟨value.magnitudeBits⟩ := by
  rw [← pack_mantissa finite]
  have positive := two_zpow_pos value.exponent
  have exponentLow : -1074 ≤ value.exponent := by
    unfold exponent
    omega
  by_cases upper : value.gapBelow = 2 ∨
      (value.mantissa : ℚ) * 2 ^ value.exponent ≤ numerator / denominator
  · have rounds := enclosed.roundsTo upper
    refine nearest_eq_pack numeratorPos denominatorPos ?_ rounds
    have high : (numerator : ℚ) / denominator < 2 ^ (value.exponent + 53) := by
      have small := ratio_lt_of_rounds rounds value.mantissa_lt
      rw [div_lt_iff₀ positive] at small
      rw [add_comm, zpow_add₀ two_ne_zero]
      exact_mod_cast small
    by_cases enough :
        (2 : ℚ) ^ (value.exponent + 52) ≤ numerator / denominator
    · have logarithm : floorLog numerator denominator =
          value.exponent + 52 := by
        apply floorLog_eq numeratorPos denominatorPos enough
        rwa [add_assoc]
      omega
    · -- The scale stops at the least exponent, which must be this one.
      have logarithm := floorLog_lt numeratorPos denominatorPos
        (lt_of_not_ge enough)
      suffices value.exponent = -1074 by omega
      by_contra larger
      have normal : 1 < value.exponentField := by
        unfold exponent at larger
        omega
      have mantissaLow : leadingBit ≤ value.mantissa := by
        unfold mantissa
        split <;> omega
      have leadingRat : (leadingBit : ℚ) = 2 ^ (52 : Nat) := by
        norm_num [leadingBit]
      have belowLeading : (numerator : ℚ) / denominator <
          leadingBit * 2 ^ value.exponent := by
        rw [leadingRat, ← zpow_natCast, ← zpow_add₀ two_ne_zero, add_comm]
        exact_mod_cast lt_of_not_ge enough
      rcases Nat.eq_or_lt_of_le mantissaLow with least | more
      · have gap : value.gapBelow = 1 := by
          simp [gapBelow, ← least, normal]
        rcases upper with two | above
        · omega
        · rw [← least] at above
          linarith
      · have step : (leadingBit : ℚ) + 1 ≤ value.mantissa := by
          exact_mod_cast more
        have ratioLow := rounds.above
        rw [← div_lt_iff₀ positive] at belowLeading
        linarith
  · rw [not_or, not_le] at upper
    obtain ⟨gap, below⟩ := upper
    have carried : value.mantissa = leadingBit ∧ 1 < value.exponentField := by
      by_contra other
      exact gap (by simp only [gapBelow, other, if_false])
    exact nearest_of_carry numeratorPos denominatorPos enclosed carried.1
      carried.2 below

end Double

end FormCompiler
