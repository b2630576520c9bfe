/-!
# Double-precision numbers

A double is its sixty-four bits.  Classification, comparison and conversion
are exact integer arithmetic on the decoded sign, mantissa and exponent: a
finite double is `mantissa * 2 ^ exponent` up to its sign, and `nearest`
rounds a quotient of natural numbers to the closest such value, a half going
to the even mantissa.
-/

namespace FormCompiler

structure Double where
  bits : UInt64
deriving DecidableEq, Repr, Inhabited

/-- A binary format: the number of significant bits and the exponent of the
least significant bit of its smallest values. -/
structure BinaryFormat where
  precision : Nat
  leastExponent : Int
deriving DecidableEq, Repr

namespace BinaryFormat

def double : BinaryFormat := ⟨53, -1074⟩

def single : BinaryFormat := ⟨24, -149⟩

end BinaryFormat

/-- Twice the remainder decides; an exact half goes to the even neighbour. -/
def roundDivide (numerator denominator : Nat) : Nat :=
  let quotient := numerator / denominator
  let twice := 2 * (numerator % denominator)
  if twice < denominator then quotient
  else if denominator < twice then quotient + 1
  else quotient + quotient % 2

/-- `⌊log₂ (numerator / denominator)⌋` of a positive quotient. -/
def floorLog (numerator denominator : Nat) : Int :=
  let estimate : Int := (numerator.log2 : Int) - (denominator.log2 : Int)
  if denominator * Nat.pow 2 estimate.toNat ≤
      numerator * Nat.pow 2 (-estimate).toNat then
    estimate
  else estimate - 1

/-- The mantissa and exponent of the value of a format closest to a positive
quotient, as if the format had no largest exponent. -/
def BinaryFormat.round (format : BinaryFormat)
    (numerator denominator : Nat) : Nat × Int :=
  let exponent := max (floorLog numerator denominator + 1 - format.precision)
    format.leastExponent
  (roundDivide (numerator * Nat.pow 2 (-exponent).toNat)
    (denominator * Nat.pow 2 exponent.toNat), exponent)

namespace Double

def signBit : UInt64 := 0x8000000000000000

def infinityBits : UInt64 := 0x7FF0000000000000

def quietBits : UInt64 := 0x7FF8000000000000

def infinity : Double := ⟨infinityBits⟩

def nan : Double := ⟨quietBits⟩

def zero : Double := ⟨0⟩

def isNegative (value : Double) : Bool := value.bits &&& signBit != 0

/-- The bits without the sign. -/
def magnitudeBits (value : Double) : UInt64 := value.bits &&& ~~~signBit

def exponentField (value : Double) : Nat :=
  (value.magnitudeBits >>> 52).toNat

def fractionField (value : Double) : Nat :=
  (value.bits &&& 0x000FFFFFFFFFFFFF).toNat

def isNan (value : Double) : Bool := infinityBits < value.magnitudeBits

def isInfinite (value : Double) : Bool := value.magnitudeBits == infinityBits

def isFinite (value : Double) : Bool := value.magnitudeBits < infinityBits

def isZero (value : Double) : Bool := value.magnitudeBits == 0

def negate (value : Double) : Double := ⟨value.bits ^^^ signBit⟩

def withSign (negative : Bool) (value : Double) : Double :=
  if negative then value.negate else value

/-- The bit `2 ^ 52` that a normal mantissa carries above its fraction. -/
def leadingBit : Nat := 0x10000000000000

/-- A finite double is `mantissa * 2 ^ exponent` up to its sign. -/
def mantissa (value : Double) : Nat :=
  if value.exponentField = 0 then value.fractionField
  else leadingBit + value.fractionField

def exponent (value : Double) : Int :=
  (max value.exponentField 1 : Nat) - 1075

/-- Numeric equality: a NaN equals nothing and the two zeros are equal. -/
def numericallyEqual (left right : Double) : Bool :=
  !left.isNan && !right.isNan &&
    (left.bits == right.bits || (left.isZero && right.isZero))

/-- Packs a rounded mantissa.  A mantissa that reached `2 ^ 53` carries into
the exponent field, and one below `2 ^ 52` leaves that field zero. -/
def pack (mantissa : Nat) (exponent : Int) : Double :=
  let packed := (exponent + 1074).toNat * leadingBit + mantissa
  if packed < infinityBits.toNat then ⟨packed.toUInt64⟩ else infinity

/-- The double closest to a quotient with a positive denominator. -/
def nearest (numerator denominator : Nat) : Double :=
  if numerator = 0 then zero
  else
    let rounded := BinaryFormat.double.round numerator denominator
    pack rounded.1 rounded.2

/-- The double closest to an integer. -/
def ofInt (value : Int) : Double :=
  (nearest value.natAbs 1).withSign (value < 0)

/-- The double closest to `mantissa * 2 ^ exponent`. -/
def ofScaled (mantissa : Nat) (exponent : Int) : Double :=
  nearest (mantissa * Nat.pow 2 exponent.toNat)
    (Nat.pow 2 (-exponent).toNat)

/-- Rounds to single precision and widens again.  A NaN becomes quiet and
keeps the part of its payload that a single can hold. -/
def toSingle (value : Double) : Double :=
  if value.isNan then
    ⟨(value.bits &&& 0xFFFFFFFFE0000000) ||| quietBits⟩
  else if value.isInfinite || value.isZero then value
  else
    let rounded := BinaryFormat.single.round
      (value.mantissa * Nat.pow 2 value.exponent.toNat)
      (Nat.pow 2 (-value.exponent).toNat)
    let magnitude :=
      if Nat.pow 2 128 ≤ rounded.1 * Nat.pow 2 rounded.2.toNat then infinity
      else ofScaled rounded.1 rounded.2
    magnitude.withSign value.isNegative

end Double

end FormCompiler
