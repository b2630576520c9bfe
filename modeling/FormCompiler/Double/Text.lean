import FormCompiler.Double.Basic

/-!
# Decimal text of doubles

Writing takes the fewest significant digits that round back to the value and,
of those, the digits closest to it.  Reading rounds the written decimal to
the closest double.  Both are exact: the decimal grids and the interval of
reals that round to a value are compared in natural numbers.
-/

namespace FormCompiler

/-- The number of decimal digits of a natural number; zero has none. -/
def decimalLength (value : Nat) : Nat :=
  if value = 0 then 0 else (Nat.toDigits 10 value).length

/-- The reals that round to one positive double, scaled to a common
denominator.  The ends belong to the interval exactly when `closed` holds. -/
structure RoundingInterval where
  low : Nat
  value : Nat
  high : Nat
  denominator : Nat
  closed : Bool
deriving Repr

namespace RoundingInterval

/-- Whether `candidate * 10 ^ power` lies in the interval. -/
def contains (interval : RoundingInterval) (candidate : Nat) (power : Int) :
    Bool :=
  let point := candidate * Nat.pow 10 power.toNat * interval.denominator
  let low := interval.low * Nat.pow 10 (-power).toNat
  let high := interval.high * Nat.pow 10 (-power).toNat
  if interval.closed then low ≤ point && point ≤ high
  else low < point && point < high

/-- The least `power` with `value < 10 ^ power`. -/
def magnitude (interval : RoundingInterval) : Int :=
  if interval.denominator ≤ interval.value then
    decimalLength (interval.value / interval.denominator)
  else
    1 - (decimalLength ((interval.denominator - 1) / interval.value) : Int)

/-- The digit string with a given number of digits that rounds back, if there
is one: the closer of the two neighbours on that grid, the upper one when
both are equally close. -/
def withDigits (interval : RoundingInterval) (count : Nat) :
    Option (Nat × Int) :=
  let power := interval.magnitude - count
  let scaledValue := interval.value * Nat.pow 10 (-power).toNat
  let unit := interval.denominator * Nat.pow 10 power.toNat
  let below := scaledValue / unit
  let closerBelow := 2 * (scaledValue % unit) < unit
  match interval.contains below power, interval.contains (below + 1) power with
  | true, true => some (if closerBelow then below else below + 1, power)
  | true, false => some (below, power)
  | false, true => some (below + 1, power)
  | false, false => none

end RoundingInterval

/-- Drops trailing zeros of a digit string, raising its power of ten. -/
def stripTrailingZeros : (fuel : Nat) → Nat × Int → Nat × Int
  | 0, digits => digits
  | fuel + 1, (digits, power) =>
      if digits ≠ 0 ∧ digits % 10 = 0 then
        stripTrailingZeros fuel (digits / 10, power + 1)
      else (digits, power)

namespace Double

def roundingInterval (value : Double) : RoundingInterval :=
  let mantissa := value.mantissa
  let exponent := value.exponent - 2
  let gapBelow :=
    if mantissa = leadingBit ∧ value.exponentField > 1 then 1 else 2
  let unit := Nat.pow 2 exponent.toNat
  { low := (4 * mantissa - gapBelow) * unit
    value := 4 * mantissa * unit
    high := (4 * mantissa + 2) * unit
    denominator := Nat.pow 2 (-exponent).toNat
    closed := mantissa % 2 = 0 }

/-- The fewest digits that read back as a positive finite double, with the
power of ten that scales them. -/
def shortestDigits (value : Double) : Nat × Int :=
  let interval := value.roundingInterval
  let found := (List.range 17).findSome? fun count =>
    interval.withDigits (count + 1)
  stripTrailingZeros 17 (found.getD (0, 0))

/-- Positional notation is used for magnitudes from `10 ^ -4` up to, and
without, `10 ^ 16`; at least one digit stands on each side of the point. -/
def magnitudeText (value : Double) : String :=
  let (digits, power) := value.shortestDigits
  let text := toString digits
  let point : Int := text.length + power
  if -3 ≤ point ∧ point ≤ 16 then
    if point ≤ 0 then
      "0." ++ String.ofList (List.replicate (-point).toNat '0') ++ text
    else if 0 ≤ power then
      text ++ String.ofList (List.replicate power.toNat '0') ++ ".0"
    else
      String.ofList (text.toList.take point.toNat) ++ "." ++
        String.ofList (text.toList.drop point.toNat)
  else
    let mantissaText :=
      match text.toList with
      | first :: second :: rest =>
          String.ofList (first :: '.' :: second :: rest)
      | _ => text
    mantissaText ++ "e" ++ toString (point - 1)

def text (value : Double) : String :=
  if value.isNan then "NaN"
  else
    let sign := if value.isNegative then "-" else ""
    if value.isInfinite then sign ++ "inf"
    else if value.isZero then sign ++ "0.0"
    else sign ++ value.magnitudeText

end Double

/-- The value of a run of decimal digits. -/
def digitsValue (digits : List Char) : Nat :=
  digits.foldl (fun value digit => 10 * value + (digit.toNat - '0'.toNat)) 0

/-- An optional sign and the characters after it. -/
def splitSign : List Char → Bool × List Char
  | '-' :: rest => (true, rest)
  | '+' :: rest => (false, rest)
  | rest => (false, rest)

/-- A signed 64-bit integer in decimal. -/
def parseInt64? (characters : List Char) : Option Int64 :=
  let (negative, digits) := splitSign characters
  if digits.isEmpty || !digits.all Char.isDigit then none
  else
    let magnitude := digitsValue digits
    let value : Int := if negative then -(magnitude : Int) else magnitude
    if -9223372036854775808 ≤ value ∧ value ≤ 9223372036854775807 then
      some (Int64.ofInt value)
    else none

/-- The exponent part of a decimal: nothing, or an exponent mark followed by
an optional sign and digits. -/
def parseExponent? : List Char → Option Int
  | [] => some 0
  | mark :: rest =>
      let (negative, digits) := splitSign rest
      if (mark = 'e' ∨ mark = 'E') ∧ digits ≠ [] ∧ digits.all Char.isDigit then
        some (if negative then -(digitsValue digits : Int)
          else digitsValue digits)
      else none

/-- The double closest to `digits * 10 ^ power`.  Decimals far outside the
range of doubles are decided by their magnitude alone. -/
def Double.ofDecimal (digits : Nat) (power : Int) : Double :=
  let magnitude : Int := decimalLength digits + power
  if digits = 0 ∨ magnitude < -330 then .zero
  else if 310 < magnitude then .infinity
  else .nearest (digits * Nat.pow 10 power.toNat) (Nat.pow 10 (-power).toNat)

/-- An unsigned decimal: digits with an optional point, at least one digit in
all, and an optional exponent. -/
def parseDecimal? (characters : List Char) : Option Double :=
  let whole := characters.takeWhile Char.isDigit
  let afterWhole := characters.dropWhile Char.isDigit
  let (fraction, suffix) :=
    match afterWhole with
    | '.' :: rest => (rest.takeWhile Char.isDigit, rest.dropWhile Char.isDigit)
    | rest => ([], rest)
  let digits := whole ++ fraction
  if digits.isEmpty then none
  else
    (parseExponent? suffix).map fun exponent =>
      Double.ofDecimal (digitsValue digits) (exponent - fraction.length)

/-- Reads a signed decimal, an infinity or a NaN. -/
def Double.parse? (characters : List Char) : Option Double :=
  let (negative, rest) := splitSign characters
  let word := String.ofList (rest.map Char.toLower)
  let magnitude :=
    if word = "inf" ∨ word = "infinity" then some Double.infinity
    else if word = "nan" then some Double.nan
    else parseDecimal? rest
  magnitude.map (Double.withSign negative)

end FormCompiler
