/-!
# The shortest decimal of a double

A double is a whole number times a power of two, and all reals nearer to it than to its neighbours
are read back as it. Among the decimals in that interval, `BsonWire.Decimal.ofDouble` takes one
with the fewest digits, and of those the nearest; a `BsonWire.Decimal.Tie` says which of two that
are equally near. For one digit, two, and so on up to seventeen, it is enough to look at the two
neighbours of the double on the grid of decimals with that many digits: if a point of the grid lies
in the interval, so does one of them.

Everything is counted in exact natural numbers.
-/

namespace BsonWire

/-- The number `digits` times ten to the power `exponent`. -/
structure Decimal where
  /-- The digits, read as a whole number. -/
  digits : Nat
  /-- The power of ten of the last digit. -/
  exponent : Int
  deriving DecidableEq, Repr

/-- A double, by what its bits mean. -/
inductive DoubleShape where
  | nan
  | infinite (negative : Bool)
  /-- The number `mantissa` times two to the power `exponent`. The gap below a number is half as
  wide as the gap above where the power of two changes. -/
  | finite (negative : Bool) (mantissa : Nat) (exponent : Int) (narrowBelow : Bool)
  deriving DecidableEq, Repr

/-- The meaning of the bits of a double. -/
def DoubleShape.ofBits (bits : UInt64) : DoubleShape :=
  let negative : Bool := 1 <<< 63 ≤ bits.toNat
  let field : Nat := bits.toNat >>> 52 % 1 <<< 11
  let fraction : Nat := bits.toNat % 1 <<< 52
  if field = 2047 then
    if fraction = 0 then .infinite negative else .nan
  else if field = 0 then .finite negative fraction (-1074) false
  else .finite negative (1 <<< 52 + fraction) ((field : Int) - 1075) (fraction = 0 ∧ 1 < field)

namespace Decimal

/-- Which of two decimals that are equally near to a double is taken. -/
inductive Tie where
  /-- The greater. -/
  | up
  /-- The one whose last digit is even. -/
  | even
  deriving DecidableEq, Repr

/-- The reals that are read back as one double, as fractions over a common denominator. -/
structure Interval where
  /-- The double. -/
  value : Nat
  /-- The distance of the lower end. -/
  below : Nat
  /-- The distance of the upper end. -/
  above : Nat
  /-- The common denominator. -/
  denominator : Nat
  /-- Whether the ends belong to the interval. -/
  closed : Bool

/-- The interval of the double `mantissa` times two to the power `exponent`. -/
def Interval.ofFinite (mantissa : Nat) (exponent : Int) (narrowBelow : Bool) : Interval where
  value := (4 * mantissa) <<< exponent.toNat
  below := (if narrowBelow then 1 else 2) <<< exponent.toNat
  above := 2 <<< exponent.toNat
  denominator := 4 <<< (-exponent).toNat
  closed := mantissa % 2 = 0

/-- The interval with everything times ten to a power, so that the unit is that power of ten. -/
def Interval.scale (i : Interval) (power : Int) : Interval where
  value := i.value * Nat.pow 10 (-power).toNat
  below := i.below * Nat.pow 10 (-power).toNat
  above := i.above * Nat.pow 10 (-power).toNat
  denominator := i.denominator * Nat.pow 10 power.toNat
  closed := i.closed

/-- Whether a whole number lies in the interval. -/
def Interval.contains (i : Interval) (n : Nat) : Bool :=
  let point := n * i.denominator
  if i.closed then i.value ≤ point + i.below && point ≤ i.value + i.above
  else i.value < point + i.below && point < i.value + i.above

/-- Whether the value is nearer to the next whole number than to the one before it, or as near and
the tie goes to the next. -/
def Interval.roundsUp (i : Interval) (tie : Tie) : Bool :=
  let twice := 2 * (i.value % i.denominator)
  if twice = i.denominator then
    match tie with
    | .up => true
    | .even => i.value / i.denominator % 2 = 1
  else i.denominator < twice

/-- The whole number nearest to the value, of those two next to it that lie in the interval. -/
def Interval.nearest? (i : Interval) (tie : Tie) : Option Nat :=
  let floor := i.value / i.denominator
  match i.contains floor, i.contains (floor + 1) with
  | true, true => some (if i.roundsUp tie then floor + 1 else floor)
  | true, false => some floor
  | false, true => some (floor + 1)
  | false, false => none

/-- The number of decimal digits of a number. -/
def length (n : Nat) : Nat := (Nat.toDigits 10 n).length

/-- A power of ten that brings every double above one. -/
def lift : Nat := 330

/-- The power of ten of the first digit of a value that is not zero. -/
def Interval.leadingPower (i : Interval) : Int :=
  length (i.value * Nat.pow 10 lift / i.denominator) - 1 - lift

/-- The decimal without zeros at its end. -/
def trim (digits : Nat) (exponent : Int) : (fuel : Nat) → Decimal
  | 0 => ⟨digits, exponent⟩
  | fuel + 1 =>
    if digits ≠ 0 ∧ digits % 10 = 0 then trim (digits / 10) (exponent + 1) fuel
    else ⟨digits, exponent⟩

/-- The shortest decimal of an interval whose value has its first digit at the power `leading`, of
those with `count` digits or more. -/
def shortestFrom (i : Interval) (tie : Tie) (leading : Int) (count : Nat) : (more : Nat) → Decimal
  | 0 =>
    let unit := leading - count + 1
    trim ((i.scale unit).value / (i.scale unit).denominator) unit count
  | more + 1 =>
    let unit := leading - count + 1
    match (i.scale unit).nearest? tie with
    | some digits => trim digits unit (count + 1)
    | none => shortestFrom i tie leading (count + 1) more

/-- The shortest decimal that is read back as the double `mantissa` times two to the power
`exponent`, and the nearest of those. -/
def ofDouble (tie : Tie) (mantissa : Nat) (exponent : Int) (narrowBelow : Bool) : Decimal :=
  if mantissa = 0 then ⟨0, 0⟩
  else
    let i := Interval.ofFinite mantissa exponent narrowBelow
    shortestFrom i tie i.leadingPower 1 17

end Decimal

end BsonWire
