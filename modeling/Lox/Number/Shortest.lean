import Lox.Number.Double

/-!
# Shortest decimals

A double is written with the fewest decimal digits that still read back as the
same double. Among decimals of that length the nearest one is taken, and of two
equally near ones the one that `Tie` names.

The reals that read back as a double form an interval around it. Its ends lie
half way to the neighbouring doubles and belong to it exactly when the
significand is even, because reading rounds ties to even. All comparisons are
made on whole numbers.
-/

namespace Lox.Number

/-- Which of two equally near decimals to take. -/
inductive Tie where
  /-- The larger in magnitude. -/
  | away
  /-- The one with the even last digit. -/
  | even
  deriving DecidableEq, Repr, Inhabited

/-- The decimal `coefficient * 10 ^ power`. -/
structure Decimal where
  coefficient : Nat
  power : Int
  deriving DecidableEq, Repr, Inhabited

/-- The number of decimal digits of a number, one for zero. -/
def digitCount (number : Nat) : Nat :=
  (Nat.toDigits 10 number).length

namespace Decimal

/-- The digits of the coefficient. -/
def digits (decimal : Decimal) : List Char :=
  Nat.toDigits 10 decimal.coefficient

/-- The power of ten of the leading digit. -/
def exponent (decimal : Decimal) : Int :=
  decimal.power + (decimal.digits.length - 1 : Nat)

/-- The same decimal without trailing zeros in the coefficient. -/
def trimmed (decimal : Decimal) : Decimal :=
  let zeros := (decimal.digits.reverse.takeWhile (· == '0')).length
  ⟨decimal.coefficient / Nat.pow 10 zeros, decimal.power + zeros⟩

end Decimal

/-- A positive magnitude with the interval of reals that round to it, as whole
multiples of `2 ^ scale`. -/
structure Rounding where
  low : Nat
  value : Nat
  high : Nat
  scale : Int
  /-- Whether the two ends round to the magnitude themselves. -/
  closed : Bool

/-- The interval of a magnitude. The gap below is half as wide where the
significand is the least of its binade, since the doubles there are twice as
dense. -/
def Rounding.of (significand : Nat) (exponent : Int) : Rounding where
  low :=
    if significand = Nat.pow 2 52 ∧ exponent ≠ leastExponent then 4 * significand - 1
    else 4 * significand - 2
  value := 4 * significand
  high := 4 * significand + 2
  scale := exponent - 2
  closed := significand % 2 == 0

namespace Rounding

/-- The factor that turns multiples of `2 ^ scale` into the whole numbers in
which they are compared with decimals of a given power. -/
def binaryFactor (rounding : Rounding) (power : Int) : Nat :=
  Nat.pow 2 rounding.scale.toNat * Nat.pow 10 (-power).toNat

/-- The factor that turns decimals of a given power into those whole numbers. -/
def decimalFactor (rounding : Rounding) (power : Int) : Nat :=
  Nat.pow 2 (-rounding.scale).toNat * Nat.pow 10 power.toNat

/-- Whether a decimal reads back as the magnitude. -/
def contains (rounding : Rounding) (decimal : Decimal) : Bool :=
  let binary := rounding.binaryFactor decimal.power
  let position := decimal.coefficient * rounding.decimalFactor decimal.power
  if rounding.closed then
    rounding.low * binary ≤ position && position ≤ rounding.high * binary
  else
    rounding.low * binary < position && position < rounding.high * binary

/-- The largest coefficient of a given power that does not exceed the
magnitude. -/
def floor (rounding : Rounding) (power : Int) : Nat :=
  rounding.value * rounding.binaryFactor power / rounding.decimalFactor power

/-- The coefficient to take when both neighbours of the magnitude read back. -/
def nearer (rounding : Rounding) (tie : Tie) (power : Int) : Nat :=
  let below := rounding.floor power
  let target := 2 * (rounding.value * rounding.binaryFactor power)
  let middle := (2 * below + 1) * rounding.decimalFactor power
  if target < middle then below
  else if middle < target then below + 1
  else
    match tie with
    | .away => below + 1
    | .even => if below % 2 = 0 then below else below + 1

/-- The decimal of a given power that reads back as the magnitude, if there is
one. It is enough to look at the two neighbours of the magnitude. -/
def candidate? (rounding : Rounding) (tie : Tie) (power : Int) : Option Decimal :=
  let below : Decimal := ⟨rounding.floor power, power⟩
  let above : Decimal := ⟨rounding.floor power + 1, power⟩
  match rounding.contains below, rounding.contains above with
  | true, true => some ⟨rounding.nearer tie power, power⟩
  | true, false => some below
  | false, true => some above
  | false, false => none

/-- The first decimal that reads back, adding one digit at a time. -/
def search (rounding : Rounding) (tie : Tie) : Nat → Int → Decimal
  | 0, power => ⟨rounding.floor power, power⟩
  | more + 1, power =>
      match rounding.candidate? tie power with
      | some decimal => decimal
      | none => search rounding tie more (power - 1)

/-- The power of ten of the leading digit of the magnitude. -/
def leadingPower (rounding : Rounding) : Int :=
  let numerator := rounding.value * Nat.pow 2 rounding.scale.toNat
  let denominator := Nat.pow 2 (-rounding.scale).toNat
  if denominator ≤ numerator then (digitCount (numerator / denominator) - 1 : Nat)
  else -(digitCount ((denominator - 1) / numerator) : Nat)

end Rounding

/-- The shortest decimal that reads back as a positive magnitude. Seventeen
digits are always enough to tell doubles apart. -/
def shortest (tie : Tie) (significand : Nat) (exponent : Int) : Decimal :=
  let rounding := Rounding.of significand exponent
  (rounding.search tie 17 rounding.leadingPower).trimmed

end Lox.Number
