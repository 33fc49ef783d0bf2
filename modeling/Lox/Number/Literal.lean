/-!
# Reading number literals

A number literal is a run of digits, optionally with a point and more digits.
It stands for the double nearest to the decimal it writes.
-/

namespace Lox.Number

/-- The number that a run of decimal digits writes. -/
def ofDigits (digits : List Char) : Nat :=
  digits.foldl (fun total digit => 10 * total + (digit.toNat - '0'.toNat)) 0

/-- The double nearest to the decimal with the given whole and fractional
digits. -/
def ofDecimal (wholeDigits fractionDigits : List Char) : Float :=
  Float.ofScientific (ofDigits (wholeDigits ++ fractionDigits)) true fractionDigits.length

end Lox.Number
