/-!
# The content of a double

A finite double is a whole number times a power of two. Everything that is
written about numbers starts from that exact reading, so that no rounding hides
in the choice of digits.
-/

namespace Lox.Number

/-- What a double stands for. -/
inductive Content where
  | notANumber
  | infinite (negative : Bool)
  /-- The number `significand * 2 ^ exponent`, negated when `negative` holds.
  Zero keeps its sign. -/
  | finite (negative : Bool) (significand : Nat) (exponent : Int)
  deriving DecidableEq, Repr, Inhabited

/-- The exponent of the smallest doubles, shared by all that have no leading
one. -/
def leastExponent : Int := -1074

/-- Read a double from its sign, exponent and fraction fields. -/
def contentOfBits (bits : Nat) : Content :=
  let negative := bits / Nat.pow 2 63 == 1
  let biased := bits / Nat.pow 2 52 % Nat.pow 2 11
  let fraction := bits % Nat.pow 2 52
  if biased = 2047 then
    if fraction = 0 then .infinite negative else .notANumber
  else if biased = 0 then .finite negative fraction leastExponent
  else .finite negative (Nat.pow 2 52 + fraction) (leastExponent + (biased - 1 : Nat))

/-- What a double stands for. -/
def content (value : Float) : Content :=
  contentOfBits value.toBits.toNat

/-- A magnitude as a whole number, if it is one. -/
def whole? (significand : Nat) (exponent : Int) : Option Nat :=
  if 0 ≤ exponent then some (significand * Nat.pow 2 exponent.toNat)
  else
    let unit := Nat.pow 2 (-exponent).toNat
    if significand % unit = 0 then some (significand / unit) else none

/-- The sign as it is written in front of a magnitude. -/
def signText (negative : Bool) : String :=
  if negative then "-" else ""

end Lox.Number
