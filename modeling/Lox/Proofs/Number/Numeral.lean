import Lox.Number.Literal
import Lox.Token.Segment
import Mathlib.Data.List.TakeWhile

/-!
# Numerals

The text of a decimal number: a sign or none, digits with or without a point among them, and
an exponent or none. It stands for the double nearest to the decimal that it writes. Number
literals are the numerals that have neither sign nor exponent.
-/

namespace Lox.Number

/-- A decimal number in writing. -/
structure Numeral where
  negative : Bool
  /-- The digits in front of the point. -/
  whole : List Char
  /-- The digits behind it. -/
  fraction : List Char
  exponent : Int
  deriving DecidableEq

namespace Numeral

open Segment (isDigit)

/-- Whether a text starts with a minus sign, and what stands behind its sign. -/
def signed : List Char → Bool × List Char
  | '-' :: rest => (true, rest)
  | '+' :: rest => (false, rest)
  | text => (false, text)

/-- The number that the text of an exponent writes, which needs a digit. -/
def exponent? (text : List Char) : Option Int :=
  let (negative, digits) := signed text
  if digits ≠ [] ∧ digits.all isDigit then
    some (if negative then -(ofDigits digits : Int) else ofDigits digits)
  else none

/-- The digits of a text that starts with digits, in front of a point and behind it, with
what stands behind both. -/
def mantissa (text : List Char) : List Char × List Char × List Char :=
  match text.dropWhile isDigit with
  | '.' :: rest => (text.takeWhile isDigit, rest.takeWhile isDigit, rest.dropWhile isDigit)
  | rest => (text.takeWhile isDigit, [], rest)

/-- Read a numeral, which has at least one digit in its mantissa. -/
def ofText? (text : List Char) : Option Numeral :=
  let (negative, unsigned) := signed text
  let (whole, fraction, behind) := mantissa unsigned
  if whole ++ fraction = [] then none
  else
    match behind with
    | [] => some ⟨negative, whole, fraction, 0⟩
    | mark :: rest =>
        if mark = 'e' ∨ mark = 'E' then
          (exponent? rest).map fun exponent => ⟨negative, whole, fraction, exponent⟩
        else none

/-- The digits of a numeral, read as one number. -/
def coefficient (numeral : Numeral) : Nat :=
  ofDigits (numeral.whole ++ numeral.fraction)

/-- The power of ten of its last digit. -/
def power (numeral : Numeral) : Int :=
  numeral.exponent - numeral.fraction.length

/-- The double nearest to a coefficient at a power of ten. -/
def nearest (coefficient : Nat) (power : Int) : Float :=
  if power ≤ 0 then Float.ofScientific coefficient true (-power).toNat
  else Float.ofScientific coefficient false power.toNat

/-- The double that a numeral stands for. -/
def value (numeral : Numeral) : Float :=
  if numeral.negative then -nearest numeral.coefficient numeral.power
  else nearest numeral.coefficient numeral.power

/-! ## Numerals put together -/

/-- A minus sign, or nothing. -/
def minus (negative : Bool) : List Char :=
  if negative then ['-'] else []

/-- Digits behind a point, with the point if there are any. -/
def pointed (places : List Char) : List Char :=
  if places = [] then [] else '.' :: places

section Written

variable {negative : Bool} {whole places behind : List Char}

theorem signed_minus (negative : Bool) {text : List Char}
    (digits : text.head?.all isDigit = true) :
    signed (minus negative ++ text) = (negative, text) := by
  cases negative with
  | true => rfl
  | false =>
      change signed text = (false, text)
      unfold signed
      split
      · simp [isDigit] at digits
      · simp [isDigit] at digits
      · rfl

/-- Digits, a point with digits and what starts with neither are told apart. -/
theorem mantissa_pointed (behind : List Char) (digits : ∀ digit ∈ whole, isDigit digit = true)
    (fraction : ∀ digit ∈ places, isDigit digit = true)
    (apart : ∀ character ∈ behind.head?, isDigit character = false ∧ character ≠ '.') :
    mantissa (whole ++ (pointed places ++ behind)) = (whole, places, behind) := by
  have stops : behind.takeWhile isDigit = [] ∧ behind.dropWhile isDigit = behind := by
    cases behind with
    | nil => exact ⟨rfl, rfl⟩
    | cons character rest =>
        have noDigit := (apart character rfl).1
        simp [noDigit]
  unfold mantissa
  rw [List.takeWhile_append_of_pos digits, List.dropWhile_append_of_pos digits]
  by_cases none : places = []
  · subst none
    change (match behind.dropWhile isDigit with | '.' :: _ => _ | _ => _) = _
    rw [stops.2]
    split
    · exact absurd rfl (apart '.' rfl).2
    · change (whole ++ behind.takeWhile isDigit, _, _) = _
      rw [stops.1, List.append_nil]
  · have point : pointed places ++ behind = '.' :: (places ++ behind) := by
      rw [pointed, if_neg none]
      rfl
    have pointNoDigit : isDigit '.' = false := rfl
    rw [point, List.dropWhile_cons_of_neg (by simp [pointNoDigit]),
      List.takeWhile_cons_of_neg (by simp [pointNoDigit])]
    change (whole ++ [], (places ++ behind).takeWhile isDigit,
      (places ++ behind).dropWhile isDigit) = _
    rw [List.takeWhile_append_of_pos fraction, List.dropWhile_append_of_pos fraction, stops.1,
      stops.2, List.append_nil, List.append_nil]

section Digits

variable (nonempty : whole ≠ []) (digits : ∀ digit ∈ whole, isDigit digit = true)
include nonempty digits

theorem head_digit (behind : List Char) : (whole ++ behind).head?.all isDigit = true := by
  cases whole with
  | nil => exact absurd rfl nonempty
  | cons first rest => exact digits first List.mem_cons_self

variable (fraction : ∀ digit ∈ places, isDigit digit = true)
include fraction

/-- A numeral without an exponent. -/
theorem ofText?_pointed (negative : Bool) :
    ofText? (minus negative ++ (whole ++ pointed places)) = some ⟨negative, whole, places, 0⟩ := by
  have split := mantissa_pointed [] digits fraction (by simp)
  rw [List.append_nil] at split
  have sign := signed_minus negative (head_digit nonempty digits (pointed places))
  unfold ofText?
  rw [sign]
  dsimp only
  rw [split]
  simp [nonempty]

/-- A numeral with an exponent. -/
theorem ofText?_exponent (negative : Bool) (rest : List Char) :
    ofText? (minus negative ++ (whole ++ (pointed places ++ 'e' :: rest))) =
      (exponent? rest).map fun exponent => ⟨negative, whole, places, exponent⟩ := by
  have split := mantissa_pointed ('e' :: rest) digits fraction
    (by simp [isDigit])
  have sign := signed_minus negative
    (head_digit nonempty digits (pointed places ++ 'e' :: rest))
  unfold ofText?
  rw [sign]
  dsimp only
  rw [split]
  simp [nonempty]

end Digits

/-- The numeral of a number literal stands for the number that the literal has. -/
theorem value_literal (nonempty : whole ≠ []) (digits : ∀ digit ∈ whole, isDigit digit = true)
    (fraction : ∀ digit ∈ places, isDigit digit = true) :
    (ofText? (whole ++ pointed places)).map value = some (ofDecimal whole places) := by
  have read := ofText?_pointed nonempty digits fraction false
  change ofText? (whole ++ pointed places) = _ at read
  rw [read]
  simp [value, nearest, power, coefficient, ofDecimal]

end Written

/-! ## Number literals -/

/-- A number literal is the longest numeral without sign and exponent that starts a text. -/
theorem number_eq (digit : Char) (rest : List Char) : Segment.number digit rest =
    .lexeme (.number (ofDecimal (digit :: rest.takeWhile isDigit)
        (Segment.fraction (rest.dropWhile isDigit))))
      (digit :: rest.takeWhile isDigit ++ pointed (Segment.fraction (rest.dropWhile isDigit))) := by
  unfold Segment.number pointed
  cases Segment.fraction (rest.dropWhile isDigit) <;> simp

/-- A digit starts a number literal. -/
theorem first_digit {digit : Char} (isDigit : isDigit digit = true) (rest : List Char) :
    Segment.first digit rest = Segment.number digit rest := by
  have apart (other : Char) (noDigit : Segment.isDigit other = false) : digit ≠ other := by
    rintro rfl
    exact Bool.false_ne_true (noDigit.symm.trans isDigit)
  have visible : Segment.isBlank digit = false := by
    simp [Segment.isBlank, apart ' ' rfl, apart '\t' rfl,
      apart '\r' rfl, apart '\n' rfl]
  simp [Segment.first, visible, apart '/' rfl, apart '"' rfl, isDigit]

theorem fraction_digits (text : List Char) :
    ∀ digit ∈ Segment.fraction text, isDigit digit = true := by
  intro digit inside
  unfold Segment.fraction at inside
  split at inside
  · next first rest =>
      split at inside
      · next isDigit =>
          rcases List.mem_cons.mp inside with rfl | inside
          · exact isDigit
          · exact List.mem_takeWhile_imp inside
      · cases inside
  · cases inside

end Numeral

end Lox.Number
