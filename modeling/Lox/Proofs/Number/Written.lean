import Lox.Proofs.Number.Nearest
import Lox.Proofs.Number.Shortest
import Lox.Proofs.Token.Longest
import Lox.Value.Text

/-!
# The text of a number

A decimal is written with its digits in their places, or with an exponent behind one digit and
a fraction. Either way the text is a numeral of the same number.
-/

namespace Lox.Number

open Segment (isDigit)
open Numeral (minus pointed)

/-- The number that a numeral writes, without its sign. -/
def Numeral.magnitude (numeral : Numeral) : ℚ :=
  numeral.coefficient * 10 ^ numeral.power

/-- The digits of a numeral in front of the point, of which there has to be one, and behind
it. -/
structure Digits (whole places : List Char) : Prop where
  nonempty : whole ≠ []
  whole : ∀ digit ∈ whole, isDigit digit = true
  places : ∀ digit ∈ places, isDigit digit = true

theorem ofDigits_append (front back : List Char) :
    ofDigits (front ++ back) = 10 ^ back.length * ofDigits front + ofDigits back := by
  change Nat.ofDigitChars 10 (front ++ back) 0 = _
  rw [Nat.ofDigitChars_append, Nat.ofDigitChars_eq_ofDigitChars_zero]
  rfl

@[simp] theorem ofDigits_replicate (count : Nat) : ofDigits (List.replicate count '0') = 0 :=
  Nat.ofDigitChars_replicate_zero

namespace Decimal

variable (decimal : Decimal)

theorem digits_all : ∀ digit ∈ decimal.digits, isDigit digit = true := by
  intro digit inside
  rw [Segment.isDigit_eq]
  exact Nat.isDigit_of_mem_toDigits (by decide) (by decide) inside

theorem digits_ne_nil : decimal.digits ≠ [] :=
  Nat.toDigits_ne_nil

@[simp] theorem ofDigits_digits : ofDigits decimal.digits = decimal.coefficient :=
  Nat.ofDigitChars_ten_toDigits

theorem zeros_all (count : Nat) : ∀ digit ∈ List.replicate count '0', isDigit digit = true := by
  intro digit inside
  rw [List.eq_of_mem_replicate inside]
  rfl

/-- Zeros behind the digits raise the power. -/
theorem magnitude_padded (count : Nat) :
    (Numeral.mk false (decimal.digits ++ List.replicate count '0') [] 0).magnitude =
      decimal.coefficient * 10 ^ (count : Int) := by
  unfold Numeral.magnitude Numeral.coefficient Numeral.power
  rw [List.append_nil, ofDigits_append, ofDigits_replicate, ofDigits_digits]
  simp [mul_comm]

/-- A point among the digits lowers the power. -/
theorem magnitude_cut {count : Nat} (short : count < decimal.digits.length) :
    (Numeral.mk false (decimal.digits.take (decimal.digits.length - count))
      (decimal.digits.drop (decimal.digits.length - count)) 0).magnitude =
        decimal.coefficient * 10 ^ (-count : Int) := by
  have split := List.take_append_drop (decimal.digits.length - count) decimal.digits
  have length : (decimal.digits.drop (decimal.digits.length - count)).length = count := by
    rw [List.length_drop]
    omega
  unfold Numeral.magnitude Numeral.coefficient Numeral.power
  dsimp only
  rw [split, length, ofDigits_digits, zero_sub]

/-- So does a point in front of them, with zeros in between. -/
theorem magnitude_below {count : Nat} (long : decimal.digits.length ≤ count) :
    (Numeral.mk false ['0']
      (List.replicate (count - decimal.digits.length) '0' ++ decimal.digits) 0).magnitude =
        decimal.coefficient * 10 ^ (-count : Int) := by
  have length : (List.replicate (count - decimal.digits.length) '0' ++
      decimal.digits).length = count := by
    rw [List.length_append, List.length_replicate]
    omega
  have zero : ofDigits ['0'] = 0 := rfl
  unfold Numeral.magnitude Numeral.coefficient Numeral.power
  dsimp only
  rw [length, ofDigits_append, ofDigits_append, ofDigits_replicate, ofDigits_digits, zero, zero_sub]
  simp

/-- With its digits in their places, a decimal is a numeral without an exponent. -/
theorem positional_text : ∃ whole places, (decimal.positional "").toList = whole ++ pointed places ∧
    Digits whole places ∧ (Numeral.mk false whole places 0).magnitude = decimal.value := by
  have digits := decimal.digits_all
  unfold positional value
  dsimp only
  split
  · next upward =>
      obtain ⟨count, power⟩ := Int.eq_ofNat_of_zero_le upward
      rw [power]
      refine ⟨decimal.digits ++ List.replicate count '0', [], by simp [pointed],
        ⟨by simp [digits_ne_nil], ?_, by simp⟩, decimal.magnitude_padded count⟩
      intro digit inside
      exact (List.mem_append.mp inside).elim (digits digit) (zeros_all _ digit)
  · next downward =>
      obtain ⟨count, power⟩ : ∃ count : Nat, decimal.power = -count :=
        ⟨(-decimal.power).toNat, by omega⟩
      have positive : 0 < count := by omega
      rw [power, neg_neg, Int.toNat_natCast]
      split
      · next short =>
          refine ⟨decimal.digits.take (decimal.digits.length - count),
            decimal.digits.drop (decimal.digits.length - count), ?_, ⟨?_, ?_, ?_⟩,
            decimal.magnitude_cut short⟩
          · have some : decimal.digits.drop (decimal.digits.length - count) ≠ [] := by
              rw [ne_eq, List.drop_eq_nil_iff]
              omega
            rw [pointed, if_neg some, String.toList_ofList]
          · rw [ne_eq, List.take_eq_nil_iff, not_or]
            exact ⟨by omega, digits_ne_nil decimal⟩
          · exact fun digit inside => digits digit (List.mem_of_mem_take inside)
          · exact fun digit inside => digits digit (List.mem_of_mem_drop inside)
      · next long =>
          refine ⟨['0'], List.replicate (count - decimal.digits.length) '0' ++ decimal.digits, ?_,
            ⟨by simp, by simp [isDigit], ?_⟩, decimal.magnitude_below (Nat.le_of_not_lt long)⟩
          · have some :
                List.replicate (count - decimal.digits.length) '0' ++ decimal.digits ≠ [] := by
              simp [digits_ne_nil]
            rw [pointed, if_neg some, String.toList_ofList]
            rfl
          · intro digit inside
            exact (List.mem_append.mp inside).elim (zeros_all _ digit) (digits digit)

/-- With an exponent, a decimal is written with one digit in front of the point and at least
one behind it. -/
theorem scientific_text : ∃ first places, (Value.numberLayout.scientific decimal).toList =
      [first] ++
        (pointed places ++ 'e' :: (Value.numberLayout.exponentText decimal.exponent).toList) ∧
    places ≠ [] ∧ Digits [first] places ∧
      (Numeral.mk false [first] places decimal.exponent).magnitude = decimal.value := by
  have all := decimal.digits_all
  have some := decimal.digits_ne_nil
  have coefficient := decimal.ofDigits_digits
  have exponent : decimal.exponent = decimal.power + (decimal.digits.length - 1 : Nat) := rfl
  unfold Layout.scientific
  unfold Numeral.magnitude Numeral.coefficient Numeral.power
  dsimp only
  generalize decimal.digits = digits at *
  match digits with
  | [] => exact absurd rfl some
  | [first] =>
      refine ⟨first, ['0'], by simp [pointed, Value.numberLayout], by simp,
        ⟨by simp, all, by simp [isDigit]⟩, ?_⟩
      have tenfold : ofDigits ([first] ++ ['0']) = 10 * decimal.coefficient := by
        rw [ofDigits_append, coefficient]
        rfl
      rw [tenfold, exponent, value]
      push_cast
      rw [zpow_sub₀ (by norm_num), zpow_add₀ (by norm_num)]
      simp
      ring
  | first :: second :: rest =>
      refine ⟨first, second :: rest, ?_, by simp,
        ⟨by simp, by simpa using all first List.mem_cons_self,
          fun digit inside => all digit (List.mem_cons_of_mem _ inside)⟩, ?_⟩
      · simp [pointed]
      · have whole : [first] ++ second :: rest = first :: second :: rest := rfl
        have place : decimal.exponent - ((second :: rest).length : Int) = decimal.power := by
          rw [exponent]
          simp
        rw [whole, coefficient, place, value]

end Decimal

/-- An exponent is written with its sign and at least two digits. -/
theorem exponentText_eq (exponent : Int) : ∃ sign digits,
    (Value.numberLayout.exponentText exponent).toList = sign :: digits ∧ (sign = '+' ∨ sign = '-') ∧
      2 ≤ digits.length ∧ (∀ digit ∈ digits, isDigit digit = true) ∧
      Numeral.exponent? (sign :: digits) = some exponent := by
  have natural (number : Nat) : ∀ digit ∈ Nat.toDigits 10 number, isDigit digit = true :=
    Decimal.digits_all ⟨number, 0⟩
  have digitsSome : 0 < (Nat.toDigits 10 exponent.natAbs).length := Nat.length_toDigits_pos
  let digits := List.replicate (2 - (Nat.toDigits 10 exponent.natAbs).length) '0' ++
    Nat.toDigits 10 exponent.natAbs
  have all : ∀ digit ∈ digits, isDigit digit = true := by
    intro digit inside
    exact (List.mem_append.mp inside).elim (Decimal.zeros_all _ digit) (natural _ digit)
  have long : 2 ≤ digits.length := by
    change 2 ≤ (List.replicate _ '0' ++ _).length
    rw [List.length_append, List.length_replicate]
    omega
  have read : ofDigits digits = exponent.natAbs := by
    have natAbs : ofDigits (Nat.toDigits 10 exponent.natAbs) = exponent.natAbs :=
      Nat.ofDigitChars_ten_toDigits
    change ofDigits (List.replicate _ '0' ++ _) = _
    rw [ofDigits_append, ofDigits_replicate, natAbs, Nat.mul_zero, Nat.zero_add]
  have some : digits ≠ [] := by
    intro none
    rw [none] at long
    exact absurd long (by decide)
  have written : (Value.numberLayout.exponentText exponent).toList =
      (if exponent < 0 then '-' else '+') :: digits := by
    unfold Layout.exponentText
    rw [String.toList_append, String.toList_ofList]
    split <;> rfl
  refine ⟨_, digits, written, ?_, long, all, ?_⟩
  · split
    · exact .inr rfl
    · exact .inl rfl
  · have allTrue : digits.all isDigit = true := List.all_eq_true.mpr all
    by_cases negative : exponent < 0
    · rw [if_pos negative]
      change (if digits ≠ [] ∧ digits.all isDigit then Option.some (-(ofDigits digits : Int))
        else none) = _
      rw [if_pos ⟨some, allTrue⟩, read]
      congr 1
      omega
    · rw [if_neg negative]
      change (if digits ≠ [] ∧ digits.all isDigit then Option.some (ofDigits digits : Int)
        else none) = _
      rw [if_pos ⟨some, allTrue⟩, read]
      congr 1
      omega

end Lox.Number
