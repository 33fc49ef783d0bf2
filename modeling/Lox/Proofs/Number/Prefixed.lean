import Lox.Proofs.Number.Printed
import Lox.Syntax.PrefixForm

/-!
# Numbers in prefix form

In prefix form a finite number is written without an exponent, and a whole number with a
fraction of zero. The text is still a numeral that stands for the number, so that different
numbers are written differently.
-/

namespace Lox.Number

open Segment (isDigit)
open Numeral (minus pointed)

variable {number : Float} {negative : Bool} {significand : Nat} {exponent : Int}

/-- A magnitude that is whole is the whole number. -/
theorem whole?_eq {whole : Nat} (found : whole? significand exponent = some whole) :
    (whole : ℚ) = significand * 2 ^ exponent := by
  unfold whole? at found
  split at found
  · next upward =>
      obtain ⟨count, rfl⟩ := Int.eq_ofNat_of_zero_le upward
      cases found
      simp
  · next downward =>
      obtain ⟨count, rfl⟩ : ∃ count : Nat, exponent = -count := ⟨(-exponent).toNat, by omega⟩
      dsimp only at found
      rw [neg_neg, Int.toNat_natCast] at found
      split at found
      · next divides =>
          cases found
          have exact : significand / 2 ^ count * 2 ^ count = significand :=
            Nat.div_mul_cancel (Nat.dvd_of_mod_eq_zero divides)
          rw [zpow_neg, zpow_natCast, ← div_eq_mul_inv, eq_div_iff (by positivity)]
          exact_mod_cast exact
      · cases found

/-- A whole number with a fraction of zero is a numeral of itself. -/
theorem magnitude_whole (negative : Bool) (whole : Nat) :
    (Numeral.mk negative (Nat.toDigits 10 whole) ['0'] 0).magnitude = whole := by
  have zero : ofDigits ['0'] = 0 := rfl
  have digits : ofDigits (Nat.toDigits 10 whole) = whole := Nat.ofDigitChars_ten_toDigits
  unfold Numeral.magnitude Numeral.coefficient Numeral.power
  dsimp only
  rw [ofDigits_append, zero, digits]
  simp [mul_comm]

/-- A finite number is written as a numeral without an exponent that stands for it. -/
theorem prefixText_reads (finite : content number = .finite negative significand exponent) :
    ∃ whole places, (prefixText number).toList = minus negative ++ (whole ++ pointed places) ∧
      Digits whole places ∧ (Numeral.mk negative whole places 0).value = number := by
  unfold prefixText
  rw [finite]
  dsimp only
  split
  · next whole found =>
      have digits := Decimal.digits_all ⟨whole, 0⟩
      refine ⟨Nat.toDigits 10 whole, ['0'], ?_,
        ⟨Nat.toDigits_ne_nil, digits, by simp [isDigit]⟩, ?_⟩
      · rw [String.append_assoc, String.toList_append, String.toList_append, toList_signText]
        simp [pointed]
      · by_cases zero : significand = 0
        · subst zero
          obtain rfl : whole = 0 := by simpa using whole?_eq found
          exact (value_zero finite).2
        · have positive := Nat.pos_of_ne_zero zero
          refine value_of_covers positive finite ?_
          rw [magnitude_whole, whole?_eq found]
          exact covers_self positive
  · next broken =>
      have some : significand ≠ 0 := by
        rintro rfl
        simp [whole?] at broken
      have positive := Nat.pos_of_ne_zero some
      have canonical := canonical_of_content number.toModel.toBits.toNat_lt positive finite
      obtain ⟨whole, places, text, digits, value⟩ :=
        (shortest .away significand exponent).positional_text
      refine ⟨whole, places, ?_, digits, ?_⟩
      · unfold Layout.render Layout.magnitude
        rw [finite]
        dsimp only
        rw [if_neg some, String.toList_append, toList_signText, ← text]
        rfl
      · refine value_of_covers positive finite ?_
        have covers := covers_shortest canonical .away
        rw [← value] at covers
        exact covers

/-- Different finite numbers are written differently. -/
theorem prefixText_injective {other : Float} {negative' : Bool} {significand' : Nat}
    {exponent' : Int} (finite : content number = .finite negative significand exponent)
    (otherFinite : content other = .finite negative' significand' exponent')
    (same : prefixText number = prefixText other) : number = other := by
  obtain ⟨whole, places, text, digits, value⟩ := prefixText_reads finite
  obtain ⟨whole', places', text', digits', value'⟩ := prefixText_reads otherFinite
  have read := Numeral.ofText?_pointed digits.nonempty digits.whole digits.places negative
  have read' := Numeral.ofText?_pointed digits'.nonempty digits'.whole digits'.places negative'
  rw [← text, same, text', read'] at read
  rw [← value, ← value', Option.some.inj read]

end Lox.Number
