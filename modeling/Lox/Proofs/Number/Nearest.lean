import Lox.Proofs.Number.Numeral
import Lox.Proofs.Number.Packing

/-!
# Decimals that read back

A decimal in the interval of a double is read as this double. It is a quotient or a product of
whole numbers, which is rounded once. Where both are doubles themselves, it is a quotient or
product of doubles, and their reading is exact.
-/

namespace Lox.Number

open Float.Model Float.Model.UnpackedFloat

variable {significand : Nat} {exponent : Int}

/-! ## Products and quotients -/

/-- What is left of a division tells how accurate the quotient is. -/
theorem keeps_quotient (number : Nat) {divisor : Nat} (positive : 0 < divisor) :
    Keeps (.ofMantissaAndAccuracy (number / divisor)
      (accuracyOfFraction (number % divisor) divisor)) (number / divisor : ℚ) := by
  have small := Nat.mod_lt number positive
  have divisorPositive : (0 : ℚ) < divisor := by exact_mod_cast positive
  have parts : (number / divisor : ℚ) =
      (number / divisor : Nat) + ((number % divisor : Nat) : ℚ) / divisor := by
    have whole : ((divisor * (number / divisor) + number % divisor : Nat) : ℚ) = number :=
      congrArg Nat.cast (Nat.div_add_mod number divisor)
    push_cast at whole
    field_simp
    linarith
  rw [parts]
  generalize number / divisor = quotient
  generalize number % divisor = rest at *
  have restSmall : (rest : ℚ) < divisor := by exact_mod_cast small
  unfold accuracyOfFraction
  split
  · next none =>
      subst none
      simp [Keeps, ExtendedMantissa.ofMantissaAndAccuracy]
  · next some =>
      have restPositive : (0 : ℚ) < rest := by exact_mod_cast Nat.pos_of_ne_zero some
      have share : (0 : ℚ) < rest / divisor := by positivity
      have proper : (rest / divisor : ℚ) < 1 := (div_lt_one divisorPositive).mpr restSmall
      rcases lt_trichotomy (2 * rest) divisor with less | equal | more
      · have half : (2 * rest : ℚ) < divisor := by exact_mod_cast less
        have order : (rest / divisor : ℚ) < 1 / 2 := by
          rw [div_lt_div_iff₀ divisorPositive two_pos]
          linarith
        rw [Nat.compare_eq_lt.mpr less]
        change (quotient : ℚ) < _ ∧ _ < (quotient : ℚ) + 1 / 2
        constructor <;> linarith
      · have half : (2 * rest : ℚ) = divisor := by exact_mod_cast equal
        have order : (rest / divisor : ℚ) = 1 / 2 := by
          rw [div_eq_div_iff divisorPositive.ne' two_ne_zero]
          linarith
        rw [Nat.compare_eq_eq.mpr equal]
        change _ = (quotient : ℚ) + 1 / 2
        rw [order]
      · have half : (divisor : ℚ) < 2 * rest := by exact_mod_cast more
        have order : 1 / 2 < (rest / divisor : ℚ) := by
          rw [div_lt_div_iff₀ two_pos divisorPositive]
          linarith
        rw [Nat.compare_eq_gt.mpr more]
        change (quotient : ℚ) + 1 / 2 < _ ∧ _ < (quotient : ℚ) + 1
        constructor <;> linarith

/-- A quotient of two numbers is rounded to the double in whose interval it is. -/
theorem div_eq {sign other : Sign} {dividend divisor : Nat} {place place' : Int}
    (positive : 0 < dividend) (positive' : 0 < divisor) (canonical : Canonical significand exponent)
    (covers : (Rounding.of significand exponent).Covers
      (dividend * 2 ^ place / (divisor * 2 ^ place'))) :
    div Format.binary64 (.finite sign dividend place positive)
        (.finite other divisor place' positive') =
      .finite (sign / other) significand exponent canonical.positive := by
  have dividendBits := Nat.log2_self_le positive.ne'
  have divisorBits := Nat.lt_log2_self (n := divisor)
  have target : Format.binary64.targetExponent (totalExponent dividend place -
      totalExponent divisor place') =
        max (dividend.log2 + place - (divisor.log2 + place') - 53) leastExponent := by
    rw [targetExponent_binary64, totalExponent, totalExponent]
    omega
  change roundWithAccuracy Format.binary64 (sign / other) (divCore _ _ _ _ _).1 _ _ = _
  unfold divCore
  dsimp only
  rw [target]
  generalize isLower : min (place - place')
    (max (dividend.log2 + place - (divisor.log2 + place') - 53) leastExponent) = lower
  obtain ⟨count, shifted⟩ : ∃ count : Nat, place - place' = lower + count :=
    ⟨(place - place' - lower).toNat, by omega⟩
  have counted : (place - place' - lower).toNat = count := by omega
  rw [counted, Nat.shiftLeft_eq]
  refine roundWithAccuracy_eq (keeps_quotient _ positive') ?_ canonical ?_
  · by_cases least : lower ≤ leastExponent
    · exact .inr least
    · have enough : 52 + (divisor.log2 + 1) ≤ dividend.log2 + count := by omega
      have wide : 2 ^ 52 * divisor ≤ dividend * 2 ^ count := calc
        2 ^ 52 * divisor ≤ 2 ^ 52 * 2 ^ (divisor.log2 + 1) := Nat.mul_le_mul_left _ divisorBits.le
        _ = 2 ^ (52 + (divisor.log2 + 1)) := (pow_add _ _ _).symm
        _ ≤ 2 ^ (dividend.log2 + count) := Nat.pow_le_pow_right (by decide) enough
        _ = 2 ^ dividend.log2 * 2 ^ count := pow_add _ _ _
        _ ≤ dividend * 2 ^ count := Nat.mul_le_mul_right _ dividendBits
      have quotient : 2 ^ 52 ≤ dividend * 2 ^ count / divisor :=
        (Nat.le_div_iff_mul_le positive').mpr wide
      exact .inl ((Nat.le_log2 (by omega)).mpr quotient)
  · have same : ((dividend * 2 ^ count : Nat) : ℚ) / divisor * 2 ^ lower =
        dividend * 2 ^ place / (divisor * 2 ^ place') := by
      obtain rfl : place = place' + lower + count := by omega
      have divisorPositive : (0 : ℚ) < divisor := by exact_mod_cast positive'
      rw [zpow_add₀ two_ne_zero, zpow_add₀ two_ne_zero, zpow_natCast]
      push_cast
      field_simp
    rw [same]
    exact covers

/-- A product of two numbers is rounded to the double in whose interval it is. -/
theorem mul_eq {sign other : Sign} {one two : Nat} {place place' : Int}
    (positive : 0 < one) (positive' : 0 < two) (wide : 52 ≤ one.log2)
    (canonical : Canonical significand exponent)
    (covers : (Rounding.of significand exponent).Covers
      (one * 2 ^ place * (two * 2 ^ place'))) :
    mul Format.binary64 (.finite sign one place positive) (.finite other two place' positive') =
      .finite (sign * other) significand exponent canonical.positive := by
  have bits : 52 ≤ (one * two).log2 := by
    rw [Nat.le_log2 (Nat.mul_pos positive positive').ne']
    exact Nat.le_trans ((Nat.le_log2 positive.ne').mp wide) (Nat.le_mul_of_pos_right one positive')
  have same : ((one * two : Nat) : ℚ) * 2 ^ (place + place') =
      one * 2 ^ place * (two * 2 ^ place') := by
    rw [zpow_add₀ two_ne_zero]
    push_cast
    ring
  refine roundWithAccuracy_eq (.exact_eq (one * two)) (.inl bits) canonical ?_
  rw [same]
  exact covers

/-! ## Whole numbers as doubles -/

section Natural

variable {natural : Nat}

/-- A whole number with all bits of a significand used. -/
theorem canonical_natural (positive : 0 < natural) (small : natural < 2 ^ 53) :
    Canonical (natural * 2 ^ (52 - natural.log2)) (natural.log2 - 52) := by
  have bits : natural.log2 < 53 := (Nat.log2_lt positive.ne').mpr small
  have least : leastExponent = -1074 := rfl
  have atLeast : 2 ^ 52 ≤ natural * 2 ^ (52 - natural.log2) := calc
    2 ^ 52 = 2 ^ natural.log2 * 2 ^ (52 - natural.log2) := by rw [← pow_add]; congr 1; omega
    _ ≤ natural * 2 ^ (52 - natural.log2) :=
      Nat.mul_le_mul_right _ (Nat.log2_self_le positive.ne')
  have atMost : natural * 2 ^ (52 - natural.log2) < 2 ^ 53 := calc
    natural * 2 ^ (52 - natural.log2) < 2 ^ (natural.log2 + 1) * 2 ^ (52 - natural.log2) :=
      Nat.mul_lt_mul_of_pos_right Nat.lt_log2_self (by positivity)
    _ = 2 ^ 53 := by rw [← pow_add]; congr 1; omega
  exact ⟨by omega, atMost, by omega, by omega, .inl atLeast⟩

theorem bits_natural (positive : 0 < natural) (small : natural < 2 ^ 53) :
    52 ≤ (natural * 2 ^ (52 - natural.log2)).log2 := by
  have canonical := canonical_natural positive small
  have least : leastExponent = -1074 := rfl
  have full := canonical.full.resolve_right (by omega)
  exact (Nat.le_log2 canonical.positive.ne').mpr full

theorem value_natural (small : natural < 2 ^ 53) :
    ((natural * 2 ^ (52 - natural.log2) : Nat) : ℚ) * 2 ^ ((natural.log2 : Int) - 52) =
      natural := by
  have bits : natural.log2 ≤ 52 := by
    rcases Nat.eq_zero_or_pos natural with rfl | positive
    · exact Nat.zero_le _
    · exact Nat.le_of_lt_succ ((Nat.log2_lt positive.ne').mpr small)
  have place : ((natural.log2 : Int) - 52) = -((52 - natural.log2 : Nat) : Int) := by omega
  rw [place, zpow_neg, zpow_natCast]
  push_cast
  field_simp

/-- Such a number is turned into a double without rounding. -/
theorem content_toFloat (positive : 0 < natural) (small : natural < 2 ^ 53) :
    content natural.toUInt64.toFloat =
      .finite false (natural * 2 ^ (52 - natural.log2)) (natural.log2 - 52) := by
  have canonical := canonical_natural positive small
  have bits : natural.log2 < 53 := (Nat.log2_lt positive.ne').mpr small
  have same : natural.toUInt64.toNat = natural := by
    change natural % 2 ^ 64 = natural
    exact Nat.mod_eq_of_lt (by omega)
  have target : (0 - Format.binary64.targetExponent (totalExponent natural 0)).toNat =
      52 - natural.log2 := by
    have least : leastExponent = -1074 := rfl
    rw [targetExponent_eq]
    omega
  have rounded : UnpackedFloat.ofUInt64 Format.binary64 natural.toUInt64 =
      .finite (signOf false) (natural * 2 ^ (52 - natural.log2)) (natural.log2 - 52)
        canonical.positive := by
    unfold UnpackedFloat.ofUInt64 UnpackedFloat.ofNat UnpackedFloat.ofInt
      UnpackedFloat.normalize
    rw [same, Int.compare_eq_gt.mpr (by omega)]
    change UnpackedFloat.round Format.binary64 .positive natural 0 = _
    unfold UnpackedFloat.round decreaseExponent
    dsimp only
    rw [target, Nat.shiftLeft_eq]
    have place : (0 : Int) - (52 - natural.log2 : Nat) = natural.log2 - 52 := by omega
    rw [place]
    exact roundWithAccuracy_eq (.exact_eq _) (.inl (bits_natural positive small)) canonical
      (covers_self canonical.positive)
  change contentOfBits (Float.Model.pack (UnpackedFloat.ofUInt64 Format.binary64
    natural.toUInt64)).toBits.toNat = _
  rw [rounded]
  exact content_pack false canonical

end Natural

/-- The powers of ten in the table are powers of five at a power of two. -/
theorem content_powerOfTen (power : Fin 23) :
    content (Float.exactlyRepresentablePowersOfTen[power]) =
      .finite false (5 ^ power.val * 2 ^ (52 - (5 ^ power.val).log2))
        ((5 ^ power.val).log2 - 52 + power.val) := by
  revert power
  decide +kernel

theorem value_powerOfTen (power : Fin 23) :
    ((5 ^ power.val * 2 ^ (52 - (5 ^ power.val).log2) : Nat) : ℚ) *
      2 ^ (((5 ^ power.val).log2 : Int) - 52 + power.val) = 10 ^ power.val := by
  have small : 5 ^ power.val < 2 ^ 53 :=
    Nat.lt_of_le_of_lt (Nat.pow_le_pow_right (by decide) (Nat.le_of_lt_succ power.isLt))
      (by decide)
  rw [zpow_add₀ two_ne_zero, ← mul_assoc, value_natural small, zpow_natCast]
  push_cast
  rw [← mul_pow]
  norm_num

/-! ## Reading decimals -/

/-- The numbers that round to a magnitude are neither too small nor too great for it. -/
theorem bounds_of_covers {exact : ℚ} (canonical : Canonical significand exponent)
    (covers : (Rounding.of significand exponent).Covers exact) :
    2 ^ (-1075 : Int) ≤ exact ∧ exact < 2 ^ (1024 : Int) := by
  have inUnits : exact = exact / 2 ^ exponent * 2 ^ exponent :=
    (div_mul_cancel₀ exact (zpow_ne_zero exponent two_ne_zero)).symm
  rw [inUnits, covers_iff canonical.positive] at covers
  rw [inUnits]
  generalize exact / 2 ^ exponent = units at covers
  obtain ⟨⟨above, below⟩, -⟩ := covers
  obtain ⟨-, gap⟩ := gapBelow_bounds significand exponent
  obtain ⟨positive, small, least, greatest, -⟩ := canonical
  have atLeast : (1 : ℚ) ≤ significand := by exact_mod_cast positive
  have atMost : (significand : ℚ) + 1 ≤ 2 ^ 53 := by exact_mod_cast small
  have unitPositive : (0 : ℚ) < 2 ^ exponent := by positivity
  constructor
  · calc (2 : ℚ) ^ (-1075 : Int) = 1 / 2 * 2 ^ leastExponent := by
          rw [leastExponent, show (-1075 : Int) = -1 + -1074 from rfl, zpow_add₀ two_ne_zero]
          norm_num
      _ ≤ 1 / 2 * 2 ^ exponent :=
          mul_le_mul_of_nonneg_left (zpow_le_zpow_right₀ one_le_two least) (by norm_num)
      _ ≤ units * 2 ^ exponent := mul_le_mul_of_nonneg_right (by linarith) unitPositive.le
  · calc units * 2 ^ exponent < 2 ^ 53 * 2 ^ exponent :=
          mul_lt_mul_of_pos_right (by linarith) unitPositive
      _ ≤ 2 ^ 53 * 2 ^ (971 : Int) :=
          mul_le_mul_of_nonneg_left (zpow_le_zpow_right₀ one_le_two greatest) (by norm_num)
      _ = 2 ^ (1024 : Int) := by
          rw [show (1024 : Int) = (53 : Nat) + 971 from rfl, zpow_add₀ two_ne_zero, zpow_natCast]

section Scientific

variable {coefficient : Nat} {power : Int}

/-- Neither of the two checks against too great powers of ten concerns the numbers that round
to a double. -/
theorem power_bounds (positive : 0 < coefficient)
    (least : (2 : ℚ) ^ (-1075 : Int) ≤ coefficient * 10 ^ power)
    (greatest : (coefficient * 10 ^ power : ℚ) < 2 ^ (1024 : Int)) :
    power ≤ 2048 ∧ -(2048 + coefficient.log2 : Int) ≤ power := by
  have tens (count : Nat) : (2 : ℚ) ^ (count : Int) ≤ 10 ^ (count : Int) := by
    rw [zpow_natCast, zpow_natCast]
    exact pow_le_pow_left₀ (by norm_num) (by norm_num) count
  constructor
  · by_contra beyond
    obtain ⟨count, rfl⟩ : ∃ count : Nat, power = count := ⟨power.toNat, by omega⟩
    have one : (1 : ℚ) ≤ coefficient := by exact_mod_cast positive
    have wide : (2 : ℚ) ^ (1024 : Int) ≤ 2 ^ (count : Int) :=
      zpow_le_zpow_right₀ one_le_two (by omega)
    have tenPositive : (0 : ℚ) < 10 ^ (count : Int) := by positivity
    exact absurd greatest (not_lt.mpr
      (wide.trans ((tens count).trans (le_mul_of_one_le_left tenPositive.le one))))
  · by_contra beyond
    obtain ⟨count, rfl⟩ : ∃ count : Nat, power = -count := ⟨(-power).toNat, by omega⟩
    have bits : (coefficient : ℚ) < 2 ^ ((coefficient.log2 + 1 : Nat) : Int) := by
      rw [zpow_natCast]
      exact_mod_cast Nat.lt_log2_self
    have narrow : (2 : ℚ) ^ ((coefficient.log2 + 1 : Nat) - (count : Int)) ≤ 2 ^ (-1075 : Int) :=
      zpow_le_zpow_right₀ one_le_two (by omega)
    have small : (coefficient * 10 ^ (-count : Int) : ℚ) < 2 ^ (-1075 : Int) := calc
      (coefficient * 10 ^ (-count : Int) : ℚ) = coefficient / 10 ^ (count : Int) := by
        rw [zpow_neg, div_eq_mul_inv]
      _ ≤ coefficient / 2 ^ (count : Int) :=
        div_le_div_of_nonneg_left (Nat.cast_nonneg _) (by positivity) (tens count)
      _ < 2 ^ ((coefficient.log2 + 1 : Nat) : Int) / 2 ^ (count : Int) :=
        div_lt_div_of_pos_right bits (by positivity)
      _ = 2 ^ ((coefficient.log2 + 1 : Nat) - (count : Int)) :=
        (zpow_sub₀ two_ne_zero _ _).symm
      _ ≤ 2 ^ (-1075 : Int) := narrow
    exact absurd least (not_le.mpr small)

/-- A decimal is rounded to the double in whose interval it is. -/
theorem unpacked_ofScientific (positive : 0 < coefficient)
    (canonical : Canonical significand exponent)
    (covers : (Rounding.of significand exponent).Covers (coefficient * 10 ^ power)) :
    UnpackedFloat.ofScientific Format.binary64 coefficient power =
      .finite .positive significand exponent canonical.positive := by
  obtain ⟨least, greatest⟩ := bounds_of_covers canonical covers
  obtain ⟨notHuge, notTiny⟩ := power_bounds positive least greatest
  have noOverflow : ¬power > 2 ^ Format.binary64.exponentBits := not_lt.mpr notHuge
  have noUnderflow : ¬power < -((2 ^ Format.binary64.exponentBits : Int) + coefficient.log2) :=
    not_lt.mpr notTiny
  unfold UnpackedFloat.ofScientific
  rw [dif_neg positive.ne', if_neg noOverflow, if_neg noUnderflow]
  by_cases upward : 0 ≤ power
  · rw [if_pos upward]
    obtain ⟨count, rfl⟩ : ∃ count : Nat, power = count := ⟨power.toNat, by omega⟩
    have shifted : coefficient <<< Format.binary64.mantissaBits = coefficient * 2 ^ 53 :=
      Nat.shiftLeft_eq _ _
    have wide : 52 ≤ (coefficient <<< Format.binary64.mantissaBits).log2 := by
      rw [shifted, Nat.le_log2 (Nat.mul_pos positive (by decide)).ne']
      exact Nat.le_trans (by decide) (Nat.le_mul_of_pos_left (2 ^ 53) positive)
    refine mul_eq _ _ wide canonical ?_
    rw [shifted]
    have same : ((coefficient * 2 ^ 53 : Nat) : ℚ) * 2 ^ (-(Format.binary64.mantissaBits : Int)) *
        ((10 ^ (count : Int).toNat : Nat) * 2 ^ (0 : Int)) = coefficient * 10 ^ (count : Int) := by
      change ((coefficient * 2 ^ 53 : Nat) : ℚ) * 2 ^ (-((53 : Nat) : Int)) * _ = _
      rw [zpow_neg, zpow_natCast, zpow_natCast, Int.toNat_natCast, zpow_zero]
      push_cast
      field_simp
      norm_num
    rw [same]
    exact covers
  · rw [if_neg upward]
    obtain ⟨count, rfl⟩ : ∃ count : Nat, power = -count := ⟨(-power).toNat, by omega⟩
    refine div_eq _ _ canonical ?_
    have same : (coefficient * 2 ^ (0 : Int) : ℚ) /
        ((10 ^ (- -(count : Int)).toNat : Nat) * 2 ^ (0 : Int)) =
          coefficient * 10 ^ (-count : Int) := by
      rw [neg_neg, Int.toNat_natCast, zpow_zero, mul_one, mul_one, zpow_neg, zpow_natCast,
        div_eq_mul_inv]
      push_cast
      rfl
    rw [same]
    exact covers

end Scientific

/-- A double is packed from its content. -/
theorem pack_eq {number : Float} (canonical : Canonical significand exponent)
    (finite : content number = .finite false significand exponent) :
    Float.ofModel (Float.Model.pack (.finite .positive significand exponent canonical.positive)) =
      number :=
  eq_of_content (content_pack false canonical) finite

section Reading

variable {number : Float} {coefficient : Nat} {power : Int}

/-- Only decimals that are not zero are in the interval of a magnitude. -/
theorem coefficient_positive (positive : 0 < significand)
    (covers : (Rounding.of significand exponent).Covers (coefficient * 10 ^ power)) :
    0 < coefficient := by
  by_contra none
  have some := positive_of_covers positive covers
  rw [Nat.eq_zero_of_not_pos none, Nat.cast_zero, zero_mul] at some
  exact lt_irrefl _ some

/-- Where a coefficient and a power of ten are doubles, one operation on them is enough. -/
theorem fast_ofScientific (positive : 0 < coefficient) (small : coefficient < 2 ^ 53)
    (count : Fin 23) (canonical : Canonical significand exponent)
    (finite : content number = .finite false significand exponent) :
    ((Rounding.of significand exponent).Covers (coefficient * 10 ^ count.val) →
      coefficient.toUInt64.toFloat * Float.exactlyRepresentablePowersOfTen[count] =
        number) ∧
    ((Rounding.of significand exponent).Covers (coefficient / 10 ^ count.val) →
      coefficient.toUInt64.toFloat / Float.exactlyRepresentablePowersOfTen[count] =
        number) := by
  have whole := canonical_natural positive small
  have fivePositive : 0 < 5 ^ count.val * 2 ^ (52 - (5 ^ count.val).log2) := by positivity
  have one := unpack_of_content whole.positive (content_toFloat positive small)
  have two := unpack_of_content fivePositive (content_powerOfTen count)
  have wide := bits_natural positive small
  constructor
  · intro covers
    change Float.ofModel (Float.Model.pack (UnpackedFloat.mul Format.binary64 _ _)) = _
    rw [one, two, mul_eq _ _ wide canonical]
    · exact pack_eq canonical finite
    · rw [value_natural small, value_powerOfTen]
      exact covers
  · intro covers
    change Float.ofModel (Float.Model.pack (UnpackedFloat.div Format.binary64 _ _)) = _
    rw [one, two, div_eq _ _ canonical]
    · exact pack_eq canonical finite
    · rw [value_natural small, value_powerOfTen]
      exact covers

/-- A decimal is read as the double in whose interval it is. -/
theorem ofScientific_eq {downward : Bool} {count : Nat}
    (finite : content number = .finite false significand exponent) (positive : 0 < significand)
    (direction : power = if downward then -(count : Int) else count)
    (covers : (Rounding.of significand exponent).Covers (coefficient * 10 ^ power)) :
    Float.ofScientific coefficient downward count = number := by
  have canonical := canonical_of_content number.toModel.toBits.toNat_lt positive finite
  have some := coefficient_positive positive covers
  subst direction
  unfold Float.ofScientific
  split
  · next fast =>
      obtain ⟨up, down⟩ := fast_ofScientific some fast.1 ⟨count, by omega⟩ canonical finite
      cases downward with
      | true =>
          have quotient : (coefficient * 10 ^ (-(count : Int)) : ℚ) = coefficient / 10 ^ count := by
            rw [zpow_neg, zpow_natCast, div_eq_mul_inv]
          exact down (quotient ▸ covers)
      | false => exact up covers
  · have power : (if downward then Int.negOfNat count else Int.ofNat count) =
        if downward then -(count : Int) else count := by
      cases downward with
      | true => exact Int.negOfNat_eq
      | false => rfl
    dsimp only
    rw [power]
    change Float.ofModel (Float.Model.pack (UnpackedFloat.ofScientific Format.binary64 _ _)) = _
    rw [unpacked_ofScientific some canonical covers]
    exact pack_eq canonical finite

theorem nearest_eq (finite : content number = .finite false significand exponent)
    (positive : 0 < significand)
    (covers : (Rounding.of significand exponent).Covers (coefficient * 10 ^ power)) :
    Numeral.nearest coefficient power = number := by
  unfold Numeral.nearest
  split
  · exact ofScientific_eq finite positive (by simp; omega) covers
  · exact ofScientific_eq finite positive (by simp; omega) covers

end Reading

end Lox.Number
