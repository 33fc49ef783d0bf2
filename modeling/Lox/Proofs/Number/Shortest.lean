import Lox.Proofs.Number.Rounding
import Mathlib.Data.List.TakeWhile

/-!
# Shortest decimals read back

The digits that are chosen for a magnitude make a decimal in its interval. The search for them
ends in time: with seventeen digits, the decimals lie closer to one another than the doubles.
-/

namespace Lox.Number

/-- The number that a decimal stands for. -/
def Decimal.value (decimal : Decimal) : ℚ :=
  decimal.coefficient * 10 ^ decimal.power

theorem zpow_toNat (base : ℚ) (power : Int) :
    base ^ power = base ^ power.toNat / base ^ (-power).toNat := by
  rcases Int.le_total 0 power with upward | downward
  · obtain ⟨count, rfl⟩ := Int.eq_ofNat_of_zero_le upward
    simp
  · obtain ⟨count, rfl⟩ : ∃ count : Nat, power = -count := ⟨(-power).toNat, by omega⟩
    simp

namespace Rounding

variable (rounding : Rounding)

theorem factors_positive (power : Int) :
    0 < rounding.binaryFactor power ∧ 0 < rounding.decimalFactor power := by
  constructor
  · exact Nat.mul_pos (Nat.pow_pos two_pos) (Nat.pow_pos (by decide))
  · exact Nat.mul_pos (Nat.pow_pos two_pos) (Nat.pow_pos (by decide))

/-- The two factors bring multiples of a power of two and of a power of ten to one scale. -/
theorem factors_eq (power : Int) : (10 ^ power / 2 ^ rounding.scale : ℚ) =
    rounding.decimalFactor power / rounding.binaryFactor power := by
  rw [zpow_toNat 2, zpow_toNat 10, div_div_div_eq]
  unfold decimalFactor binaryFactor
  change _ = ((2 ^ _ * 10 ^ _ : Nat) : ℚ) / ((2 ^ _ * 10 ^ _ : Nat) : ℚ)
  push_cast
  ring

/-- Where a decimal lies, in the scale of the interval. -/
theorem position_eq (decimal : Decimal) : decimal.value / 2 ^ rounding.scale =
    ((decimal.coefficient * rounding.decimalFactor decimal.power : Nat) : ℚ) /
      rounding.binaryFactor decimal.power := by
  rw [Decimal.value, mul_div_assoc, factors_eq]
  push_cast
  ring

/-- Whole numbers decide whether a decimal is in an interval. -/
theorem contains_iff (decimal : Decimal) :
    rounding.contains decimal = true ↔ rounding.Covers decimal.value := by
  have positive : (0 : ℚ) < rounding.binaryFactor decimal.power := by
    exact_mod_cast (rounding.factors_positive decimal.power).1
  unfold contains Covers
  rw [position_eq]
  dsimp only
  generalize decimal.coefficient * rounding.decimalFactor decimal.power = position
  generalize rounding.binaryFactor decimal.power = unit at *
  split
  · rw [Bool.and_eq_true, decide_eq_true_iff, decide_eq_true_iff, le_div_iff₀ positive,
      div_le_iff₀ positive]
    norm_cast
  · rw [Bool.and_eq_true, decide_eq_true_iff, decide_eq_true_iff, lt_div_iff₀ positive,
      div_lt_iff₀ positive]
    norm_cast

/-- A magnitude lies between two neighbouring decimals of a power. -/
theorem floor_bounds (power : Int) :
    (rounding.floor power : ℚ) * 10 ^ power ≤ rounding.value * 2 ^ rounding.scale ∧
      rounding.value * 2 ^ rounding.scale < (rounding.floor power + 1 : ℚ) * 10 ^ power := by
  obtain ⟨binaryPositive, decimalPositive⟩ := rounding.factors_positive power
  have factors := rounding.factors_eq power
  have scalePositive : (0 : ℚ) < 2 ^ rounding.scale := by positivity
  have unit : (0 : ℚ) < rounding.binaryFactor power := by exact_mod_cast binaryPositive
  rw [div_eq_div_iff scalePositive.ne' unit.ne'] at factors
  have below := Nat.div_mul_le_self (rounding.value * rounding.binaryFactor power)
    (rounding.decimalFactor power)
  have above := Nat.lt_div_mul_add (a := rounding.value * rounding.binaryFactor power)
    decimalPositive
  change rounding.floor power * _ ≤ _ at below
  change _ < rounding.floor power * _ + _ at above
  have belowCast : (rounding.floor power : ℚ) * rounding.decimalFactor power ≤
      rounding.value * rounding.binaryFactor power := by exact_mod_cast below
  have aboveCast : (rounding.value : ℚ) * rounding.binaryFactor power <
      rounding.floor power * rounding.decimalFactor power + rounding.decimalFactor power := by
    exact_mod_cast above
  constructor
  · refine le_of_mul_le_mul_right ?_ unit
    calc (rounding.floor power : ℚ) * 10 ^ power * rounding.binaryFactor power
        = rounding.floor power * rounding.decimalFactor power * 2 ^ rounding.scale := by
          rw [mul_assoc, factors, mul_assoc]
      _ ≤ rounding.value * rounding.binaryFactor power * 2 ^ rounding.scale :=
          mul_le_mul_of_nonneg_right belowCast scalePositive.le
      _ = rounding.value * 2 ^ rounding.scale * rounding.binaryFactor power := by ring
  · refine lt_of_mul_lt_mul_right ?_ unit.le
    calc (rounding.value : ℚ) * 2 ^ rounding.scale * rounding.binaryFactor power
        = rounding.value * rounding.binaryFactor power * 2 ^ rounding.scale := by ring
      _ < (rounding.floor power * rounding.decimalFactor power + rounding.decimalFactor power) *
            2 ^ rounding.scale := mul_lt_mul_of_pos_right aboveCast scalePositive
      _ = (rounding.floor power + 1) * (rounding.decimalFactor power * 2 ^ rounding.scale) := by
          ring
      _ = (rounding.floor power + 1) * 10 ^ power * rounding.binaryFactor power := by
          rw [← factors, mul_assoc]

/-- The magnitude itself. -/
def magnitude : ℚ :=
  rounding.value * 2 ^ rounding.scale

variable {rounding} {tie : Tie} {power : Int}

/-- What lies between two numbers of an interval is in it. -/
theorem Covers.between {least exact greatest : ℚ} (one : rounding.Covers least)
    (other : rounding.Covers greatest) (above : least ≤ exact) (below : exact ≤ greatest) :
    rounding.Covers exact := by
  have unit : (0 : ℚ) < 2 ^ rounding.scale := by positivity
  have fromBelow := div_le_div_of_nonneg_right above unit.le
  have fromAbove := div_le_div_of_nonneg_right below unit.le
  unfold Covers at *
  dsimp only at *
  split
  · next closed =>
      rw [if_pos closed] at one other
      exact ⟨one.1.trans fromBelow, fromAbove.trans other.2⟩
  · next opened =>
      rw [if_neg opened] at one other
      exact ⟨one.1.trans_le fromBelow, fromAbove.trans_lt other.2⟩

/-! ## The search -/

/-- A decimal that is found is one of the two neighbours, and in the interval. -/
theorem covers_of_candidate? {decimal : Decimal}
    (found : rounding.candidate? tie power = some decimal) :
    rounding.Covers decimal.value ∧ decimal.power = power ∧
      (decimal.coefficient = rounding.floor power ∨
        decimal.coefficient = rounding.floor power + 1) := by
  have below := rounding.contains_iff ⟨rounding.floor power, power⟩
  have above := rounding.contains_iff ⟨rounding.floor power + 1, power⟩
  unfold candidate? at found
  dsimp only at found
  split at found
  · next isBelow isAbove =>
      cases found
      have either : rounding.nearer tie power = rounding.floor power ∨
          rounding.nearer tie power = rounding.floor power + 1 := by
        unfold nearer
        dsimp only
        split
        · exact .inl rfl
        split
        · exact .inr rfl
        cases tie with
        | away => exact .inr rfl
        | even =>
            dsimp only
            split
            · exact .inl rfl
            · exact .inr rfl
      rcases either with same | same
      · exact ⟨same ▸ below.mp isBelow, rfl, .inl same⟩
      · exact ⟨same ▸ above.mp isAbove, rfl, .inr same⟩
  · next isBelow isAbove =>
      cases found
      exact ⟨below.mp isBelow, rfl, .inl rfl⟩
  · next isBelow isAbove =>
      cases found
      exact ⟨above.mp isAbove, rfl, .inr rfl⟩
  · cases found

/-- Where neither neighbour is in the interval, no decimal of the power is. -/
theorem not_covers_of_candidate? (own : rounding.Covers rounding.magnitude)
    (none : rounding.candidate? tie power = none) (coefficient : Nat) :
    ¬rounding.Covers (coefficient * 10 ^ power) := by
  have below := rounding.contains_iff ⟨rounding.floor power, power⟩
  have above := rounding.contains_iff ⟨rounding.floor power + 1, power⟩
  obtain ⟨fromBelow, fromAbove⟩ := rounding.floor_bounds power
  have unit : (0 : ℚ) < 10 ^ power := by positivity
  intro covers
  unfold candidate? at none
  dsimp only at none
  split at none
  · cases none
  · cases none
  · cases none
  · next notBelow notAbove =>
      by_cases less : coefficient ≤ rounding.floor power
      · have order : (coefficient * 10 ^ power : ℚ) ≤ rounding.floor power * 10 ^ power :=
          mul_le_mul_of_nonneg_right (by exact_mod_cast less) unit.le
        have inside := below.mpr (covers.between own order fromBelow)
        rw [inside] at notBelow
        cases notBelow
      · have order : ((rounding.floor power + 1 : Nat) * 10 ^ power : ℚ) ≤
            coefficient * 10 ^ power :=
          mul_le_mul_of_nonneg_right (by exact_mod_cast Nat.lt_of_not_le less) unit.le
        have start : rounding.magnitude ≤ ((rounding.floor power + 1 : Nat) * 10 ^ power : ℚ) := by
          push_cast
          exact fromAbove.le
        have inside := above.mpr (own.between covers start order)
        rw [inside] at notAbove
        cases notAbove

/-- The search ends at the first power that has a decimal in the interval, if there is one. -/
theorem search_eq {more : Nat} (enough : rounding.candidate? tie (power - more) ≠ none) :
    ∃ step ≤ more, rounding.candidate? tie (power - step) =
        some (rounding.search tie (more + 1) power) ∧
      ∀ earlier < step, rounding.candidate? tie (power - earlier) = none := by
  induction more generalizing power with
  | zero =>
      rw [Nat.cast_zero, sub_zero] at enough
      obtain ⟨decimal, found⟩ := Option.ne_none_iff_exists'.mp enough
      refine ⟨0, Nat.le_refl _, ?_, fun earlier impossible => absurd impossible (Nat.not_lt_zero _)⟩
      rw [Nat.cast_zero, sub_zero, search, found]
  | succ more ih =>
      cases found : rounding.candidate? tie power with
      | some decimal =>
          refine ⟨0, Nat.zero_le _, ?_,
            fun earlier impossible => absurd impossible (Nat.not_lt_zero _)⟩
          rw [Nat.cast_zero, sub_zero, search, found]
      | none =>
          have shift (count : Nat) : power - 1 - count = power - (count + 1 : Nat) := by
            push_cast
            ring
          have enough : rounding.candidate? tie (power - 1 - more) ≠ none := by rwa [shift]
          obtain ⟨step, le, result, earlier⟩ := ih enough
          rw [search, found]
          refine ⟨step + 1, Nat.succ_le_succ le, ?_, fun before less => ?_⟩
          · rw [← shift]
            exact result
          · cases before with
            | zero => rw [Nat.cast_zero, sub_zero, found]
            | succ before =>
                rw [← shift]
                exact earlier before (Nat.lt_of_succ_lt_succ less)

/-! ## The first power -/

theorem digitCount_bounds {number : Nat} (positive : 0 < number) :
    10 ^ (digitCount number - 1) ≤ number ∧ number < 10 ^ digitCount number := by
  have digits : 0 < digitCount number := Nat.length_toDigits_pos
  refine ⟨?_, (Nat.length_toDigits_le_iff (by decide) digits).mp (Nat.le_refl _)⟩
  rcases Nat.eq_zero_or_pos (digitCount number - 1) with one | more
  · rw [one]
    exact positive
  · by_contra less
    have short := (Nat.length_toDigits_le_iff (by decide) more).mpr (Nat.lt_of_not_le less)
    change digitCount number ≤ _ at short
    omega

/-- The leading digit of a magnitude stands for its first power of ten. -/
theorem leadingPower_bounds (positive : 0 < rounding.value) :
    (10 : ℚ) ^ rounding.leadingPower ≤ rounding.magnitude ∧
      rounding.magnitude < 10 ^ (rounding.leadingPower + 1) := by
  have numerator : 0 < rounding.value * Nat.pow 2 rounding.scale.toNat :=
    Nat.mul_pos positive (Nat.pow_pos two_pos)
  have denominator : 0 < Nat.pow 2 (-rounding.scale).toNat := Nat.pow_pos two_pos
  have fraction : rounding.magnitude =
      ((rounding.value * Nat.pow 2 rounding.scale.toNat : Nat) : ℚ) /
        (Nat.pow 2 (-rounding.scale).toNat : Nat) := by
    rw [magnitude, zpow_toNat 2]
    change _ = ((_ * 2 ^ _ : Nat) : ℚ) / ((2 ^ _ : Nat) : ℚ)
    push_cast
    ring
  rw [fraction, leadingPower]
  generalize rounding.value * Nat.pow 2 rounding.scale.toNat = above at *
  generalize Nat.pow 2 (-rounding.scale).toNat = below at *
  have belowPositive : (0 : ℚ) < below := by exact_mod_cast denominator
  split
  · next whole =>
      obtain ⟨least, greatest⟩ := digitCount_bounds (Nat.div_pos whole denominator)
      have digits : 0 < digitCount (above / below) := Nat.length_toDigits_pos
      have count :
          ((digitCount (above / below) - 1 : Nat) : Int) + 1 = digitCount (above / below) := by
        omega
      rw [count, zpow_natCast, zpow_natCast, le_div_iff₀ belowPositive, div_lt_iff₀ belowPositive]
      constructor
      · exact_mod_cast (Nat.le_div_iff_mul_le denominator).mp least
      · exact_mod_cast (Nat.div_lt_iff_lt_mul denominator).mp greatest
  · next proper =>
      have rest : 0 < (below - 1) / above := Nat.div_pos (by omega) numerator
      obtain ⟨least, greatest⟩ := digitCount_bounds rest
      have digits : 0 < digitCount ((below - 1) / above) := Nat.length_toDigits_pos
      rw [Nat.le_div_iff_mul_le numerator] at least
      rw [Nat.div_lt_iff_lt_mul numerator] at greatest
      generalize digitCount ((below - 1) / above) = count at *
      obtain ⟨fewer, rfl⟩ : ∃ fewer, count = fewer + 1 := ⟨count - 1, by omega⟩
      have next : -((fewer + 1 : Nat) : Int) + 1 = -fewer := by
        push_cast
        ring
      rw [next, zpow_neg, zpow_neg, zpow_natCast, zpow_natCast, inv_eq_one_div, inv_eq_one_div,
        div_le_div_iff₀ (by positivity) belowPositive,
        div_lt_div_iff₀ belowPositive (by positivity), one_mul]
      have within : below ≤ above * 10 ^ (fewer + 1) := by
        rw [Nat.mul_comm]
        omega
      have beyond : above * 10 ^ fewer < below := by
        rw [Nat.mul_comm]
        change 10 ^ fewer * above ≤ below - 1 at least
        omega
      constructor
      · exact_mod_cast within
      · exact_mod_cast beyond

end Rounding

section Magnitude

variable {significand : Nat} {exponent : Int} {tie : Tie}

theorem magnitude_of (significand : Nat) (exponent : Int) :
    (Rounding.of significand exponent).magnitude = significand * 2 ^ exponent := by
  change ((4 * significand : Nat) : ℚ) * 2 ^ (exponent - 2) = _
  rw [zpow_sub₀ two_ne_zero]
  push_cast
  field_simp

/-- A step between decimals that is small enough falls into every interval. -/
theorem candidate?_of_fine {power : Int} (canonical : Canonical significand exponent)
    (fine : (10 : ℚ) ^ (power + 16) ≤ significand * 2 ^ exponent) :
    (Rounding.of significand exponent).candidate? tie power ≠ none := by
  intro none
  have own : (Rounding.of significand exponent).Covers
      (Rounding.of significand exponent).magnitude := by
    rw [magnitude_of]
    exact covers_self canonical.positive
  have missed := Rounding.not_covers_of_candidate? own none
  obtain ⟨fromBelow, fromAbove⟩ := (Rounding.of significand exponent).floor_bounds power
  change _ ≤ (Rounding.of significand exponent).magnitude at fromBelow
  change (Rounding.of significand exponent).magnitude < _ at fromAbove
  rw [magnitude_of] at fromBelow fromAbove
  have unit : (0 : ℚ) < 2 ^ exponent := by positivity
  obtain ⟨step, isStep⟩ : ∃ step : ℚ, (10 : ℚ) ^ power = step * 2 ^ exponent :=
    ⟨10 ^ power / 2 ^ exponent, (div_mul_cancel₀ _ unit.ne').symm⟩
  have sixteen : (10 : ℚ) ^ (power + 16) = 10 ^ 16 * step * 2 ^ exponent := by
    rw [zpow_add₀ (by norm_num), isStep]
    norm_num
    ring
  rw [sixteen, mul_le_mul_iff_left₀ unit] at fine
  rw [isStep, ← mul_assoc, mul_le_mul_iff_left₀ unit] at fromBelow
  rw [isStep, ← mul_assoc, mul_lt_mul_iff_left₀ unit] at fromAbove
  generalize (Rounding.of significand exponent).floor power = floor at *
  have below := missed floor
  have above := missed (floor + 1)
  rw [isStep, ← mul_assoc, covers_iff canonical.positive] at below above
  push_cast at above
  obtain ⟨gapLeast, gapMost⟩ := gapBelow_bounds significand exponent
  -- Neither neighbour is in the interval, so the step is wider than it.
  have farBelow : floor * step ≤ significand - gapBelow significand exponent := by
    by_contra near
    exact below ⟨⟨by linarith, by linarith⟩, fun _ => ⟨by linarith, by linarith⟩⟩
  have farAbove : significand + 1 / 2 ≤ (floor + 1) * step := by
    by_contra near
    exact above ⟨⟨by linarith, by linarith⟩, fun _ => ⟨by linarith, by linarith⟩⟩
  have wide : 1 / 2 + gapBelow significand exponent ≤ step := by linarith
  by_cases least : significand = Nat.pow 2 52 ∧ exponent ≠ leastExponent
  · have magnitude : (significand : ℚ) = 2 ^ 52 := by
      rw [least.1]
      norm_num
    linarith
  · have narrow : gapBelow significand exponent = 1 / 2 := if_neg least
    have bound : (significand : ℚ) < 2 ^ 53 := by exact_mod_cast canonical.small
    rw [narrow] at wide
    linarith

end Magnitude

/-! ## Trailing zeros -/

namespace Decimal

variable {decimal : Decimal}

/-- The coefficient with as many zeros as are left out. -/
theorem digits_eq (decimal : Decimal) : ∃ front,
    decimal.digits = front ++
      List.replicate (decimal.digits.reverse.takeWhile (· == '0')).length '0' ∧
      (∀ digit ∈ front.getLast?, digit ≠ '0') := by
  have zeros : decimal.digits.reverse.takeWhile (· == '0') =
      List.replicate (decimal.digits.reverse.takeWhile (· == '0')).length '0' := by
    rw [List.eq_replicate_iff]
    exact ⟨rfl, fun digit inside => by simpa using List.mem_takeWhile_imp inside⟩
  refine ⟨(decimal.digits.reverse.dropWhile (· == '0')).reverse, ?_, ?_⟩
  · have whole := congrArg List.reverse
      (List.takeWhile_append_dropWhile (p := (· == '0')) (l := decimal.digits.reverse))
    rw [List.reverse_append, List.reverse_reverse, zeros, List.reverse_replicate] at whole
    exact whole.symm
  · intro digit last
    have failed := List.head?_dropWhile_not (· == '0') decimal.digits.reverse
    rw [List.getLast?_reverse, Option.mem_def] at last
    rw [last] at failed
    simpa using failed

/-- Leaving out the zeros at the end divides the coefficient. -/
theorem trimmed_spec (positive : 0 < decimal.coefficient) : ∃ zeros : Nat,
    decimal.coefficient = decimal.trimmed.coefficient * 10 ^ zeros ∧
      decimal.trimmed.power = decimal.power + zeros ∧ decimal.trimmed.coefficient % 10 ≠ 0 := by
  obtain ⟨front, split, last⟩ := decimal.digits_eq
  have trimmed : decimal.trimmed.coefficient = decimal.coefficient /
      10 ^ (decimal.digits.reverse.takeWhile (· == '0')).length := rfl
  refine ⟨(decimal.digits.reverse.takeWhile (· == '0')).length, ?_, rfl, ?_⟩
  all_goals
    rw [trimmed]
    generalize (decimal.digits.reverse.takeWhile (· == '0')).length = zeros at *
    have coefficient : decimal.coefficient = 10 ^ zeros * Nat.ofDigitChars 10 front 0 := by
      have read := congrArg (Nat.ofDigitChars 10 · 0) split
      rw [digits, Nat.ofDigitChars_ten_toDigits, Nat.ofDigitChars_append,
        Nat.ofDigitChars_replicate_zero] at read
      exact read
    rw [coefficient, Nat.mul_div_cancel_left _ (by positivity)]
  · exact Nat.mul_comm _ _
  · have some : front ≠ [] := by
      rintro rfl
      rw [Nat.ofDigitChars_nil, Nat.mul_zero] at coefficient
      omega
    obtain ⟨before, digit, rfl⟩ := (List.eq_nil_or_concat' front).resolve_left some
    have visible : digit ≠ '0' := last digit (by simp)
    have isDigit : digit.isDigit = true := by
      refine Nat.isDigit_of_mem_toDigits (b := 10) (n := decimal.coefficient) (by decide)
        (by decide) ?_
      change digit ∈ decimal.digits
      rw [split]
      simp
    rw [Nat.ofDigitChars_append, Nat.ofDigitChars_cons, Nat.ofDigitChars_nil]
    have bounds : 48 ≤ digit.toNat ∧ digit.toNat ≤ 57 := by
      simpa [Char.isDigit, UInt32.le_iff_toNat_le] using isDigit
    have nonzero : digit.toNat ≠ 48 := fun same => visible (Char.toNat_inj.mp same)
    change (10 * _ + (digit.toNat - 48)) % 10 ≠ 0
    omega

theorem trimmed_value (positive : 0 < decimal.coefficient) :
    decimal.trimmed.value = decimal.value := by
  obtain ⟨zeros, coefficient, power, -⟩ := trimmed_spec positive
  have cast : (decimal.coefficient : ℚ) = decimal.trimmed.coefficient * 10 ^ zeros := by
    exact_mod_cast coefficient
  rw [value, value, power, cast, zpow_add₀ (by norm_num), zpow_natCast]
  ring

end Decimal

/-! ## The shortest decimal -/

section Shortest

variable {significand : Nat} {exponent : Int}

/-- The search for the digits of a magnitude ends. -/
theorem search_found (canonical : Canonical significand exponent) (tie : Tie) :
    ∃ step : Nat, (Rounding.of significand exponent).candidate? tie
        ((Rounding.of significand exponent).leadingPower - step) =
          some ((Rounding.of significand exponent).search tie 17
            (Rounding.of significand exponent).leadingPower) ∧
      ∀ earlier < step, (Rounding.of significand exponent).candidate? tie
        ((Rounding.of significand exponent).leadingPower - earlier) = none := by
  have value : 0 < (Rounding.of significand exponent).value :=
    Nat.mul_pos (by decide) canonical.positive
  have fine := (Rounding.leadingPower_bounds value).1
  rw [magnitude_of] at fine
  have enough : (Rounding.of significand exponent).candidate? tie
      ((Rounding.of significand exponent).leadingPower - (16 : Nat)) ≠ none :=
    candidate?_of_fine canonical (by rwa [Nat.cast_ofNat, sub_add_cancel])
  obtain ⟨step, -, found, earlier⟩ := Rounding.search_eq enough
  exact ⟨step, found, earlier⟩

/-- Decimals in the interval of a magnitude are not zero. -/
theorem coefficient_of_covers {decimal : Decimal} (positive : 0 < significand)
    (covers : (Rounding.of significand exponent).Covers decimal.value) :
    0 < decimal.coefficient := by
  by_contra none
  have some := positive_of_covers positive covers
  rw [Decimal.value, Nat.eq_zero_of_not_pos none, Nat.cast_zero, zero_mul] at some
  exact lt_irrefl _ some

/-- The decimal that is chosen reads back. -/
theorem covers_shortest (canonical : Canonical significand exponent) (tie : Tie) :
    (Rounding.of significand exponent).Covers (shortest tie significand exponent).value := by
  obtain ⟨step, found, -⟩ := search_found canonical tie
  obtain ⟨covers, -, -⟩ := Rounding.covers_of_candidate? found
  have some := coefficient_of_covers canonical.positive covers
  rw [← Decimal.trimmed_value some] at covers
  exact covers

/-- A decimal lies between two powers of ten by the number of its digits. -/
theorem Decimal.exponent_bounds {decimal : Decimal} (positive : 0 < decimal.coefficient) :
    (10 : ℚ) ^ decimal.exponent ≤ decimal.value ∧ decimal.value < 10 ^ (decimal.exponent + 1) := by
  obtain ⟨least, greatest⟩ := Rounding.digitCount_bounds positive
  have digits : 0 < digitCount decimal.coefficient := Nat.length_toDigits_pos
  have unit : (0 : ℚ) < 10 ^ decimal.power := by positivity
  have next : decimal.exponent + 1 = digitCount decimal.coefficient + decimal.power := by
    change decimal.power + (digitCount decimal.coefficient - 1 : Nat) + 1 = _
    omega
  have same : decimal.exponent = (digitCount decimal.coefficient - 1 : Nat) + decimal.power :=
    Int.add_comm _ _
  rw [next, same, Decimal.value, zpow_add₀ (by norm_num), zpow_add₀ (by norm_num), zpow_natCast,
    zpow_natCast, mul_le_mul_iff_left₀ unit, mul_lt_mul_iff_left₀ unit]
  exact ⟨by exact_mod_cast least, by exact_mod_cast greatest⟩

/-- Without zeros at its end, a power of ten is one. -/
theorem eq_one_of_mul_pow {number zeros count : Nat} (whole : number * 10 ^ zeros = 10 ^ count)
    (nonzero : number % 10 ≠ 0) : number = 1 := by
  have le : zeros ≤ count := by
    rw [← Nat.pow_le_pow_iff_right (by decide : 1 < 10), ← whole]
    exact Nat.le_mul_of_pos_left _ (Nat.pos_of_ne_zero fun zero => nonzero (by rw [zero]))
  obtain ⟨rest, rfl⟩ := Nat.exists_eq_add_of_le' le
  rw [pow_add] at whole
  have power : number = 10 ^ rest := Nat.eq_of_mul_eq_mul_right (by positivity) whole
  cases rest with
  | zero => exact power
  | succ rest =>
      rw [power, pow_succ] at nonzero
      exact absurd (Nat.mul_mod_left _ _) nonzero

/-- The search goes no further than to the number of digits of any decimal that reads back. -/
theorem step_le {step : Nat} {tie : Tie} {other : Decimal}
    (canonical : Canonical significand exponent)
    (covers : (Rounding.of significand exponent).Covers other.value)
    (earlier : ∀ before < step, (Rounding.of significand exponent).candidate? tie
      ((Rounding.of significand exponent).leadingPower - before) = none) :
    step < other.digits.length := by
  have own : (Rounding.of significand exponent).Covers (significand * 2 ^ exponent) :=
    covers_self canonical.positive
  rw [← magnitude_of] at own
  have value : 0 < (Rounding.of significand exponent).value :=
    Nat.mul_pos (by decide) canonical.positive
  obtain ⟨fromBelow, fromAbove⟩ := Rounding.leadingPower_bounds value
  obtain ⟨least, greatest⟩ :=
    Decimal.exponent_bounds (coefficient_of_covers canonical.positive covers)
  have digits : 0 < other.digits.length := Nat.length_toDigits_pos
  have place : other.exponent = other.power + (other.digits.length - 1 : Nat) := rfl
  generalize (Rounding.of significand exponent).leadingPower = leading at *
  by_contra late
  -- A power of ten between the magnitude and the other decimal is found at once.
  have first : ∀ coefficient : Nat,
      ¬(Rounding.of significand exponent).Covers (coefficient * 10 ^ leading) := by
    have none := earlier 0 (by omega)
    rw [Nat.cast_zero, sub_zero] at none
    exact Rounding.not_covers_of_candidate? own none
  rcases lt_trichotomy other.exponent leading with less | same | more
  · have order : (10 : ℚ) ^ (other.exponent + 1) ≤ 10 ^ leading :=
      zpow_le_zpow_right₀ (by norm_num) (by omega)
    refine first 1 ?_
    rw [Nat.cast_one, one_mul]
    exact covers.between own (greatest.le.trans order) fromBelow
  · have none := earlier (other.digits.length - 1) (by omega)
    have power : leading - (other.digits.length - 1 : Nat) = other.power := by omega
    rw [power] at none
    exact Rounding.not_covers_of_candidate? own none other.coefficient covers
  · have order : (10 : ℚ) ^ (leading + 1) ≤ 10 ^ other.exponent :=
      zpow_le_zpow_right₀ (by norm_num) (by omega)
    have ten : ((10 : Nat) * 10 ^ leading : ℚ) = 10 ^ (leading + 1) := by
      rw [zpow_add₀ (by norm_num), zpow_one, mul_comm]
      norm_num
    refine first 10 ?_
    rw [ten]
    exact own.between covers fromAbove.le (order.trans least)

/-- No decimal that reads back has fewer digits. -/
theorem shortest_minimal (canonical : Canonical significand exponent) (tie : Tie) {other : Decimal}
    (covers : (Rounding.of significand exponent).Covers other.value) :
    (shortest tie significand exponent).digits.length ≤ other.digits.length := by
  obtain ⟨step, found, earlier⟩ := search_found canonical tie
  have early := step_le canonical covers earlier
  obtain ⟨isCovered, power, neighbour⟩ := Rounding.covers_of_candidate? found
  have value : 0 < (Rounding.of significand exponent).value :=
    Nat.mul_pos (by decide) canonical.positive
  have fromAbove := (Rounding.leadingPower_bounds value).2
  have floor := ((Rounding.of significand exponent).floor_bounds
    ((Rounding.of significand exponent).leadingPower - step)).1
  have some := coefficient_of_covers canonical.positive isCovered
  change ((Rounding.of significand exponent).search tie 17
    (Rounding.of significand exponent).leadingPower).trimmed.digits.length ≤ _
  generalize (Rounding.of significand exponent).search tie 17
    (Rounding.of significand exponent).leadingPower = decimal at *
  generalize (Rounding.of significand exponent).leadingPower = leading at *
  generalize (Rounding.of significand exponent).floor (leading - step) = below at *
  have digits : below < 10 ^ (step + 1) := by
    have unit : (0 : ℚ) < 10 ^ (leading - step) := by positivity
    have wide : (10 : ℚ) ^ (leading + 1) = 10 ^ (step + 1) * 10 ^ (leading - step) := by
      rw [← zpow_natCast, ← zpow_add₀ (by norm_num)]
      congr 1
      push_cast
      ring
    have cast : (below : ℚ) < 10 ^ (step + 1) := by
      refine lt_of_mul_lt_mul_right ?_ unit.le
      rw [← wide]
      exact floor.trans_lt fromAbove
    exact_mod_cast cast
  obtain ⟨zeros, whole, -, nonzero⟩ := Decimal.trimmed_spec some
  have few : decimal.trimmed.coefficient < 10 ^ (step + 1) := by
    by_cases full : decimal.coefficient = 10 ^ (step + 1)
    · rw [eq_one_of_mul_pow (whole.symm.trans full) nonzero]
      exact Nat.one_lt_pow (Nat.succ_ne_zero step) (by decide)
    · have le : decimal.trimmed.coefficient ≤ decimal.coefficient := by
        rw [whole]
        exact Nat.le_mul_of_pos_right _ (by positivity)
      omega
  exact Nat.le_trans ((Nat.length_toDigits_le_iff (by decide) (Nat.succ_pos step)).mpr few) early

end Shortest

end Lox.Number
