import Lox.Number.Shortest
import Mathlib.Algebra.Order.Field.Power
import Mathlib.Data.Rat.Cast.Order
import Mathlib.Tactic.FieldSimp
import Mathlib.Tactic.Linarith
import Mathlib.Tactic.Positivity
import Mathlib.Tactic.Ring

/-!
# Rounding to doubles

Arithmetic on doubles cuts an exact result down to a mantissa and two bits, and rounds by
these. The bits keep just enough of the exact number to round it to the nearest mantissa, and
to an even one half way between two. So whatever lies in the interval of a double is rounded
to this double.
-/

namespace Lox.Number

open Float.Model Float.Model.UnpackedFloat

/-! ## What a mantissa keeps of a number -/

/-- A mantissa with its two bits stands for an exact number, of which it is the whole part. -/
def Keeps (kept : ExtendedMantissa) (exact : ℚ) : Prop :=
  match kept.roundBit, kept.stickyBit with
  | false, false => exact = kept.mantissa
  | false, true => kept.mantissa < exact ∧ exact < kept.mantissa + 1 / 2
  | true, false => exact = kept.mantissa + 1 / 2
  | true, true => kept.mantissa + 1 / 2 < exact ∧ exact < kept.mantissa + 1

/-- A number is rounded to a whole number that is nearest to it. Half way between two it is
rounded to the even one. -/
structure RoundsTo (exact : ℚ) (whole : Nat) : Prop where
  above : (whole : ℚ) - 1 / 2 ≤ exact
  below : exact ≤ whole + 1 / 2
  odd : whole % 2 = 1 → (whole : ℚ) - 1 / 2 < exact ∧ exact < whole + 1 / 2

namespace Keeps

variable {kept : ExtendedMantissa} {exact : ℚ}

theorem exact_eq (mantissa : Nat) :
    Keeps (ExtendedMantissa.ofMantissaAndAccuracy mantissa .exact) mantissa :=
  rfl

/-- The mantissa is the whole part. -/
theorem bounds (keeps : Keeps kept exact) :
    (kept.mantissa : ℚ) ≤ exact ∧ exact < kept.mantissa + 1 := by
  obtain ⟨mantissa, roundBit, stickyBit⟩ := kept
  cases roundBit <;> cases stickyBit <;> simp only [Keeps] at keeps ⊢ <;>
    constructor <;> linarith

/-- A shift by one bit halves the number. -/
theorem shiftRightOne (keeps : Keeps kept exact) : Keeps kept.shiftRightOne (exact / 2) := by
  obtain ⟨mantissa, roundBit, stickyBit⟩ := kept
  have division : ((mantissa % 2 : Nat) : ℚ) + 2 * ((mantissa / 2 : Nat) : ℚ) = mantissa := by
    exact_mod_cast Nat.mod_add_div mantissa 2
  rcases Nat.mod_two_eq_zero_or_one mantissa with even | odd
  · rw [even, Nat.cast_zero] at division
    cases roundBit <;> cases stickyBit <;>
      simp only [Keeps, ExtendedMantissa.shiftRightOne, even, bne_self_eq_false, Bool.or_self,
        Bool.or_true, Bool.true_or] at keeps ⊢ <;>
      (try constructor) <;> linarith
  · have set : (1 != 0) = true := rfl
    rw [odd, Nat.cast_one] at division
    cases roundBit <;> cases stickyBit <;>
      simp only [Keeps, ExtendedMantissa.shiftRightOne, odd, set, Bool.or_self, Bool.or_true,
        Bool.true_or] at keeps ⊢ <;>
      (try constructor) <;> linarith

theorem shiftRight (keeps : Keeps kept exact) (count : Nat) :
    Keeps (kept >>> count) (exact / 2 ^ count) := by
  change Keeps (count.repeat ExtendedMantissa.shiftRightOne kept) _
  induction count with
  | zero => simpa [Nat.repeat] using keeps
  | succ count ih =>
      rw [Nat.repeat, pow_succ, div_mul_eq_div_div]
      exact ih.shiftRightOne

/-- A number is rounded to its whole part or to the next one. -/
theorem whole_of_roundsTo (keeps : Keeps kept exact) {whole : Nat}
    (rounds : RoundsTo exact whole) : whole = kept.mantissa ∨ whole = kept.mantissa + 1 := by
  obtain ⟨least, greatest⟩ := keeps.bounds
  have notBelow : (kept.mantissa : ℚ) < whole + 1 := by linarith [rounds.below]
  have notAbove : (whole : ℚ) < kept.mantissa + 2 := by linarith [rounds.above]
  norm_cast at notBelow notAbove
  omega

/-- The mantissa is rounded as the number is. -/
theorem roundedMantissa_eq (keeps : Keeps kept exact) {whole : Nat}
    (rounds : RoundsTo exact whole) : kept.roundedMantissa = whole := by
  have near := keeps.whole_of_roundsTo rounds
  obtain ⟨above, below, odd⟩ := rounds
  obtain ⟨mantissa, roundBit, stickyBit⟩ := kept
  cases roundBit <;> cases stickyBit <;> simp only [Keeps] at keeps <;>
    rcases near with rfl | rfl <;>
    simp only [ExtendedMantissa.roundedMantissa, ExtendedMantissa.accuracy,
      Accuracy.roundToNearestEven] <;>
    push_cast at above below odd
  case false.false.inr | false.true.inr => exfalso; linarith
  case true.true.inl => exfalso; linarith
  case true.false.inl =>
    -- Half way between two, the lower one is taken only if it is even.
    rcases Nat.mod_two_eq_zero_or_one whole with even | isOdd
    · rw [even, Nat.add_zero]
    · exact absurd (odd isOdd).2 (by linarith)
  case true.false.inr =>
    rcases Nat.mod_two_eq_zero_or_one mantissa with even | isOdd
    · exact absurd (odd (by omega)).1 (by linarith)
    · rw [isOdd]

end Keeps

/-! ## The interval of a double -/

/-- A significand and an exponent as a double has them: all bits of the significand are used
unless the exponent is the least one. -/
structure Canonical (significand : Nat) (exponent : Int) : Prop where
  positive : 0 < significand
  small : significand < 2 ^ 53
  least : leastExponent ≤ exponent
  greatest : exponent ≤ 971
  full : 2 ^ 52 ≤ significand ∨ exponent = leastExponent

/-- The reals that round to a magnitude. -/
def Rounding.Covers (rounding : Rounding) (exact : ℚ) : Prop :=
  let position := exact / 2 ^ rounding.scale
  if rounding.closed then rounding.low ≤ position ∧ position ≤ rounding.high
  else rounding.low < position ∧ position < rounding.high

/-- Half the distance to the next smaller magnitude, in units of the last place. -/
def gapBelow (significand : Nat) (exponent : Int) : ℚ :=
  if significand = Nat.pow 2 52 ∧ exponent ≠ leastExponent then 1 / 4 else 1 / 2

section Covers

variable {significand : Nat} {exponent : Int} {exact : ℚ}

theorem gapBelow_bounds (significand : Nat) (exponent : Int) :
    1 / 4 ≤ gapBelow significand exponent ∧ gapBelow significand exponent ≤ 1 / 2 := by
  unfold gapBelow
  split <;> norm_num

theorem low_eq (positive : 0 < significand) :
    ((Rounding.of significand exponent).low : ℚ) =
      4 * (significand - gapBelow significand exponent) := by
  rw [Rounding.of, gapBelow]
  dsimp only
  split
  · rw [Nat.cast_sub (by omega)]
    push_cast
    ring
  · rw [Nat.cast_sub (by omega)]
    push_cast
    ring

theorem high_eq : ((Rounding.of significand exponent).high : ℚ) = 4 * (significand + 1 / 2) := by
  change ((4 * significand + 2 : Nat) : ℚ) = _
  push_cast
  ring

/-- The interval in units of the last place. -/
theorem covers_iff (positive : 0 < significand) :
    (Rounding.of significand exponent).Covers (exact * 2 ^ exponent) ↔
      (significand - gapBelow significand exponent ≤ exact ∧ exact ≤ significand + 1 / 2) ∧
        (significand % 2 = 1 →
          significand - gapBelow significand exponent < exact ∧ exact < significand + 1 / 2) := by
  have position : exact * 2 ^ exponent / 2 ^ (Rounding.of significand exponent).scale =
      4 * exact := by
    change exact * 2 ^ exponent / 2 ^ (exponent - 2) = 4 * exact
    rw [zpow_sub₀ two_ne_zero, div_div_eq_mul_div, mul_assoc,
      mul_div_assoc, mul_div_cancel_left₀ _ (zpow_ne_zero exponent two_ne_zero)]
    norm_num [mul_comm]
  unfold Rounding.Covers
  rw [position, low_eq positive, high_eq]
  rcases Nat.mod_two_eq_zero_or_one significand with even | odd
  · have closed : (Rounding.of significand exponent).closed = true := by
      change (significand % 2 == 0) = true
      rw [even]
      rfl
    simp only [closed, if_true, even]
    constructor
    · rintro ⟨above, below⟩
      exact ⟨⟨by linarith, by linarith⟩, fun odd => absurd odd (by decide)⟩
    · rintro ⟨⟨above, below⟩, -⟩
      exact ⟨by linarith, by linarith⟩
  · have opened : (Rounding.of significand exponent).closed = false := by
      change (significand % 2 == 0) = false
      rw [odd]
      rfl
    simp only [opened, odd, Bool.false_eq_true, if_false, true_imp_iff]
    constructor
    · rintro ⟨above, below⟩
      exact ⟨⟨by linarith, by linarith⟩, by linarith, by linarith⟩
    · rintro ⟨-, above, below⟩
      exact ⟨by linarith, by linarith⟩

/-- A magnitude is in its own interval. -/
theorem covers_self (positive : 0 < significand) :
    (Rounding.of significand exponent).Covers (significand * 2 ^ exponent) := by
  have gap := gapBelow_bounds significand exponent
  rw [covers_iff positive]
  exact ⟨⟨by linarith, by linarith⟩, fun _ => ⟨by linarith, by linarith⟩⟩

theorem positive_of_covers (positive : 0 < significand)
    (covers : (Rounding.of significand exponent).Covers exact) : 0 < exact := by
  have unit : (0 : ℚ) < 2 ^ exponent := by positivity
  have inUnits : exact = exact / 2 ^ exponent * 2 ^ exponent :=
    (div_mul_cancel₀ exact unit.ne').symm
  rw [inUnits, covers_iff positive] at covers
  have gap := (gapBelow_bounds significand exponent).2
  have atLeast : (1 : ℚ) ≤ significand := by exact_mod_cast positive
  have units : 0 < exact / 2 ^ exponent := by linarith [covers.1.1]
  rw [inUnits]
  exact mul_pos units unit

end Covers

/-! ## Cutting down to a mantissa -/

section Shifts

variable {mantissa : Nat} {exponent : Int} {accuracy : Accuracy} {exact : ℚ}

/-- The least exponents with which a number has no more bits than a double. -/
theorem targetExponent_binary64 (total : Int) :
    Format.binary64.targetExponent total = max (total - 53) leastExponent :=
  rfl

/-- The exponent with which a mantissa has all its bits. -/
theorem targetExponent_eq (mantissa : Nat) (exponent : Int) :
    Format.binary64.targetExponent (totalExponent mantissa exponent) =
      max (mantissa.log2 + exponent - 52) leastExponent := by
  rw [targetExponent_binary64, totalExponent]
  omega

/-- A mantissa that is small enough is not shifted. -/
theorem shift_small (small : mantissa < 2 ^ 53) (least : leastExponent ≤ exponent) :
    shiftToTargetExponent Format.binary64 mantissa exponent .exact =
      (⟨mantissa, false, false⟩, exponent) := by
  have bits : mantissa.log2 ≤ 52 := by
    rcases Nat.eq_zero_or_pos mantissa with rfl | positive
    · exact Nat.zero_le _
    · exact Nat.le_of_lt_succ ((Nat.log2_lt positive.ne').mpr small)
  have none : (Format.binary64.targetExponent (totalExponent mantissa exponent) - exponent).toNat =
      0 := by
    rw [targetExponent_eq]
    omega
  unfold shiftToTargetExponent shiftToExponent
  dsimp only
  rw [none, Nat.cast_zero, add_zero]
  rfl

/-- A mantissa with one bit too many is shifted by one. -/
theorem shift_carry (least : leastExponent ≤ exponent) :
    shiftToTargetExponent Format.binary64 (2 ^ 53) exponent .exact =
      (⟨2 ^ 52, false, false⟩, exponent + 1) := by
  have one : (Format.binary64.targetExponent (totalExponent (2 ^ 53) exponent) - exponent).toNat =
      1 := by
    rw [targetExponent_eq, Nat.log2_two_pow]
    omega
  unfold shiftToTargetExponent shiftToExponent
  dsimp only
  rw [one]
  rfl

theorem mantissa_ofMantissaAndAccuracy (mantissa : Nat) (accuracy : Accuracy) :
    (ExtendedMantissa.ofMantissaAndAccuracy mantissa accuracy).mantissa = mantissa := by
  cases accuracy with
  | exact => rfl
  | inexact order => cases order <;> rfl

/-- A number of enough bits is first cut down to the unit of the last place. -/
theorem keeps_shift (keeps : Keeps (.ofMantissaAndAccuracy mantissa accuracy) exact)
    (wide : 52 ≤ mantissa.log2 ∨ exponent ≤ leastExponent) :
    ∃ kept unit, shiftToTargetExponent Format.binary64 mantissa exponent accuracy = (kept, unit) ∧
      Keeps kept (exact * 2 ^ exponent / 2 ^ unit) ∧ leastExponent ≤ unit ∧
      exact * 2 ^ exponent / 2 ^ unit < 2 ^ 53 ∧
      (leastExponent < unit → 2 ^ 52 ≤ exact * 2 ^ exponent / 2 ^ unit) := by
  obtain ⟨count, isTarget⟩ : ∃ count : Nat, exponent + count =
      max (mantissa.log2 + exponent - 52) leastExponent :=
    ⟨(max (mantissa.log2 + exponent - 52) leastExponent - exponent).toNat, by omega⟩
  have scaled : exact * 2 ^ exponent / 2 ^ (exponent + count) = exact / 2 ^ count := by
    rw [zpow_add₀ two_ne_zero, zpow_natCast, ← div_div,
      mul_div_cancel_right₀ _ (zpow_ne_zero exponent two_ne_zero)]
  obtain ⟨least, greatest⟩ := keeps.bounds
  rw [mantissa_ofMantissaAndAccuracy] at least greatest
  refine ⟨ExtendedMantissa.ofMantissaAndAccuracy mantissa accuracy >>> count, exponent + count,
    ?_, ?_, by omega, ?_, ?_⟩
  · have shifts : (Format.binary64.targetExponent (totalExponent mantissa exponent) -
        exponent).toNat = count := by
      rw [targetExponent_eq]
      omega
    unfold shiftToTargetExponent shiftToExponent
    dsimp only
    rw [shifts]
  · rw [scaled]
    exact keeps.shiftRight count
  · have bits : (mantissa + 1 : ℚ) ≤ 2 ^ (53 + count) := by
      have power : mantissa + 1 ≤ 2 ^ (53 + count) :=
        Nat.le_trans Nat.lt_log2_self (Nat.pow_le_pow_right (by decide) (by omega))
      exact_mod_cast power
    rw [scaled, div_lt_iff₀ (by positivity), ← pow_add]
    linarith
  · intro further
    have bits : (2 ^ (52 + count) : ℚ) ≤ mantissa := by
      have same : 52 + count = mantissa.log2 := by omega
      have nonzero : mantissa ≠ 0 := by
        rintro rfl
        simp at same
      have power : 2 ^ (52 + count) ≤ mantissa := same ▸ Nat.log2_self_le nonzero
      exact_mod_cast power
    rw [scaled, le_div_iff₀ (by positivity), ← pow_add]
    linarith

/-- In a coarser unit there are fewer of them. -/
theorem units_eq (exact : ℚ) (unit : Int) (more : Nat) :
    exact / 2 ^ unit = 2 * 2 ^ more * (exact / 2 ^ (unit + 1 + more)) := by
  rw [zpow_add₀ two_ne_zero, zpow_add₀ two_ne_zero, zpow_natCast, zpow_one]
  field_simp

/-- The interval of a magnitude tells how an exact number in it is cut down and rounded. At
the least magnitude of a binade, numbers below it are cut down to a unit of half the width. -/
theorem unit_of_covers {significand : Nat} {place unit : Int}
    (canonical : Canonical significand place)
    (covers : (Rounding.of significand place).Covers exact) (least : leastExponent ≤ unit)
    (below : exact / 2 ^ unit < 2 ^ 53) (above : leastExponent < unit → 2 ^ 52 ≤ exact / 2 ^ unit) :
    unit = place ∧ RoundsTo (exact / 2 ^ unit) significand ∨
      unit + 1 = place ∧ significand = 2 ^ 52 ∧ RoundsTo (exact / 2 ^ unit) (2 ^ 53) := by
  obtain ⟨-, gap⟩ := gapBelow_bounds significand place
  have inUnits : exact = exact / 2 ^ place * 2 ^ place :=
    (div_mul_cancel₀ exact (zpow_ne_zero place two_ne_zero)).symm
  rw [inUnits, covers_iff canonical.positive] at covers
  obtain ⟨⟨fromBelow, fromAbove⟩, odd⟩ := covers
  have small : (significand : ℚ) ≤ 2 ^ 53 - 1 := by
    have bound := canonical.small
    have : significand + 1 ≤ 2 ^ 53 := bound
    have cast : (significand + 1 : ℚ) ≤ 2 ^ 53 := by exact_mod_cast this
    linarith
  rcases lt_trichotomy unit place with finer | rfl | coarser
  · obtain ⟨more, rfl⟩ : ∃ more : Nat, place = unit + 1 + more :=
      ⟨(place - unit - 1).toNat, by omega⟩
    have full : 2 ^ 52 ≤ significand := canonical.full.resolve_right (by omega)
    have fullCast : (2 ^ 52 : ℚ) ≤ significand := by exact_mod_cast full
    have power : (1 : ℚ) ≤ 2 ^ more := one_le_pow₀ (by norm_num)
    rw [units_eq exact unit more] at below ⊢
    have least : (significand : ℚ) < 2 ^ 52 + 1 := by nlinarith
    have isLeast : significand = 2 ^ 52 := by
      have bound : significand < 2 ^ 52 + 1 := by exact_mod_cast least
      exact Nat.le_antisymm (Nat.le_of_lt_succ bound) full
    have narrow : gapBelow significand (unit + 1 + more) = 1 / 4 :=
      if_pos ⟨isLeast, by omega⟩
    rw [narrow] at fromBelow
    cases more with
    | zero =>
        rw [pow_zero, mul_one] at below ⊢
        refine .inr ⟨by simp, isLeast, ?_, ?_, fun odd => absurd odd (by decide)⟩
        · push_cast
          linarith
        · push_cast
          linarith
    | succ more =>
        have fourth : (2 : ℚ) ≤ 2 ^ (more + 1) := by
          rw [pow_succ]
          linarith [one_le_pow₀ (by norm_num : (1 : ℚ) ≤ 2) (n := more)]
        exfalso
        nlinarith
  · exact .inl ⟨rfl, by linarith, fromAbove,
      fun isOdd => ⟨by linarith [(odd isOdd).1], (odd isOdd).2⟩⟩
  · obtain ⟨more, rfl⟩ : ∃ more : Nat, unit = place + 1 + more :=
      ⟨(unit - place - 1).toNat, by omega⟩
    have doubled := units_eq exact place more
    have wide := above (lt_of_le_of_lt canonical.least coarser)
    have power : (1 : ℚ) ≤ 2 ^ more := one_le_pow₀ (by norm_num)
    -- The number has more bits than the magnitude.
    exfalso
    nlinarith

theorem roundWithAccuracy_eq {sign : Sign} {significand : Nat} {place : Int}
    (keeps : Keeps (.ofMantissaAndAccuracy mantissa accuracy) exact)
    (wide : 52 ≤ mantissa.log2 ∨ exponent ≤ leastExponent)
    (canonical : Canonical significand place)
    (covers : (Rounding.of significand place).Covers (exact * 2 ^ exponent)) :
    roundWithAccuracy Format.binary64 sign mantissa exponent accuracy =
      .finite sign significand place canonical.positive := by
  obtain ⟨kept, unit, shifted, keepsOn, least, below, above⟩ := keeps_shift keeps wide
  have positive := canonical.positive
  unfold roundWithAccuracy
  rw [shifted]
  dsimp only
  rcases unit_of_covers canonical covers least below above with ⟨rfl, rounds⟩ | ⟨rfl, rfl, rounds⟩
  · rw [keepsOn.roundedMantissa_eq rounds, shift_small canonical.small least]
    exact dif_neg positive.ne'
  · rw [keepsOn.roundedMantissa_eq rounds, shift_carry least]
    exact dif_neg positive.ne'

end Shifts

end Lox.Number
