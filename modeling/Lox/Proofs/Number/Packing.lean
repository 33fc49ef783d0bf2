import Lox.Proofs.Number.Rounding

/-!
# The bits of doubles

The content of a double and the parts that arithmetic takes it into say the same. A finite
double is told by its content, and it is packed from it again.
-/

namespace Lox.Number

open Float.Model Float.Model.UnpackedFloat

/-- A sign as arithmetic has it. -/
def signOf (negative : Bool) : Sign :=
  if negative then .negative else .positive

/-- The bits of a finite double are a sign, an exponent field and a fraction. -/
structure Fields (bits : Nat) (negative : Bool) (biased fraction : Nat) : Prop where
  bits_eq : bits = negative.toNat * 2 ^ 63 + biased * 2 ^ 52 + fraction
  finite : biased < 2047
  proper : fraction < 2 ^ 52

/-- The significand that a finite double has by its fields. -/
def significandOf (biased fraction : Nat) : Nat :=
  if biased = 0 then fraction else 2 ^ 52 + fraction

/-- The exponent that it has. -/
def exponentOf (biased : Nat) : Int :=
  leastExponent + (biased - 1 : Nat)

section Fields

variable {bits : Nat} {negative : Bool} {biased fraction significand : Nat} {exponent : Int}

namespace Fields

theorem split (fields : Fields bits negative biased fraction) :
    bits / 2 ^ 63 = negative.toNat ∧ bits / 2 ^ 52 % 2 ^ 11 = biased ∧
      bits % 2 ^ 52 = fraction := by
  obtain ⟨rfl, finite, proper⟩ := fields
  have sign := Bool.toNat_lt negative
  refine ⟨?_, ?_, ?_⟩ <;> omega

theorem content (fields : Fields bits negative biased fraction) : contentOfBits bits =
    .finite negative (significandOf biased fraction) (exponentOf biased) := by
  obtain ⟨sign, middle, rest⟩ := fields.split
  change bits / Nat.pow 2 63 = negative.toNat at sign
  change bits / Nat.pow 2 52 % Nat.pow 2 11 = biased at middle
  change bits % Nat.pow 2 52 = fraction at rest
  have isNegative : (negative.toNat == 1) = negative := by cases negative <;> rfl
  unfold contentOfBits
  rw [sign, middle, rest, isNegative]
  dsimp only
  rw [if_neg fields.finite.ne, significandOf, exponentOf]
  split
  · next zero =>
      subst zero
      rfl
  · rfl

end Fields

/-- A double with finite content has such fields. -/
theorem fields_of_content (small : bits < 2 ^ 64)
    (finite : contentOfBits bits = .finite negative significand exponent) :
    ∃ biased fraction, Fields bits negative biased fraction ∧
      significand = significandOf biased fraction ∧ exponent = exponentOf biased := by
  have special : bits / 2 ^ 52 % 2 ^ 11 ≠ 2047 := by
    intro special
    change bits / Nat.pow 2 52 % Nat.pow 2 11 = 2047 at special
    unfold contentOfBits at finite
    dsimp only at finite
    rw [if_pos special] at finite
    split at finite <;> cases finite
  have fields : Fields bits (bits / 2 ^ 63 == 1) (bits / 2 ^ 52 % 2 ^ 11) (bits % 2 ^ 52) := by
    refine ⟨?_, by omega, by omega⟩
    rcases (by omega : bits / 2 ^ 63 = 0 ∨ bits / 2 ^ 63 = 1) with sign | sign
    · rw [sign]
      change _ = 0 * 2 ^ 63 + _ + _
      omega
    · rw [sign]
      change _ = 1 * 2 ^ 63 + _ + _
      omega
  have content := fields.content
  rw [finite] at content
  injection content with sign magnitude place
  exact ⟨_, _, sign ▸ fields, magnitude, place⟩

/-- The fields of a finite double determine its bits. -/
theorem bits_of_content {other : Nat} (small : bits < 2 ^ 64) (otherSmall : other < 2 ^ 64)
    (finite : contentOfBits bits = .finite negative significand exponent)
    (same : contentOfBits other = .finite negative significand exponent) : bits = other := by
  obtain ⟨biased, fraction, one, magnitude, place⟩ := fields_of_content small finite
  obtain ⟨biased', fraction', two, magnitude', place'⟩ := fields_of_content otherSmall same
  rw [one.bits_eq, two.bits_eq]
  have := one.proper
  have := two.proper
  rw [magnitude] at magnitude'
  rw [place] at place'
  unfold significandOf at magnitude'
  unfold exponentOf at place'
  split at magnitude' <;> split at magnitude' <;> omega

/-- What a finite double has in its content. -/
theorem canonical_of_fields (fields : Fields bits negative biased fraction)
    (positive : 0 < significandOf biased fraction) :
    Canonical (significandOf biased fraction) (exponentOf biased) := by
  have finite := fields.finite
  have proper := fields.proper
  have least : leastExponent = -1074 := rfl
  unfold significandOf exponentOf at *
  by_cases subnormal : biased = 0
  · rw [if_pos subnormal] at positive ⊢
    constructor <;> omega
  · rw [if_neg subnormal] at positive ⊢
    constructor <;> omega

theorem canonical_of_content (small : bits < 2 ^ 64) (positive : 0 < significand)
    (finite : contentOfBits bits = .finite negative significand exponent) :
    Canonical significand exponent := by
  obtain ⟨biased, fraction, fields, rfl, rfl⟩ := fields_of_content small finite
  exact canonical_of_fields fields positive

end Fields

/-! ## Packing and unpacking -/

section Bits

variable {negative : Bool} {biased fraction significand : Nat} {exponent : Int}

theorem toNat_packComponents (sign : Bool) (middle : BitVec 11) (rest : BitVec 52) :
    (packComponents Format.binary64 (signOf sign) middle rest).toNat =
      sign.toNat * 2 ^ 63 + middle.toNat * 2 ^ 52 + rest.toNat := by
  have isSign : (signOf sign).toBitVec.toNat = sign.toNat := by cases sign <;> rfl
  have middleSmall := middle.isLt
  have restSmall := rest.isLt
  unfold packComponents
  rw [BitVec.toNat_append, BitVec.toNat_append, isSign, ← Nat.shiftLeft_add_eq_or_of_lt middleSmall,
    ← Nat.shiftLeft_add_eq_or_of_lt restSmall, Nat.shiftLeft_eq, Nat.shiftLeft_eq]
  change (sign.toNat * 2 ^ 11 + middle.toNat) * 2 ^ 52 + rest.toNat = _
  omega

/-- The fields into which a magnitude is packed. -/
theorem fields_pack (canonical : Canonical significand exponent) :
    Fields (Float.Model.pack (.finite (signOf negative) significand exponent
        canonical.positive)).toBits.toNat negative
      (if significand < 2 ^ 52 then 0 else (exponent + 1075).toNat) (significand % 2 ^ 52) := by
  obtain ⟨positive, small, atLeast, atMost, full⟩ := canonical
  have least : leastExponent = -1074 := rfl
  change Fields (UnpackedFloat.pack Format.binary64 (.finite (signOf negative) significand exponent
    positive)).toNat _ _ _
  have biased : (exponent + (Format.binary64.exponentBias : Nat) +
      (Format.binary64.mantissaBitsWithoutImplicit : Nat)).toNat = (exponent + 1075).toNat := by
    change (exponent + (1023 : Nat) + (52 : Nat)).toNat = _
    omega
  have bounded : ¬2 ^ Format.binary64.exponentBits ≤ (exponent + 1075).toNat + 1 := by
    change ¬2048 ≤ _
    omega
  unfold UnpackedFloat.pack
  dsimp only
  rw [biased, if_neg bounded]
  by_cases subnormal : significand < 2 ^ 52
  · have bits : ¬significand.log2 + 1 = Format.binary64.mantissaBits := by
      have := (Nat.log2_lt positive.ne').mpr subnormal
      change ¬significand.log2 + 1 = 53
      omega
    rw [if_neg bits, toNat_packComponents, if_pos subnormal]
    exact ⟨by simp, by decide, Nat.mod_lt _ (by decide)⟩
  · have bits : significand.log2 + 1 = Format.binary64.mantissaBits := by
      have := (Nat.log2_lt positive.ne').mpr small
      have := (Nat.le_log2 positive.ne').mpr (Nat.le_of_not_lt subnormal)
      change significand.log2 + 1 = 53
      omega
    rw [if_pos bits, toNat_packComponents, if_neg subnormal]
    refine ⟨?_, by omega, Nat.mod_lt _ (by decide)⟩
    rw [BitVec.toNat_ofNat, BitVec.toNat_ofNat, Nat.mod_eq_of_lt (a := (exponent + 1075).toNat)]
    omega

/-- A magnitude is found again in the double that it is packed into. -/
theorem content_pack (negative : Bool) (canonical : Canonical significand exponent) :
    content (.ofModel (.pack (.finite (signOf negative) significand exponent
      canonical.positive))) = .finite negative significand exponent := by
  change contentOfBits (Float.Model.pack (.finite (signOf negative) significand exponent
    canonical.positive)).toBits.toNat = _
  obtain ⟨positive, small, atLeast, atMost, full⟩ := id canonical
  have least : leastExponent = -1074 := rfl
  rw [(fields_pack canonical).content, significandOf, exponentOf]
  congr 1
  · split <;> split at * <;> omega
  · split <;> omega

/-- Doubles with the same finite content are the same. -/
theorem eq_of_content {one other : Float}
    (finite : content one = .finite negative significand exponent)
    (same : content other = .finite negative significand exponent) : one = other := by
  have bits := bits_of_content one.toModel.toBits.toNat_lt other.toModel.toBits.toNat_lt finite same
  obtain ⟨⟨oneBits, oneValid⟩⟩ := one
  obtain ⟨⟨otherBits, otherValid⟩⟩ := other
  obtain rfl : oneBits = otherBits := UInt64.toNat_inj.mp bits
  rfl

/-- The fields as arithmetic cuts them out. -/
theorem unpack_fields (bits : BitVec 64) (fields : Fields bits.toNat negative biased fraction) :
    Sign.ofBitVec (@unpackSign Format.binary64 bits) = signOf negative ∧
      (@unpackExponent Format.binary64 bits).toNat = biased ∧
      (@unpackMantissa Format.binary64 bits).toNat = fraction := by
  obtain ⟨sign, middle, rest⟩ := fields.split
  refine ⟨?_, ?_, ?_⟩
  · have bit : @unpackSign Format.binary64 bits = BitVec.ofNat 1 negative.toNat := by
      apply BitVec.eq_of_toNat_eq
      change ((bits.extractLsb 63 63).cast _).toNat = _
      rw [BitVec.toNat_cast, BitVec.extractLsb_toNat, Nat.shiftRight_eq_div_pow]
      change bits.toNat / 2 ^ 63 % 2 ^ 1 = _
      rw [sign]
      cases negative <;> rfl
    rw [bit]
    cases negative <;> rfl
  · rw [unpackExponent, BitVec.toNat_cast, BitVec.extractLsb_toNat, Nat.shiftRight_eq_div_pow]
    exact middle
  · rw [unpackMantissa, BitVec.toNat_cast, BitVec.extractLsb_toNat, Nat.shiftRight_eq_div_pow]
    change bits.toNat / 2 ^ 0 % 2 ^ 52 = _
    rw [Nat.pow_zero, Nat.div_one]
    exact rest

theorem finite_congr {sign other : Sign} {mantissa mantissa' : Nat} {place place' : Int}
    {positive : 0 < mantissa} {positive' : 0 < mantissa'} (sameSign : sign = other)
    (same : mantissa = mantissa') (samePlace : place = place') :
    UnpackedFloat.finite sign mantissa place positive =
      .finite other mantissa' place' positive' := by
  subst sameSign same samePlace
  rfl

/-- Arithmetic takes a double into its content. -/
theorem unpack_of_content {model : Float.Model} (positive : 0 < significand)
    (finite : contentOfBits model.toBits.toNat = .finite negative significand exponent) :
    model.unpack = .finite (signOf negative) significand exponent positive := by
  obtain ⟨biased, fraction, fields, rfl, rfl⟩ :=
    fields_of_content model.toBits.toNat_lt finite
  obtain ⟨sign, middle, rest⟩ := unpack_fields model.toBits.toBitVec fields
  have bounded := fields.finite
  have special : @unpackExponent Format.binary64 model.toBits.toBitVec ≠ -1#_ := by
    intro special
    rw [special] at middle
    change 2047 = biased at middle
    omega
  unfold Float.Model.unpack UnpackedFloat.unpack
  dsimp only
  rw [if_neg special]
  by_cases subnormal : biased = 0
  · have zero : @unpackExponent Format.binary64 model.toBits.toBitVec = 0#_ :=
      BitVec.eq_of_toNat_eq (middle.trans subnormal)
    have magnitude : significandOf biased fraction = fraction := if_pos subnormal
    have nonzero : @unpackMantissa Format.binary64 model.toBits.toBitVec ≠ 0#_ := by
      intro zero
      rw [zero] at rest
      change 0 = fraction at rest
      omega
    rw [if_pos zero, dif_neg nonzero]
    apply finite_congr sign
    · rw [rest, magnitude]
    · rw [middle, subnormal]
      rfl
  · have nonzero : @unpackExponent Format.binary64 model.toBits.toBitVec ≠ 0#_ := by
      intro zero
      rw [zero] at middle
      exact subnormal middle.symm
    have magnitude : significandOf biased fraction = 2 ^ 52 + fraction := if_neg subnormal
    rw [if_neg nonzero]
    apply finite_congr sign
    · have small := (@unpackMantissa Format.binary64 model.toBits.toBitVec).isLt
      rw [BitVec.toNat_append, ← Nat.shiftLeft_add_eq_or_of_lt small, rest, magnitude]
      rfl
    · have least : leastExponent = -1074 := rfl
      rw [middle, exponentOf]
      change (biased : Int) - ((1023 : Nat) + (52 : Nat)) = _
      omega

end Bits

end Lox.Number
