import Lox.Proofs.Number.Written

/-!
# Printed numbers read back

A finite number is printed as a numeral that stands for this number, sign included. The numeral
has an exponent exactly where the number is very small or very great. Without an exponent and
without a sign, it is a number literal.
-/

namespace Lox.Number

open Segment (isDigit)
open Numeral (minus pointed)

variable {number : Float} {negative : Bool} {significand : Nat} {exponent : Int}

/-! ## Numerals of a number -/

/-- The negation of a number has the other sign. -/
theorem content_neg (positive : 0 < significand)
    (finite : content number = .finite false significand exponent) :
    content (-number) = .finite true significand exponent := by
  have canonical := canonical_of_content number.toModel.toBits.toNat_lt positive finite
  change contentOfBits (Float.Model.pack number.toModel.unpack.neg).toBits.toNat = _
  rw [unpack_of_content positive finite]
  exact content_pack true canonical

/-- A numeral in the interval of a number stands for this number. -/
theorem value_of_covers {numeral : Numeral} (positive : 0 < significand)
    (finite : content number = .finite numeral.negative significand exponent)
    (covers : (Rounding.of significand exponent).Covers numeral.magnitude) :
    numeral.value = number := by
  have canonical := canonical_of_content number.toModel.toBits.toNat_lt positive finite
  have unsigned := content_pack false canonical
  have read := nearest_eq unsigned positive covers
  unfold Numeral.value
  cases sign : numeral.negative with
  | false =>
      rw [sign] at finite
      rw [if_neg Bool.false_ne_true, read]
      exact eq_of_content unsigned finite
  | true =>
      rw [sign] at finite
      rw [if_pos rfl, read]
      exact eq_of_content (content_neg positive unsigned) finite

/-- Zeros of one sign have one exponent, the least. -/
theorem exponent_zero (finite : content number = .finite negative 0 exponent) :
    exponent = leastExponent := by
  obtain ⟨biased, fraction, -, magnitude, place⟩ :=
    fields_of_content number.toModel.toBits.toNat_lt finite
  unfold significandOf at magnitude
  unfold exponentOf at place
  split at magnitude <;> omega

/-- The numeral of zero stands for zero, with a fraction or without one. -/
theorem value_zero (finite : content number = .finite negative 0 exponent) :
    (Numeral.mk negative ['0'] [] 0).value = number ∧
      (Numeral.mk negative ['0'] ['0'] 0).value = number := by
  have bare : ∀ negative, content (Numeral.mk negative ['0'] [] 0).value =
      .finite negative 0 leastExponent := by decide +kernel
  have pointed : ∀ negative, content (Numeral.mk negative ['0'] ['0'] 0).value =
      .finite negative 0 leastExponent := by decide +kernel
  rw [exponent_zero finite] at finite
  exact ⟨eq_of_content (bare negative) finite, eq_of_content (pointed negative) finite⟩

/-! ## Where the exponent is written -/

/-- A magnitude is known by any decimal in its interval. -/
theorem magnitude_unique {coefficient : Nat} {power : Int} {significand' : Nat} {exponent' : Int}
    (canonical : Canonical significand exponent)
    (covers : (Rounding.of significand exponent).Covers (coefficient * 10 ^ power))
    (read : content (Numeral.nearest coefficient power) = .finite false significand' exponent') :
    significand = significand' ∧ exponent = exponent' := by
  have packed := content_pack false canonical
  have same := nearest_eq packed canonical.positive covers
  rw [same] at read
  have contents := packed.symm.trans read
  injection contents with _ significands exponents
  exact ⟨significands, exponents⟩

/-- A power of ten that is not greater than the double that it is read as tells the magnitudes
below it by their decimal exponents. -/
theorem power_le_iff {power : Int} (significand' : Nat) (exponent' : Int)
    (read : content (Numeral.nearest 1 power) = .finite false significand' exponent')
    (written : (shortest .away significand' exponent').exponent = power)
    (least : (10 : ℚ) ^ power ≤ significand' * 2 ^ exponent')
    (canonical : Canonical significand exponent) :
    power ≤ (shortest .away significand exponent).exponent ↔
      (10 : ℚ) ^ power ≤ significand * 2 ^ exponent := by
  have own : (Rounding.of significand exponent).Covers (significand * 2 ^ exponent) :=
    covers_self canonical.positive
  have covers := covers_shortest canonical .away
  obtain ⟨fromBelow, fromAbove⟩ :=
    Decimal.exponent_bounds (coefficient_of_covers canonical.positive covers)
  have isBetween (inside : (Rounding.of significand exponent).Covers (10 ^ power)) :
      significand = significand' ∧ exponent = exponent' :=
    magnitude_unique canonical (by rwa [Nat.cast_one, one_mul]) read
  constructor
  · intro le
    by_contra less
    have order : (10 : ℚ) ^ power ≤ (shortest .away significand exponent).value :=
      (zpow_le_zpow_right₀ (by norm_num) le).trans fromBelow
    obtain ⟨rfl, rfl⟩ := isBetween (own.between covers (le_of_not_ge less) order)
    exact less least
  · intro le
    by_contra less
    have order : (shortest .away significand exponent).value ≤ (10 : ℚ) ^ power :=
      fromAbove.le.trans (zpow_le_zpow_right₀ (by norm_num) (by omega))
    obtain ⟨rfl, rfl⟩ := isBetween (covers.between own order le)
    exact less written.ge

/-- The bounds of the exponents that are not written are the bounds of the numbers. -/
theorem exponent_iff (canonical : Canonical significand exponent) :
    (-4 ≤ (shortest .away significand exponent).exponent ↔
      (10 : ℚ) ^ (-4 : Int) ≤ significand * 2 ^ exponent) ∧
    (16 ≤ (shortest .away significand exponent).exponent ↔
      (10 : ℚ) ^ (16 : Int) ≤ significand * 2 ^ exponent) := by
  constructor
  · refine power_le_iff 7378697629483821 (-66) ?_ ?_ ?_ canonical
    · decide +kernel
    · decide +kernel
    · norm_num
  · refine power_le_iff 5000000000000000 1 ?_ ?_ ?_ canonical
    · decide +kernel
    · decide +kernel
    · norm_num

/-! ## The text of a number -/

/-- Whether a magnitude is printed with its digits in their places. -/
def IsPlain (significand : Nat) (exponent : Int) : Prop :=
  significand = 0 ∨ (-4 ≤ (shortest .away significand exponent).exponent ∧
    (shortest .away significand exponent).exponent ≤ 15)

theorem isPositional_iff (exponent : Int) :
    Value.numberLayout.isPositional exponent = true ↔ -4 ≤ exponent ∧ exponent ≤ 15 := by
  change (decide (-4 ≤ exponent) && decide (exponent ≤ 15)) = true ↔ _
  rw [Bool.and_eq_true, decide_eq_true_iff, decide_eq_true_iff]

theorem toList_signText (negative : Bool) : (signText negative).toList = minus negative := by
  cases negative <;> rfl

theorem render_eq (finite : content number = .finite negative significand exponent) :
    (Value.numberLayout.render number).toList =
      minus negative ++ (Value.numberLayout.magnitude significand exponent).toList := by
  unfold Layout.render
  rw [finite]
  dsimp only
  rw [String.toList_append, toList_signText]

/-- A number of moderate size is printed without an exponent. -/
theorem render_plain (finite : content number = .finite negative significand exponent)
    (plain : IsPlain significand exponent) : ∃ whole places,
      (Value.numberLayout.render number).toList = minus negative ++ (whole ++ pointed places) ∧
        Digits whole places ∧ (Numeral.mk negative whole places 0).value = number := by
  rw [render_eq finite]
  unfold Layout.magnitude
  by_cases zero : significand = 0
  · subst zero
    rw [if_pos rfl]
    exact ⟨['0'], [], rfl, ⟨by simp, by simp [isDigit], by simp⟩, (value_zero finite).1⟩
  · have positive := Nat.pos_of_ne_zero zero
    have canonical := canonical_of_content number.toModel.toBits.toNat_lt positive finite
    have isPositional : Value.numberLayout.isPositional
        (shortest Value.numberLayout.tie significand exponent).exponent = true :=
      (isPositional_iff _).mpr (plain.resolve_left zero)
    obtain ⟨whole, places, text, digits, value⟩ :=
      (shortest Value.numberLayout.tie significand exponent).positional_text
    rw [if_neg zero, if_pos isPositional]
    refine ⟨whole, places, congrArg (minus negative ++ ·) text, digits, ?_⟩
    refine value_of_covers positive finite ?_
    have covers := covers_shortest canonical Value.numberLayout.tie
    rw [← value] at covers
    exact covers

/-- Other numbers are printed with one. -/
theorem render_scientific (finite : content number = .finite negative significand exponent)
    (great : ¬IsPlain significand exponent) : ∃ first places, ∃ power : Int,
      (Value.numberLayout.render number).toList = minus negative ++ ([first] ++
        (pointed places ++ 'e' :: (Value.numberLayout.exponentText power).toList)) ∧
        places ≠ [] ∧ Digits [first] places ∧
          (Numeral.mk negative [first] places power).value = number := by
  rw [render_eq finite]
  unfold Layout.magnitude
  obtain ⟨nonzero, outside⟩ := not_or.mp great
  have positive := Nat.pos_of_ne_zero nonzero
  have canonical := canonical_of_content number.toModel.toBits.toNat_lt positive finite
  have isScientific : ¬Value.numberLayout.isPositional
      (shortest Value.numberLayout.tie significand exponent).exponent = true :=
    fun inside => outside ((isPositional_iff _).mp inside)
  obtain ⟨first, places, text, some, digits, value⟩ :=
    (shortest Value.numberLayout.tie significand exponent).scientific_text
  rw [if_neg nonzero, if_neg isScientific]
  refine ⟨first, places, _, congrArg (minus negative ++ ·) text, some, digits, ?_⟩
  refine value_of_covers positive finite ?_
  have covers := covers_shortest canonical Value.numberLayout.tie
  rw [← value] at covers
  exact covers

/-- A numeral with a fraction, and with an exponent that has a sign and at least two digits. -/
inductive Scientific : List Char → Prop where
  | intro (negative : Bool) {first mark : Char} {places digits : List Char}
      (leading : isDigit first = true) (some : places ≠ [])
      (fraction : ∀ digit ∈ places, isDigit digit = true) (sign : mark = '+' ∨ mark = '-')
      (long : 2 ≤ digits.length) (exponent : ∀ digit ∈ digits, isDigit digit = true) :
      Scientific (minus negative ++ first :: '.' :: (places ++ 'e' :: mark :: digits))

/-- A finite number is printed as a numeral that stands for it. -/
theorem render_reads (finite : content number = .finite negative significand exponent) :
    ∃ numeral, Numeral.ofText? (Value.numberLayout.render number).toList = some numeral ∧
      numeral.value = number := by
  by_cases plain : IsPlain significand exponent
  · obtain ⟨whole, places, text, digits, value⟩ := render_plain finite plain
    rw [text, Numeral.ofText?_pointed digits.nonempty digits.whole digits.places]
    exact ⟨_, rfl, value⟩
  · obtain ⟨first, places, power, text, some, digits, value⟩ := render_scientific finite plain
    obtain ⟨mark, rest, exponentText, -, -, -, read⟩ := exponentText_eq power
    rw [text, Numeral.ofText?_exponent digits.nonempty digits.whole digits.places, exponentText,
      read]
    exact ⟨_, rfl, value⟩

/-- Different finite numbers are printed differently. -/
theorem render_injective {other : Float} {negative' : Bool} {significand' : Nat} {exponent' : Int}
    (finite : content number = .finite negative significand exponent)
    (otherFinite : content other = .finite negative' significand' exponent')
    (same : Value.numberLayout.render other = Value.numberLayout.render number) :
    other = number := by
  obtain ⟨numeral, read, value⟩ := render_reads finite
  obtain ⟨numeral', read', value'⟩ := render_reads otherFinite
  rw [same, read] at read'
  rw [← value, ← value', Option.some.inj read']

/-- Only a printed exponent has the letter in front of it. -/
theorem exponent_mem_iff (finite : content number = .finite negative significand exponent) :
    'e' ∈ (Value.numberLayout.render number).toList ↔ ¬IsPlain significand exponent := by
  by_cases plain : IsPlain significand exponent
  · obtain ⟨whole, places, text, digits, -⟩ := render_plain finite plain
    have noDigit {list : List Char} (all : ∀ digit ∈ list, isDigit digit = true) : 'e' ∉ list :=
      fun inside => absurd (all 'e' inside) (by decide)
    have noSign : 'e' ∉ minus negative := by cases negative <;> decide
    have noPoint : 'e' ∉ pointed places := by
      unfold pointed
      split
      · exact List.not_mem_nil
      · simpa using noDigit digits.places
    rw [text]
    simp [plain, noSign, noDigit digits.whole, noPoint]
  · obtain ⟨first, places, power, text, -⟩ := render_scientific finite plain
    rw [text]
    simp [plain]

/-- A number literal that stands alone is the only segment. -/
theorem ofText_literal {whole places : List Char} (digits : Digits whole places) :
    Segment.ofText (whole ++ pointed places) =
      [.lexeme (.number (ofDecimal whole places)) (whole ++ pointed places)] := by
  obtain ⟨some, all, fraction⟩ := digits
  obtain ⟨digit, rest, rfl⟩ := List.exists_cons_of_ne_nil some
  have more : ∀ digit ∈ rest, isDigit digit = true :=
    fun digit inside => all digit (List.mem_cons_of_mem _ inside)
  have stops : (pointed places).takeWhile isDigit = [] ∧
      (pointed places).dropWhile isDigit = pointed places ∧
        Segment.fraction (pointed places) = places := by
    have noDigit : isDigit '.' = false := rfl
    cases places with
    | nil => exact ⟨rfl, rfl, rfl⟩
    | cons place others =>
        have isPlace := fraction place List.mem_cons_self
        have followed : others.takeWhile isDigit = others := List.takeWhile_eq_self_iff.mpr
          fun digit inside => fraction digit (List.mem_cons_of_mem _ inside)
        simp [pointed, noDigit, Segment.fraction, isPlace, followed]
  have first : Segment.first digit (rest ++ pointed places) =
      .lexeme (.number (ofDecimal (digit :: rest) places)) (digit :: rest ++ pointed places) := by
    rw [Numeral.first_digit (all digit List.mem_cons_self), Numeral.number_eq,
      List.takeWhile_append_of_pos more, List.dropWhile_append_of_pos more, stops.1, stops.2.1,
      stops.2.2, List.append_nil]
  have split : digit :: (rest ++ pointed places) =
      (Segment.first digit (rest ++ pointed places)).text ++ [] := by
    rw [first, List.append_nil]
    rfl
  have cut := Segment.ofText_cons split
  rw [first] at cut
  exact cut

/-- A number literal that stands alone is the only token. -/
theorem scan_literal {whole places : List Char} (digits : Digits whole places) :
    scan (String.ofList (whole ++ pointed places)) =
      ([⟨.number (ofDecimal whole places), String.ofList (whole ++ pointed places), 1⟩, .atEnd 1],
        []) := by
  have noDigit {list : List Char} (all : ∀ digit ∈ list, isDigit digit = true) : '\n' ∉ list :=
    fun inside => absurd (all '\n' inside) (by decide)
  have noPoint : '\n' ∉ pointed places := by
    unfold pointed
    split
    · exact List.not_mem_nil
    · simpa using noDigit digits.places
  have unbroken : (whole ++ pointed places).count '\n' = 0 :=
    List.count_eq_zero.mpr (List.not_mem_append (noDigit digits.whole) noPoint)
  have items : (TokenStream.ofText (String.ofList (whole ++ pointed places))).items =
      [.token ⟨.number (ofDecimal whole places), String.ofList (whole ++ pointed places), 1⟩,
        .token (.atEnd 1)] := by
    change Segment.items 1 (Segment.ofText (String.ofList (whole ++ pointed places)).toList) = _
    rw [String.toList_ofList, ofText_literal digits]
    simp [Segment.items, Segment.item?, Segment.lineFeeds, Segment.text, unbroken]
  unfold scan
  rw [items]
  rfl

/-- Where an exponent is printed, it is printed in full. -/
theorem scientific_render (finite : content number = .finite negative significand exponent)
    (great : ¬IsPlain significand exponent) :
    Scientific (Value.numberLayout.render number).toList := by
  obtain ⟨first, places, power, text, some, digits, -⟩ := render_scientific finite great
  obtain ⟨mark, rest, exponentText, sign, long, all, -⟩ := exponentText_eq power
  have leading := digits.whole first (List.mem_singleton_self first)
  have written := Scientific.intro negative leading some digits.places sign long all
  rw [text, exponentText, pointed, if_neg some]
  exact written

/-- What is printed without sign and exponent is a number literal. -/
theorem scan_render (finite : content number = .finite false significand exponent)
    (plain : IsPlain significand exponent) : scan (Value.numberLayout.render number) =
      ([⟨.number number, Value.numberLayout.render number, 1⟩, .atEnd 1], []) := by
  obtain ⟨whole, places, text, digits, value⟩ := render_plain finite plain
  have literal : ofDecimal whole places = number := by
    rw [← value]
    have read := Numeral.value_literal digits.nonempty digits.whole digits.places
    have numeral := Numeral.ofText?_pointed digits.nonempty digits.whole digits.places false
    change Numeral.ofText? (whole ++ pointed places) = _ at numeral
    rw [numeral] at read
    exact (Option.some.inj read).symm
  have same : Value.numberLayout.render number = String.ofList (whole ++ pointed places) := by
    rw [← String.ofList_toList (s := Value.numberLayout.render number), text]
    rfl
  rw [same, scan_literal digits, literal]

/-- Numbers are printed without an exponent where their decimal exponents are moderate. -/
theorem not_isPlain_iff (significand : Nat) (exponent : Int) : ¬IsPlain significand exponent ↔
    significand ≠ 0 ∧ ((shortest .away significand exponent).exponent < -4 ∨
      15 < (shortest .away significand exponent).exponent) := by
  unfold IsPlain
  omega

/-! ## Everything together -/

/-- Printed numbers read back. What is written for a finite number part by part makes up its
text, a numeral that stands for exactly this number, so different numbers have different texts.
It has an exponent exactly if the number is not zero and its decimal exponent is less than -4 or
greater than 15, which is where it is less than a ten thousandth or not less than ten to the
sixteenth; and then there is a fraction in the mantissa, and a sign and at least two digits in
the exponent. A number without a sign that is printed without an exponent is scanned as a single
number token with this number. -/
theorem numbers_read_back (finite : content number = .finite negative significand exponent) :
    String.join (Value.number number).pieces = Value.numberLayout.render number ∧
    (∃ numeral, Numeral.ofText? (Value.numberLayout.render number).toList = some numeral ∧
      numeral.value = number) ∧
    (∀ (other : Float) (negative' : Bool) (significand' : Nat) (exponent' : Int),
      content other = .finite negative' significand' exponent' →
        Value.numberLayout.render other = Value.numberLayout.render number → other = number) ∧
    ('e' ∈ (Value.numberLayout.render number).toList ↔ significand ≠ 0 ∧
      ((shortest .away significand exponent).exponent < -4 ∨
        15 < (shortest .away significand exponent).exponent)) ∧
    ('e' ∈ (Value.numberLayout.render number).toList ↔ significand ≠ 0 ∧
      ((significand * 2 ^ exponent : ℚ) < 10 ^ (-4 : Int) ∨
        (10 : ℚ) ^ (16 : Int) ≤ significand * 2 ^ exponent)) ∧
    ('e' ∈ (Value.numberLayout.render number).toList →
      Scientific (Value.numberLayout.render number).toList) ∧
    (negative = false → 'e' ∉ (Value.numberLayout.render number).toList →
      scan (Value.numberLayout.render number) =
        ([⟨.number number, Value.numberLayout.render number, 1⟩, .atEnd 1], [])) := by
  have mem := exponent_mem_iff finite
  have outside := not_isPlain_iff significand exponent
  refine ⟨Value.text_number number, render_reads finite,
    fun other _ _ _ => render_injective finite, mem.trans outside, (mem.trans outside).trans ?_, fun great => scientific_render finite (mem.mp great), ?_⟩
  · refine and_congr_right fun nonzero => ?_
    have canonical := canonical_of_content number.toModel.toBits.toNat_lt
      (Nat.pos_of_ne_zero nonzero) finite
    obtain ⟨least, greatest⟩ := exponent_iff canonical
    exact or_congr (not_le.symm.trans ((not_congr least).trans not_le)) greatest
  · rintro rfl noExponent
    exact scan_render finite (not_not.mp fun great => noExponent (mem.mpr great))

/-- Two and a half. -/
theorem numbers_read_back_of_half :
    content (.ofBits 0x4004000000000000) = .finite false 5629499534213120 (-51) ∧
      scan "2.5" = ([⟨.number (.ofBits 0x4004000000000000), "2.5", 1⟩, .atEnd 1], []) := by
  have finite : content (.ofBits 0x4004000000000000) = .finite false 5629499534213120 (-51) := by
    decide +kernel
  have text : Value.numberLayout.render (.ofBits 0x4004000000000000) = "2.5" := by
    decide +kernel
  obtain ⟨-, -, -, -, -, -, scanned⟩ := numbers_read_back finite
  rw [text] at scanned
  exact ⟨finite, scanned rfl (by decide)⟩

end Lox.Number
