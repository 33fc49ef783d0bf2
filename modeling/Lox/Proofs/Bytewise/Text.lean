import Lox.Proofs.Bytewise.Scanner
import Mathlib.Data.String.Basic

/-!
# The bytes of a text

A character of ASCII is one byte, its code. Every other character is several bytes, none of
which is the code of a character of ASCII. So a property of characters that does not tell
apart those beyond ASCII can be read off any byte of a character, and runs of bytes with such
a property are the bytes of runs of characters with it.
-/

namespace Lox.Bytewise

open String (utf8Len)

/-! ## Bytes of one character -/

theorem utf8EncodeChar_ascii {character : Char} (ascii : character.toNat < 128) :
    String.utf8EncodeChar character = [character.val.toUInt8] := by
  apply String.utf8EncodeChar_eq_singleton
  rw [Char.utf8Size_eq_one_iff, UInt32.le_iff_toNat_le]
  exact Nat.le_of_lt_succ ascii

theorem charOf_ascii {character : Char} (ascii : character.toNat < 128) :
    charOf character.val.toUInt8 = character := by
  have code : character.val.toUInt8.toNat = character.toNat := by
    rw [UInt32.toNat_toUInt8]
    exact Nat.mod_eq_of_lt (Nat.lt_trans ascii (by decide))
  rw [charOf, code, Char.ofNat_toNat]

theorem toNat_charOf (byte : UInt8) : (charOf byte).toNat = byte.toNat := by
  have small := byte.toNat_lt
  have valid : byte.toNat.isValidChar := .inl (Nat.lt_trans small (by decide))
  rw [charOf, Char.ofNat, dif_pos valid]
  rfl

theorem le_toNat_or (one other : UInt8) : other.toNat ≤ (one ||| other).toNat := by
  rw [UInt8.toNat_or]
  exact Nat.right_le_or

theorem byte_beyond {character : Char} (beyond : 128 ≤ character.toNat) {byte : UInt8}
    (inside : byte ∈ String.utf8EncodeChar character) : 128 ≤ byte.toNat := by
  have lead (part head : UInt8) (high : 128 ≤ head.toNat) : 128 ≤ (part ||| head).toNat :=
    Nat.le_trans high (le_toNat_or part head)
  rcases character.utf8Size_eq with size | size | size | size
  · rw [Char.utf8Size_eq_one_iff, UInt32.le_iff_toNat_le] at size
    exact absurd (Nat.lt_of_lt_of_le (Nat.lt_succ_of_le size) beyond) (Nat.lt_irrefl _)
  · rw [String.utf8EncodeChar_eq_cons_cons size] at inside
    simp only [List.mem_cons, List.not_mem_nil, or_false] at inside
    rcases inside with rfl | rfl <;> exact lead _ _ (by decide)
  · rw [String.utf8EncodeChar_eq_cons_cons_cons size] at inside
    simp only [List.mem_cons, List.not_mem_nil, or_false] at inside
    rcases inside with rfl | rfl | rfl <;> exact lead _ _ (by decide)
  · rw [String.utf8EncodeChar_eq_cons_cons_cons_cons size] at inside
    simp only [List.mem_cons, List.not_mem_nil, or_false] at inside
    rcases inside with rfl | rfl | rfl | rfl <;> exact lead _ _ (by decide)

/-! ## Properties that bytes show -/

/-- Whether every byte of a character shows whether the character has a property. -/
def Shows (property : Char → Bool) : Prop :=
  ∀ character, ∀ byte ∈ String.utf8EncodeChar character,
    property (charOf byte) = property character

/-- Bytes show a property that is the same for all characters beyond ASCII. -/
theorem shows_of_beyond {property : Char → Bool} {answer : Bool}
    (beyond : ∀ character : Char, 128 ≤ character.toNat → property character = answer) :
    Shows property := by
  intro character byte inside
  by_cases ascii : character.toNat < 128
  · rw [utf8EncodeChar_ascii ascii, List.mem_singleton] at inside
    rw [inside, charOf_ascii ascii]
  · have wide : 128 ≤ character.toNat := Nat.le_of_not_lt ascii
    have high : 128 ≤ (charOf byte).toNat := by
      rw [toNat_charOf]
      exact byte_beyond wide inside
    rw [beyond _ high, beyond _ wide]

/-- A character beyond ASCII is none of ASCII. -/
theorem ne_of_beyond {character : Char} (beyond : 128 ≤ character.toNat) {other : Char}
    (ascii : other.toNat < 128) : character ≠ other :=
  fun same => absurd (same ▸ ascii) (Nat.not_lt.mpr beyond)

theorem le_of_beyond {character : Char} (beyond : 128 ≤ character.toNat) {other : Char}
    (ascii : other.toNat < 128) : ¬character ≤ other :=
  fun le => absurd (Nat.le_trans beyond (UInt32.le_iff_toNat_le.mp le)) (Nat.not_le.mpr ascii)

theorem isDigit_beyond {character : Char} (beyond : 128 ≤ character.toNat) :
    Segment.isDigit character = false := by
  simp [Segment.isDigit, le_of_beyond beyond]

theorem startsName_beyond {character : Char} (beyond : 128 ≤ character.toNat) :
    Segment.startsName character = false := by
  simp [Segment.startsName, le_of_beyond beyond, ne_of_beyond beyond]

theorem shows_isDigit : Shows Segment.isDigit :=
  shows_of_beyond fun _ => isDigit_beyond

theorem shows_continuesName : Shows Segment.continuesName :=
  shows_of_beyond fun _ beyond => by
    rw [Segment.continuesName, startsName_beyond beyond, isDigit_beyond beyond, Bool.false_or]

theorem shows_eq (other : Char) (ascii : other.toNat < 128) :
    Shows fun character => decide (character = other) :=
  shows_of_beyond fun _ beyond => decide_eq_false (ne_of_beyond beyond ascii)

theorem shows_ne {other : Char} (ascii : other.toNat < 128) :
    Shows fun character => character != other :=
  shows_of_beyond fun _ beyond => bne_iff_ne.mpr (ne_of_beyond beyond ascii)

/-! ## Bytes of a text -/

@[simp] theorem encoded_nil : encoded [] = [] := rfl

theorem encoded_cons (character : Char) (rest : List Char) :
    encoded (character :: rest) = String.utf8EncodeChar character ++ encoded rest := rfl

@[simp] theorem encoded_append (front back : List Char) :
    encoded (front ++ back) = encoded front ++ encoded back :=
  List.flatMap_append

@[simp] theorem length_encoded (text : List Char) : (encoded text).length = utf8Len text := by
  induction text with
  | nil => rfl
  | cons character rest ih =>
      rw [encoded_cons, List.length_append, ih, String.length_utf8EncodeChar, utf8Len, Nat.add_comm]

/-- The bytes of the characters of a text are the bytes that the text is kept in. -/
theorem toByteArray_encoded (source : String) :
    (encoded source.toList).toByteArray = source.toUTF8 := by
  conv => rhs; rw [← String.ofList_toList (s := source)]
  rw [String.toUTF8_eq_toByteArray, String.toByteArray_ofList]
  rfl

/-- A character that is no longer ASCII has a first byte that is no longer ASCII. -/
theorem encoded_head (character : Char) (rest : List Char) : ∃ byte behind,
    encoded (character :: rest) = byte :: behind ∧ byte ∈ String.utf8EncodeChar character := by
  cases bytes : String.utf8EncodeChar character with
  | nil => exact absurd bytes String.utf8EncodeChar_ne_nil
  | cons byte others =>
      exact ⟨byte, others ++ encoded rest, by rw [encoded_cons, bytes]; rfl, List.mem_cons_self⟩

/-- The first byte of a text, or zero, shows the same as its first character. -/
theorem headD_encoded {property : Char → Bool} (shows : Shows property) (text : List Char) :
    property (charOf ((encoded text).headD 0)) = property (text.headD '\x00') := by
  cases text with
  | nil => rfl
  | cons character rest =>
      obtain ⟨byte, behind, split, inside⟩ := encoded_head character rest
      rw [split]
      exact shows character byte inside

/-- Characters of ASCII are read off their bytes. -/
theorem map_charOf_encoded {text : List Char}
    (ascii : ∀ character ∈ text, character.toNat < 128) : (encoded text).map charOf = text := by
  induction text with
  | nil => rfl
  | cons character rest ih =>
      have first := ascii character List.mem_cons_self
      rw [encoded_cons, utf8EncodeChar_ascii first, List.map_append, List.map_singleton,
        charOf_ascii first, ih fun other inside => ascii other (List.mem_cons_of_mem _ inside)]
      rfl

section Runs

variable {property : Char → Bool} (shows : Shows property)
include shows

/-- The bytes of characters with a property all show it. -/
theorem all_encoded {text : List Char} (all : ∀ character ∈ text, property character = true) :
    ∀ byte ∈ encoded text, property (charOf byte) = true := by
  intro byte inside
  obtain ⟨character, within, inside⟩ := List.mem_flatMap.mp inside
  rw [shows character byte inside, all character within]

theorem takeWhile_encoded (text : List Char) :
    (encoded text).takeWhile (fun byte => property (charOf byte)) =
      encoded (text.takeWhile property) := by
  have stays : ∀ character ∈ text.takeWhile property, property character = true :=
    fun character within => List.mem_takeWhile_imp within
  have inside := all_encoded shows stays
  have split : encoded text = encoded (text.takeWhile property) ++
      encoded (text.dropWhile property) := by
    rw [← encoded_append, List.takeWhile_append_dropWhile]
  rw [split, List.takeWhile_append_of_pos inside]
  cases rest : text.dropWhile property with
  | nil => simp
  | cons character behind =>
      obtain ⟨byte, others, shape, within⟩ := encoded_head character behind
      have stops : property character = false := by
        have failed := List.head?_dropWhile_not property text
        rw [rest] at failed
        simpa using failed
      have stopped := (shows character byte within).trans stops
      simp [shape, stopped]

end Runs

/-- Line feeds can be counted among the bytes. -/
theorem countP_encoded (text : List Char) :
    (encoded text).countP (fun byte => decide (charOf byte = '\n')) = text.count '\n' := by
  induction text with
  | nil => rfl
  | cons character rest ih =>
      rw [encoded_cons, List.countP_append, ih, List.count_cons, Nat.add_comm]
      congr 1
      by_cases feed : character = '\n'
      · subst feed
        rfl
      · rw [if_neg (by simpa using feed), List.countP_eq_zero]
        intro byte inside
        have shown : decide (charOf byte = '\n') = decide (character = '\n') :=
          shows_eq '\n' (by decide) character byte inside
        rw [shown]
        simpa using feed

/-! ## Places between characters -/

section Places

variable {source : String} {front middle back : List Char}

theorem utf8ByteSize_of_split (split : source.toList = front ++ back) :
    source.utf8ByteSize = utf8Len front + utf8Len back := by
  rw [← String.utf8Len_toList, split, String.utf8Len_append]

/-- The end of a piece in front of a text lies between two characters. -/
theorem isValid_of_split (split : source.toList = front ++ back) :
    String.Pos.Raw.IsValid source ⟨utf8Len front⟩ := by
  rw [String.Pos.Raw.isValid_iff_exists_append]
  refine ⟨String.ofList front, String.ofList back, ?_, by simp⟩
  rw [← String.ofList_append, ← split, String.ofList_toList]

/-- The text between two such places. -/
theorem extract_of_split (split : source.toList = front ++ middle ++ back) :
    (String.Pos.Raw.extract source ⟨utf8Len front⟩ ⟨utf8Len (front ++ middle)⟩).toList =
      middle := by
  have whole : source = String.ofList (front ++ middle ++ back) := by
    rw [← split, String.ofList_toList]
  rw [whole, String.utf8Len_append, String.extract_of_valid, String.toList_ofList]

end Places

end Lox.Bytewise
