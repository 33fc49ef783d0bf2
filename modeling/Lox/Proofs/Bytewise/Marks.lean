import Lox.Proofs.Bytewise.Scanner
import Mathlib.Logic.Basic

/-!
# Marks by their first character

A scanner tells marks by single characters: some stand alone, some may be continued by an
equality sign, and a slash may start a comment. The segment that starts with such a character
is the longest mark that stands there.
-/

namespace Lox.Bytewise

/-- The characters that are marks on their own. -/
def markCharacters : List Char :=
  ['(', ')', '\x7b', '\x7d', ',', '.', '-', '+', ';', '*', '!', '=', '<', '>', '/']

/-- What is checked of each of these characters holds of all of them. -/
theorem forall_mark {property : Char → Prop} [DecidablePred property]
    (checked : markCharacters.all (fun character => decide (property character)) = true) :
    ∀ character ∈ markCharacters, property character :=
  fun character known => of_decide_eq_true (List.all_eq_true.mp checked character known)

theorem ofSpelling?_one (character : Char) : Mark.ofSpelling? [character] =
    ((single? character).or ((double? character).map Prod.snd)).or
      (if character = '/' then some .slash else none) := by
  by_cases known : character ∈ markCharacters
  · revert character
    exact forall_mark (by decide)
  · simp only [markCharacters, List.mem_cons, List.not_mem_nil, or_false, not_or] at known
    simp [Mark.ofSpelling?, single?, double?, Mark.all, Mark.spelling, known, eq_comm]

/-- An equality sign is all that continues a mark. -/
theorem ofSpelling?_two (first second : Char) : Mark.ofSpelling? [first, second] =
    if second = '=' then (double? first).map Prod.fst else none := by
  by_cases same : second = '='
  · subst same
    by_cases known : first ∈ markCharacters
    · revert first
      exact forall_mark (by decide)
    · simp only [markCharacters, List.mem_cons, List.not_mem_nil, or_false, not_or] at known
      simp [Mark.ofSpelling?, double?, Mark.all, Mark.spelling, known, eq_comm]
  · simp [Mark.ofSpelling?, Mark.all, Mark.spelling, same, eq_comm]

/-- Such a character is neither layout nor the start of a literal or a word. -/
theorem apart_of_mark {character : Char} (known : character ∈ markCharacters) :
    Segment.isBlank character = false ∧ character ≠ '"' ∧ Segment.isDigit character = false ∧
      Segment.startsName character = false := by
  have apart : ∀ character ∈ markCharacters, Segment.isBlank character = false ∧
      character ≠ '"' ∧ Segment.isDigit character = false ∧
        Segment.startsName character = false := forall_mark (by decide)
  exact apart character known

theorem single?_none {character : Char} (unknown : character ∉ markCharacters) :
    single? character = none := by
  simp only [markCharacters, List.mem_cons, List.not_mem_nil, or_false, not_or] at unknown
  simp [single?, Mark.spelling, unknown, eq_comm]

theorem double?_none {character : Char} (unknown : character ∉ markCharacters) :
    double? character = none := by
  simp only [markCharacters, List.mem_cons, List.not_mem_nil, or_false, not_or] at unknown
  simp [double?, Mark.spelling, unknown, eq_comm]

section First

variable {character : Char} {mark longer alone : Mark} (rest : List Char)

theorem mark?_eq : Segment.mark? character rest =
    (((if rest.head? = some '=' then (double? character).map Prod.fst else none).or
      (Mark.ofSpelling? [character])).map fun mark => .lexeme (.mark mark) mark.spelling) := by
  unfold Segment.mark?
  cases rest with
  | nil =>
      rw [List.take_nil]
      cases Mark.ofSpelling? [character] <;> rfl
  | cons second behind =>
      have taken : (second :: behind).take 1 = [second] := rfl
      rw [taken, ofSpelling?_two, List.head?_cons]
      by_cases same : second = '='
      · rw [if_pos same, if_pos (congrArg some same)]
        cases double? character <;> rfl
      · rw [if_neg same, if_neg (fun equal => same (Option.some.inj equal))]
        rfl

theorem first_of_mark (known : character ∈ markCharacters) (unslashed : character ≠ '/') :
    Segment.first character rest = (Segment.mark? character rest).getD (.stray character) := by
  obtain ⟨visible, unquoted, noDigit, noLetter⟩ := apart_of_mark known
  simp [Segment.first, visible, unquoted, noDigit, noLetter, unslashed]

theorem first_single (found : single? character = some mark) :
    Segment.first character rest = .lexeme (.mark mark) [character] := by
  have known : character ∈ markCharacters := by
    by_contra unknown
    rw [single?_none unknown] at found
    cases found
  have alone : ∀ character ∈ markCharacters, (single? character).isSome = true →
      double? character = none ∧ character ≠ '/' := forall_mark (by decide)
  obtain ⟨unpaired, unslashed⟩ := alone character known (by rw [found]; rfl)
  have spelled : mark.spelling = [character] := by simpa using List.find?_some found
  rw [first_of_mark rest known unslashed, mark?_eq, ofSpelling?_one, found, unpaired]
  simp [spelled]

theorem first_double (found : double? character = some (longer, alone)) :
    Segment.first character rest =
      if rest.head? = some '=' then .lexeme (.mark longer) [character, '=']
      else .lexeme (.mark alone) [character] := by
  have known : character ∈ markCharacters := by
    by_contra unknown
    rw [double?_none unknown] at found
    cases found
  have pair : ∀ character ∈ markCharacters, ∀ marks ∈ double? character,
      single? character = none ∧ character ≠ '/' ∧ marks.1.spelling = [character, '='] ∧
        marks.2.spelling = [character] := forall_mark (by decide)
  obtain ⟨unsingle, unslashed, both, one⟩ := pair character known _ found
  rw [first_of_mark rest known unslashed, mark?_eq, ofSpelling?_one, found, unsingle]
  split
  · simp [both]
  · simp [one]

theorem first_slash : Segment.first '/' rest =
    if rest.head? = some '/' then .comment (rest.tail.takeWhile Segment.staysOnLine)
    else .lexeme (.mark .slash) ['/'] := by
  by_cases comment : rest.head? = some '/'
  · simp [Segment.first, Segment.isBlank, comment]
  · have mark : Segment.mark? '/' rest = some (.lexeme (.mark .slash) ['/']) := by
      have unpaired : double? '/' = none := rfl
      rw [mark?_eq, ofSpelling?_one, unpaired]
      split <;> rfl
    simp [Segment.first, Segment.isBlank, Segment.isDigit, Segment.startsName, comment, mark]

theorem first_stray (unsingle : single? character = none) (undouble : double? character = none)
    (visible : Segment.isBlank character = false) (unslashed : character ≠ '/')
    (unquoted : character ≠ '"') (noDigit : Segment.isDigit character = false)
    (noLetter : Segment.startsName character = false) :
    Segment.first character rest = .stray character := by
  have none : Segment.mark? character rest = none := by
    rw [mark?_eq, ofSpelling?_one, unsingle, undouble, if_neg unslashed]
    split <;> rfl
  simp [Segment.first, visible, unslashed, unquoted, noDigit, noLetter, none]

end First

end Lox.Bytewise
