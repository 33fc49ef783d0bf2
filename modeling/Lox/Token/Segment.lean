import Lox.Number.Literal
import Lox.Token.Basic

/-!
# Segments of source text

Source text is cut into segments: blanks, comments, lexemes, and the two kinds
of stretch that no token covers. Nothing is dropped, so the segments of a text
written one after another are the text again (`text_ofText`).

Each segment is the longest one that can stand at its place. A comment wins over
the division operator because it is longer.
-/

namespace Lox

/-- One stretch of source text. -/
inductive Segment where
  /-- A single character of layout. -/
  | blank (character : Char)
  /-- Two slashes and the rest of their line. -/
  | comment (body : List Char)
  /-- The text of a token. -/
  | lexeme (kind : Token.Kind) (text : List Char)
  /-- A character that starts no token. -/
  | stray (character : Char)
  /-- A quote that is never closed, with everything after it. -/
  | openString (body : List Char)
  deriving Inhabited

namespace Segment

/-- Characters of layout. -/
def isBlank (character : Char) : Bool :=
  character == ' ' || character == '\t' || character == '\r' || character == '\n'

/-- Decimal digits. -/
def isDigit (character : Char) : Bool :=
  '0' ≤ character && character ≤ '9'

/-- Characters that may start an identifier. Only ASCII letters count. -/
def startsName (character : Char) : Bool :=
  ('a' ≤ character && character ≤ 'z') || ('A' ≤ character && character ≤ 'Z') ||
    character == '_'

/-- Characters that may continue an identifier. -/
def continuesName (character : Char) : Bool :=
  startsName character || isDigit character

/-- Characters of a comment, which ends before the end of its line. -/
def staysOnLine (character : Char) : Bool :=
  character != '\n'

/-- Characters inside a string. There are no escapes. -/
def staysInString (character : Char) : Bool :=
  character != '"'

/-- The source text of a segment. -/
def text : Segment → List Char
  | .blank character => [character]
  | .comment body => '/' :: '/' :: body
  | .lexeme _ text => text
  | .stray character => [character]
  | .openString body => '"' :: body

/-- The fraction of a number: a point counts only when a digit follows it. -/
def fraction : List Char → List Char
  | '.' :: digit :: rest =>
      if isDigit digit then digit :: rest.takeWhile isDigit else []
  | _ => []

/-- The number that starts with a digit. -/
def number (digit : Char) (rest : List Char) : Segment :=
  let whole := digit :: rest.takeWhile isDigit
  match fraction (rest.dropWhile isDigit) with
  | [] => .lexeme (.number (Number.ofDecimal whole [])) whole
  | places => .lexeme (.number (Number.ofDecimal whole places)) (whole ++ '.' :: places)

/-- The word that starts with a letter or an underscore: a keyword if its whole
spelling is one, else an identifier. -/
def word (letter : Char) (rest : List Char) : Segment :=
  let spelling := letter :: rest.takeWhile continuesName
  match Keyword.ofSpelling? spelling with
  | some keyword => .lexeme (.keyword keyword) spelling
  | none => .lexeme .identifier spelling

/-- The string that starts with a quote, or the open string where the quote is
never closed. -/
def quoted (rest : List Char) : Segment :=
  let body := rest.takeWhile staysInString
  match rest.dropWhile staysInString with
  | [] => .openString rest
  | _ :: _ => .lexeme (.string (String.ofList body)) ('"' :: body ++ ['"'])

/-- The mark that starts with a character, trying two characters before one. -/
def mark? (character : Char) (rest : List Char) : Option Segment :=
  match Mark.ofSpelling? (character :: rest.take 1) with
  | some mark => some (.lexeme (.mark mark) mark.spelling)
  | none =>
      (Mark.ofSpelling? [character]).map fun mark => .lexeme (.mark mark) mark.spelling

/-- The first segment of a text that starts with a given character. -/
def first (character : Char) (rest : List Char) : Segment :=
  if isBlank character then .blank character
  else if character = '/' ∧ rest.head? = some '/' then
    .comment (rest.tail.takeWhile staysOnLine)
  else if character = '"' then quoted rest
  else if isDigit character then number character rest
  else if startsName character then word character rest
  else (mark? character rest).getD (.stray character)

/-- The segments of a text after the characters that still belong to the segment
before it. -/
def segmentsAfter : Nat → List Char → List Segment
  | _, [] => []
  | skip + 1, _ :: rest => segmentsAfter skip rest
  | 0, character :: rest =>
      let segment := first character rest
      segment :: segmentsAfter (segment.text.length - 1) rest

/-- The segments of a text, in order. -/
def ofText (text : List Char) : List Segment :=
  segmentsAfter 0 text

/-! ### Segments tile the text -/

/-- The number that starts a text is a prefix of it. -/
theorem number_isPrefix (digit : Char) (rest : List Char) :
    (number digit rest).text <+: digit :: rest := by
  unfold number
  generalize h : fraction (rest.dropWhile isDigit) = places
  cases places with
  | nil => simpa [text] using List.takeWhile_prefix isDigit
  | cons place places =>
      have shape : '.' :: place :: places <+: rest.dropWhile isDigit := by
        unfold fraction at h
        split at h
        · next second tail equal =>
            split at h
            · injection h with hd tl
              subst hd tl
              rw [equal]
              exact List.prefix_cons_inj _ |>.2 (List.prefix_cons_inj _ |>.2
                (List.takeWhile_prefix isDigit))
            · simp at h
        · simp at h
      obtain ⟨after, equal⟩ := shape
      refine ⟨after, ?_⟩
      simp only [text, List.cons_append, List.append_assoc, List.cons.injEq, true_and]
      have joined : rest.takeWhile isDigit ++ '.' :: place :: (places ++ after) = rest := by
        conv => rhs; rw [← List.takeWhile_append_dropWhile (p := isDigit) (l := rest)]
        rw [← equal]
        simp
      simpa using joined

/-- The string that starts a text is a prefix of it. -/
theorem quoted_isPrefix (rest : List Char) : (quoted rest).text <+: '"' :: rest := by
  unfold quoted
  generalize h : rest.dropWhile staysInString = after
  cases after with
  | nil => simp [text]
  | cons closing after =>
      have isQuote : closing = '"' := by
        have failed := List.head?_dropWhile_not staysInString rest
        simpa [h, staysInString] using failed
      subst isQuote
      refine ⟨after, ?_⟩
      have joined := List.takeWhile_append_dropWhile (p := staysInString) (l := rest)
      rw [h] at joined
      simp only [text, List.cons_append, List.append_assoc, List.nil_append, List.cons.injEq,
        true_and]
      exact joined

/-- The mark that starts a text is a prefix of it. -/
theorem mark?_isPrefix {character : Char} {rest : List Char} {segment : Segment}
    (found : mark? character rest = some segment) :
    segment.text <+: character :: rest ∧ segment.text ≠ [] := by
  unfold mark? at found
  split at found
  · next mark spelled =>
      injection found with found
      subst found
      rw [text, Mark.spelling_of_ofSpelling? spelled]
      exact ⟨List.prefix_cons_inj _ |>.2 (List.take_prefix 1 rest), by simp⟩
  · obtain ⟨mark, spelled, rfl⟩ := Option.map_eq_some_iff.1 found
    rw [text, Mark.spelling_of_ofSpelling? spelled]
    exact ⟨⟨rest, rfl⟩, by simp⟩

/-- The first segment of a text is a prefix of it that is not empty. -/
theorem first_isPrefix (character : Char) (rest : List Char) :
    (first character rest).text <+: character :: rest ∧ (first character rest).text ≠ [] := by
  unfold first
  split
  · exact ⟨⟨rest, rfl⟩, by simp [text]⟩
  split
  · next slashes =>
      obtain ⟨rfl, second⟩ := slashes
      cases rest with
      | nil => simp at second
      | cons head tail =>
          simp only [List.head?_cons, Option.some.injEq] at second
          subst second
          refine ⟨?_, by simp [text]⟩
          exact List.prefix_cons_inj _ |>.2 (List.prefix_cons_inj _ |>.2
            (List.takeWhile_prefix staysOnLine))
  split
  · next isQuote =>
      subst isQuote
      refine ⟨quoted_isPrefix rest, ?_⟩
      unfold quoted
      split <;> simp [text]
  split
  · refine ⟨number_isPrefix character rest, ?_⟩
    unfold number
    split <;> simp [text]
  split
  · unfold word
    have spelled : character :: rest.takeWhile continuesName <+: character :: rest :=
      List.prefix_cons_inj _ |>.2 (List.takeWhile_prefix continuesName)
    dsimp only
    split <;> exact ⟨spelled, by simp [text]⟩
  · cases found : mark? character rest with
    | none => exact ⟨⟨rest, rfl⟩, by simp [text]⟩
    | some segment => exact mark?_isPrefix found

theorem flatMap_text_segmentsAfter (skip : Nat) (source : List Char) :
    (segmentsAfter skip source).flatMap text = source.drop skip := by
  induction source generalizing skip with
  | nil => cases skip <;> rfl
  | cons character rest ih =>
      cases skip with
      | succ skip => simpa [segmentsAfter] using ih skip
      | zero =>
          obtain ⟨⟨after, equal⟩, nonempty⟩ := first_isPrefix character rest
          simp only [segmentsAfter, List.flatMap_cons, ih, List.drop_zero]
          cases shape : (first character rest).text with
          | nil => exact absurd shape nonempty
          | cons head tail =>
              rw [shape] at equal
              simp only [List.cons_append, List.cons.injEq] at equal
              simp [← equal.1, ← equal.2]

/-- Characters that belong to an earlier segment are skipped. -/
theorem segmentsAfter_eq (skip : Nat) (source : List Char) :
    segmentsAfter skip source = ofText (source.drop skip) := by
  induction source generalizing skip with
  | nil => cases skip <;> rfl
  | cons character rest ih =>
      cases skip with
      | zero => rfl
      | succ skip => exact ih skip

/-- A text is cut into its first segment and those of what is behind it. -/
theorem ofText_cons {character : Char} {rest behind : List Char}
    (split : character :: rest = (first character rest).text ++ behind) :
    ofText (character :: rest) = first character rest :: ofText behind := by
  have positive := List.length_pos_iff.mpr (first_isPrefix character rest).2
  have remainder : rest.drop ((first character rest).text.length - 1) = behind := by
    have dropped := congrArg (List.drop (first character rest).text.length) split
    rw [List.drop_left] at dropped
    rw [← dropped, ← List.drop_succ_cons (a := character), Nat.sub_add_cancel positive]
  change first character rest :: segmentsAfter ((first character rest).text.length - 1) rest = _
  rw [segmentsAfter_eq, remainder]

/-- The segments of a text written one after another are the text. -/
theorem text_ofText (source : List Char) : (ofText source).flatMap text = source := by
  simpa [ofText] using flatMap_text_segmentsAfter 0 source

end Segment

end Lox
