import Lox.Proofs.Bytewise.Marks
import Lox.Proofs.Bytewise.Steps

/-!
# Segments byte by byte

A scanner that stands in front of a character passes over exactly the segment that starts
there. Behind it the kind of a lexeme is pending, or the fault of what is none is the result,
and the lines of the segment are counted.
-/

namespace Lox

namespace Segment

/-- The kind of a lexeme. -/
def kind? : Segment → Option Token.Kind
  | .lexeme kind _ => some kind
  | _ => none

/-- What is wrong with a segment that ends on a given line. -/
def fault? (line : Nat) (segment : Segment) : Option Diagnostic :=
  (segment.item? line).bind Item.fault?

end Segment

namespace Bytewise

open Number.Numeral (pointed)
open String (utf8Len)

/-- A scanner that has read a part of a lexeme and stands behind it, on a line, with nothing
pending. -/
structure Stands (source : String) (scanner : Scanner) (line : Nat)
    (passed lexeme behind : List Char) : Prop where
  split : source.toList = passed ++ lexeme ++ behind
  same : scanner.source = source
  start : scanner.start = utf8Len passed
  current : scanner.current = utf8Len (passed ++ lexeme)
  line : scanner.line = line
  pending : scanner.pending = none

/-- A scanner behind a segment. The kind of the segment is pending, and its lines are
counted. -/
structure Behind (source : String) (scanner : Scanner) (line : Nat) (passed : List Char)
    (segment : Segment) : Prop where
  same : scanner.source = source
  start : scanner.start = utf8Len passed
  current : scanner.current = utf8Len (passed ++ segment.text)
  line : scanner.line = line + segment.lineFeeds
  pending : scanner.pending = segment.kind?

variable {source : String} {limit line steps : Nat} {scanner : Scanner}
variable {passed lexeme behind : List Char}

/-- A step that passes over the rest of a segment, with the fault of the segment as its
result. -/
def Settles (source : String) (limit line : Nat) (step : Scanning (Option Diagnostic))
    (scanner : Scanner) (passed : List Char) (segment : Segment) : Prop :=
  ∃ after, Reaches source limit step scanner (segment.fault? (line + segment.lineFeeds)) after ∧
    Behind source after line passed segment

namespace Stands

theorem between (stands : Stands source scanner line passed lexeme behind) :
    Between source scanner (encoded (passed ++ lexeme)) (encoded behind) where
  bytes := by rw [← encoded_append, ← stands.split]
  same := stands.same
  current := by rw [stands.current, length_encoded]
  start := by
    rw [stands.start, length_encoded, String.utf8Len_append]
    exact Nat.le_add_right _ _

/-- Further on by some characters. -/
theorem further (more : List Char) {rest : List Char}
    (stands : Stands source scanner line passed lexeme (more ++ rest)) :
    Stands source (scanner.at (utf8Len (passed ++ lexeme) + utf8Len more)) line passed
      (lexeme ++ more) rest where
  split := by rw [stands.split]; simp
  same := stands.same
  start := stands.start
  current := by
    rw [← List.append_assoc, String.utf8Len_append (passed ++ lexeme)]
    rfl
  line := stands.line
  pending := stands.pending

/-- The rest of a text is not longer than the text. -/
theorem enough (stands : Stands source scanner line passed lexeme behind)
    (enough : source.utf8ByteSize < steps) : (encoded behind).length < steps := by
  rw [length_encoded]
  rw [utf8ByteSize_of_split stands.split] at enough
  omega

end Stands

/-! ## Single steps -/

section Steps

variable (below : source.utf8ByteSize ≤ limit)
include below

/-- A character of ASCII is passed over as one byte. -/
theorem reaches_advance_ascii {character : Char} (ascii : character.toNat < 128)
    (stands : Stands source scanner line passed lexeme (character :: behind)) :
    ∃ after, Reaches source limit advance scanner character.val.toUInt8 after ∧
      Stands source after line passed (lexeme ++ [character]) behind := by
  have between := stands.between
  rw [encoded_cons, utf8EncodeChar_ascii ascii] at between
  refine ⟨_, reaches_advance below between, ?_⟩
  have width : character.utf8Size = 1 := by
    rw [← String.length_utf8EncodeChar, utf8EncodeChar_ascii ascii]
    rfl
  have next := stands.further [character]
  rw [String.utf8Len_cons, width] at next
  rw [length_encoded]
  exact next

/-- A character is passed over if it is the one that is looked for. -/
theorem reaches_takes (expected : Char) (ascii : expected.toNat < 128)
    (stands : Stands source scanner line passed lexeme behind) :
    (behind.head? = some expected → ∃ after,
      Reaches source limit (takes expected) scanner true after ∧
        Stands source after line passed (lexeme ++ [expected]) behind.tail) ∧
    (behind.head? ≠ some expected →
      Reaches source limit (takes expected) scanner false scanner) := by
  constructor
  · intro found
    cases behind with
    | nil => cases found
    | cons character rest =>
        cases found
        have between := stands.between
        rw [encoded_cons, utf8EncodeChar_ascii ascii] at between
        have width : expected.utf8Size = 1 := by
          rw [← String.length_utf8EncodeChar, utf8EncodeChar_ascii ascii]
          rfl
        have next := stands.further [expected]
        rw [String.utf8Len_cons, width] at next
        have took := reaches_takes_of_eq below between (charOf_ascii ascii)
        rw [length_encoded] at took
        exact ⟨_, took, next⟩
  · intro other
    refine reaches_takes_of_ne stands.between fun byte first => ?_
    cases behind with
    | nil => cases first
    | cons character rest =>
        obtain ⟨lead, others, shape, inside⟩ := encoded_head character rest
        rw [shape] at first
        cases first
        have shown : decide (charOf byte = expected) = decide (character = expected) :=
          shows_eq expected ascii character byte inside
        have apart : character ≠ expected := fun same => other (congrArg some same)
        exact of_decide_eq_false (shown.trans (decide_eq_false apart))

/-- A run of characters is passed over. -/
theorem reaches_run {property : Char → Bool} (shows : Shows property)
    (ends : property '\x00' = false) (enough : source.utf8ByteSize < steps)
    (stands : Stands source scanner line passed lexeme behind) :
    ∃ after, Reaches source limit (passWhile property steps) scanner () after ∧
      Stands source after line passed (lexeme ++ behind.takeWhile property)
        (behind.dropWhile property) := by
  have ran := reaches_passWhile below ends stands.between (stands.enough enough)
  rw [takeWhile_encoded shows, length_encoded, length_encoded] at ran
  have split := stands
  rw [← List.takeWhile_append_dropWhile (p := property) (l := behind)] at split
  exact ⟨_, ran, split.further _⟩

end Steps

/-- What is recognised is pending. -/
theorem reaches_recognise (kind : Token.Kind) :
    Reaches source limit (recognise kind) scanner none { scanner with pending := some kind } :=
  (reaches_modify fun _ => rfl).bind (.pure _ none)

/-- One step in front of those that pass over the rest of a segment. -/
theorem Settles.after {α : Type} {step : Scanning α} {next : α → Scanning (Option Diagnostic)}
    {middle : Scanner} {value : α} {segment : Segment}
    (first : Reaches source limit step scanner value middle)
    (settles : Settles source limit line (next value) middle passed segment) :
    Settles source limit line (step >>= next) scanner passed segment := by
  obtain ⟨after, reaches, stands⟩ := settles
  exact ⟨after, first.bind reaches, stands⟩

/-- A lexeme that has been passed over is recognised. Its lines are counted already. -/
theorem settles_recognise {kind : Token.Kind}
    (stands : Stands source scanner (line + lexeme.count '\n') passed lexeme behind) :
    Settles source limit line (recognise kind) scanner passed (.lexeme kind lexeme) :=
  ⟨_, reaches_recognise kind, stands.same, stands.start, stands.current, stands.line, rfl⟩

/-- What has been passed over is no lexeme. -/
theorem settles_nothing (segment : Segment) (text : segment.text = lexeme)
    (unknown : segment.kind? = none)
    (stands : Stands source scanner (line + lexeme.count '\n') passed lexeme behind) :
    Settles source limit line (pure (segment.fault? (line + segment.lineFeeds))) scanner passed
      segment := by
  subst text
  exact ⟨scanner, .pure _ _, stands.same, stands.start, stands.current, stands.line,
    stands.pending.trans unknown.symm⟩

/-- A part of a text without line feeds ends on the line on which it begins. -/
theorem Stands.single (stands : Stands source scanner line passed lexeme behind)
    (none : '\n' ∉ lexeme) :
    Stands source scanner (line + lexeme.count '\n') passed lexeme behind := by
  rw [List.count_eq_zero.mpr none]
  exact stands

/-! ## Comments, strings, numbers and words -/

/-- The first element without a property stands behind those in front that have it. -/
theorem getD_findIdx? {α : Type} {property : α → Bool} (list : List α) :
    (list.findIdx? property).getD list.length =
      (list.takeWhile fun element => !property element).length := by
  induction list with
  | nil => rfl
  | cons first rest ih =>
      rw [List.findIdx?_cons, List.takeWhile_cons]
      cases property first with
      | true => rfl
      | false =>
          simp only [Bool.false_eq_true, if_false, Bool.not_false, if_true, List.length_cons, ← ih]
          cases rest.findIdx? property <;> rfl

/-- A string ends where its first quote is. -/
theorem quoted_eq (rest : List Char) : Segment.quoted rest =
    if rest.dropWhile Segment.staysInString = [] then .openString rest
    else .lexeme (.string (String.ofList (rest.takeWhile Segment.staysInString)))
      ('"' :: rest.takeWhile Segment.staysInString ++ ['"']) := by
  unfold Segment.quoted
  cases rest.dropWhile Segment.staysInString <;> rfl

/-- Where a string ends, there is a quote or the end of the text. -/
theorem quote_of_head (behind : List Char) :
    ∀ character ∈ (behind.dropWhile Segment.staysInString).head?, character = '"' := by
  intro character first
  have failed := List.head?_dropWhile_not Segment.staysInString behind
  rw [Option.mem_def.mp first] at failed
  simpa [Segment.staysInString] using failed

/-- A line feed is none of some characters that all have a property which it has not. -/
theorem single_of_property (property : Char → Bool) (feed : property '\n' = false)
    {text : List Char} (all : ∀ character ∈ text, property character = true) : '\n' ∉ text :=
  fun inside => Bool.false_ne_true (feed.symm.trans (all _ inside))

/-- A line feed is no mark. -/
theorem single_of_mark {character : Char}
    (mark : (single? character).isSome ∨ (double? character).isSome) : '\n' ∉ [character] := by
  rw [List.mem_singleton]
  rintro rfl
  exact absurd mark (by decide)

/-- What a character beyond ASCII is not. -/
theorem apart_of_beyond {character : Char} (beyond : 128 ≤ character.toNat) :
    single? character = none ∧ double? character = none ∧
      Segment.isBlank character = false ∧ character ≠ '/' ∧ character ≠ '"' := by
  have unmarked : character ∉ markCharacters := by
    intro known
    have ascii : ∀ character ∈ markCharacters, character.toNat < 128 := forall_mark (by decide)
    exact absurd beyond (Nat.not_le.mpr (ascii character known))
  refine ⟨single?_none unmarked, double?_none unmarked, ?_, ne_of_beyond beyond (by decide),
    ne_of_beyond beyond (by decide)⟩
  simp [Segment.isBlank, ne_of_beyond beyond]

theorem first_beyond {character : Char} (beyond : 128 ≤ character.toNat) (behind : List Char) :
    Segment.first character behind = .stray character := by
  obtain ⟨unsingle, undouble, visible, unslashed, unquoted⟩ := apart_of_beyond beyond
  exact first_stray behind unsingle undouble visible unslashed unquoted (isDigit_beyond beyond)
    (startsName_beyond beyond)

theorem startingWith_beyond {character : Char} (beyond : 128 ≤ character.toNat) :
    startingWith steps character = stray := by
  obtain ⟨unsingle, undouble, visible, unslashed, unquoted⟩ := apart_of_beyond beyond
  have unblank : ¬(character = ' ' ∨ character = '\r' ∨ character = '\t') ∧ character ≠ '\n' := by
    simp [ne_of_beyond beyond]
  simp [startingWith, unmarked, unsingle, undouble, unblank, unslashed, unquoted,
    isDigit_beyond beyond, startsName_beyond beyond]

section Segments

variable (below : source.utf8ByteSize ≤ limit)
include below

/-- A comment is passed over up to the end of its line. -/
theorem reaches_passLine (stands : Stands source scanner line passed lexeme behind) :
    ∃ after, Reaches source limit passLine scanner () after ∧
      Stands source after line passed (lexeme ++ behind.takeWhile Segment.staysOnLine)
        (behind.dropWhile Segment.staysOnLine) := by
  have bytes : encoded source.toList = encoded (passed ++ lexeme) ++ encoded behind ++ [] := by
    rw [List.append_nil, ← encoded_append, stands.split]
  have shows : Shows fun character => !decide (character = '\n') :=
    fun character byte within => congrArg not (shows_eq '\n' (by decide) _ _ within)
  have same : (fun character => !decide (character = '\n')) = Segment.staysOnLine := by
    funext character
    rw [Segment.staysOnLine, bne, Bool.beq_eq_decide_eq]
  have width : ((encoded behind).findIdx? fun byte => decide (charOf byte = '\n')).getD
      (encoded behind).length = utf8Len (behind.takeWhile Segment.staysOnLine) := by
    rw [getD_findIdx?, takeWhile_encoded shows, same, length_encoded]
  have size : source.utf8ByteSize = utf8Len (passed ++ lexeme) + (encoded behind).length := by
    rw [utf8ByteSize_of_split stands.split, length_encoded]
  have split := stands
  rw [← List.takeWhile_append_dropWhile (p := Segment.staysOnLine) (l := behind)] at split
  refine ⟨_, (reaches_ask fun _ => stands.current).bind ((reaches_ask fun _ => stands.same).bind
    ((reaches_bytesBetween bytes stands.same (length_encoded _).symm ?_).bind ?_)),
    split.further _⟩
  · rw [List.length_append, length_encoded (passed ++ lexeme), size]
  · have inside := utf8ByteSize_of_split (split.further _).split
    have order : scanner.start ≤ utf8Len (passed ++ lexeme) +
        utf8Len (behind.takeWhile Segment.staysOnLine) := by
      rw [stands.start, String.utf8Len_append]
      omega
    simp only [String.utf8Len_append] at inside
    have move : Reaches source limit
        (moveTo (utf8Len (passed ++ lexeme) + utf8Len (behind.takeWhile Segment.staysOnLine)))
        scanner () (scanner.at (utf8Len (passed ++ lexeme) +
          utf8Len (behind.takeWhile Segment.staysOnLine))) :=
      reaches_moveTo order (by rw [String.utf8Len_append]; omega)
    rw [← width] at move ⊢
    cases found : (encoded behind).findIdx? fun byte => decide (charOf byte = '\n') with
    | some place =>
        rw [found] at move
        exact move
    | none =>
        rw [found, Option.getD_none, ← size] at move
        rw [Option.getD_none, ← size]
        exact move

theorem settles_slash (stands : Stands source scanner line passed ['/'] behind) :
    Settles source limit line slash scanner passed (Segment.first '/' behind) := by
  obtain ⟨again, alone⟩ := reaches_takes below '/' (by decide) stands
  rw [first_slash]
  by_cases comment : behind.head? = some '/'
  · obtain ⟨middle, took, inside⟩ := again comment
    obtain ⟨after, ran, ended⟩ := reaches_passLine below inside
    have none : '\n' ∉ behind.tail.takeWhile Segment.staysOnLine :=
      single_of_property Segment.staysOnLine rfl
        fun character within => List.mem_takeWhile_imp within
    rw [if_pos comment]
    refine .after took (.after ran ?_)
    exact settles_nothing (.comment (behind.tail.takeWhile Segment.staysOnLine)) rfl rfl
      (ended.single (by simpa using none))
  · rw [if_neg comment]
    refine .after (alone comment) ?_
    exact settles_recognise (stands.single (by decide))

/-- The characters of a string are passed over, and its lines are counted. -/
theorem reaches_passBody (enough : source.utf8ByteSize < steps)
    (stands : Stands source scanner line passed ['"'] behind) :
    ∃ after, Reaches source limit (passString steps) scanner () after ∧
      Stands source after (line + (behind.takeWhile Segment.staysInString).count '\n') passed
        (['"'] ++ behind.takeWhile Segment.staysInString)
        (behind.dropWhile Segment.staysInString) := by
  have shows : Shows Segment.staysInString := shows_ne (by decide)
  have closing := quote_of_head behind
  have stays : ∀ character ∈ behind.takeWhile Segment.staysInString,
      Segment.staysInString character = true := fun _ within => List.mem_takeWhile_imp within
  have split := List.takeWhile_append_dropWhile (p := Segment.staysInString) (l := behind)
  have all := stands.enough enough
  rw [← split] at stands all
  generalize behind.takeWhile Segment.staysInString = body,
    behind.dropWhile Segment.staysInString = rest at *
  have inside : ∀ byte ∈ encoded body, charOf byte ≠ '"' := by
    intro byte within
    simpa [Segment.staysInString] using all_encoded shows stays byte within
  have ends : ∀ byte ∈ (encoded rest).head?, charOf byte = '"' := by
    intro byte first
    cases rest with
    | nil => cases first
    | cons character others =>
        obtain rfl := closing character rfl
        cases first
        rfl
  have short : (encoded body).length < steps := by
    rw [encoded_append, List.length_append] at all
    omega
  have between := stands.between
  rw [encoded_append body] at between
  have passedString := reaches_passString below between inside ends short
  rw [countP_encoded, length_encoded, length_encoded, stands.line] at passedString
  exact ⟨_, passedString, { stands.further body with line := rfl }⟩

theorem settles_quoted (enough : source.utf8ByteSize < steps)
    (stands : Stands source scanner line passed ['"'] behind) :
    Settles source limit line (quoted steps) scanner passed (Segment.quoted behind) := by
  obtain ⟨middle, ran, moved⟩ := reaches_passBody below enough stands
  have closing := quote_of_head behind
  have split := List.takeWhile_append_dropWhile (p := Segment.staysInString) (l := behind)
  rw [quoted_eq]
  refine .after ran (.after (reaches_isAtEnd moved.between) ?_)
  generalize behind.takeWhile Segment.staysInString = body,
    behind.dropWhile Segment.staysInString = rest at *
  cases rest with
  | nil =>
      have whole : behind = body := by rw [← split, List.append_nil]
      rw [if_pos (show decide (encoded [] = []) = true from rfl), if_pos rfl]
      refine .after (reaches_ask fun _ => moved.line) ?_
      have text : (Segment.openString behind).text = ['"'] ++ body := congrArg ('"' :: ·) whole
      have lines : (Segment.openString behind).lineFeeds = body.count '\n' := by
        rw [Segment.lineFeeds, text]
        simp
      rw [← lines] at moved ⊢
      exact settles_nothing (.openString behind) text rfl
        (by simpa [Segment.lineFeeds, text] using moved)
  | cons quote others =>
      obtain rfl := closing quote rfl
      obtain ⟨after, advanced, closed⟩ := reaches_advance_ascii below (by decide) moved
      have cut : source.toList = (passed ++ ['"']) ++ body ++ ('"' :: others) := by
        rw [stands.split, ← split]
        simp
      have begins : utf8Len passed + 1 = utf8Len (passed ++ ['"']) := by
        rw [String.utf8Len_append]
        rfl
      have ends : utf8Len (passed ++ (['"'] ++ body ++ ['"'])) - 1 =
          utf8Len (passed ++ ['"'] ++ body) := by
        have shape : passed ++ (['"'] ++ body ++ ['"']) = (passed ++ ['"'] ++ body) ++ ['"'] := by
          simp
        rw [shape, String.utf8Len_append _ ['"']]
        rfl
      have left : ¬decide (encoded ('"' :: others) = []) = true := by
        simp [encoded_cons, utf8EncodeChar_ascii]
      rw [if_neg left, if_neg (List.cons_ne_nil _ _)]
      refine .after advanced (.after (reaches_ask fun _ => closed.start)
        (.after (reaches_ask fun _ => closed.current)
          (.after (reaches_textBetween cut closed.same begins ends) ?_)))
      exact settles_recognise (by simpa using closed)

/-- A point with a digit behind it is passed over together with all its digits. -/
theorem reaches_passFraction (enough : source.utf8ByteSize < steps)
    (stands : Stands source scanner line passed lexeme behind) :
    ∃ after rest, Reaches source limit (passFraction steps) scanner () after ∧
      Stands source after line passed (lexeme ++ pointed (Segment.fraction behind)) rest := by
  have looked : Reaches source limit peek scanner ((encoded behind).headD 0) scanner :=
    reaches_peek stands.between
  have pointAt : decide (charOf ((encoded behind).headD 0) = '.') =
      decide (behind.headD '\x00' = '.') := headD_encoded (shows_eq '.' (by decide)) behind
  by_cases point : behind.headD '\x00' = '.'
  · cases behind with
    | nil => exact absurd point (by decide)
    | cons mark rest =>
        obtain rfl : mark = '.' := point
        have found : charOf ((encoded ('.' :: rest)).headD 0) = '.' := rfl
        have ahead : (encoded ('.' :: rest)).tail = encoded rest := rfl
        have lookedOn : Reaches source limit peekNext scanner ((encoded rest).headD 0) scanner :=
          reaches_peekNext stands.between
        have digitAt := headD_encoded shows_isDigit rest
        by_cases digit : Segment.isDigit (rest.headD '\x00') = true
        · obtain ⟨middle, advanced, inside⟩ := reaches_advance_ascii below (by decide) stands
          obtain ⟨after, ran, ended⟩ := reaches_run below shows_isDigit rfl enough inside
          have places : pointed (Segment.fraction ('.' :: rest)) =
              '.' :: rest.takeWhile Segment.isDigit := by
            cases rest with
            | nil => exact absurd digit (by decide)
            | cons first others =>
                change Segment.isDigit first = true at digit
                simp [Segment.fraction, pointed, digit]
          refine ⟨after, _, looked.bind ?_, by simpa [places] using ended⟩
          rw [if_pos found]
          refine lookedOn.bind ?_
          rw [if_pos (digitAt.trans digit)]
          exact advanced.bind ran
        · have places : Segment.fraction ('.' :: rest) = [] := by
            cases rest with
            | nil => rfl
            | cons first others => exact if_neg digit
          refine ⟨scanner, _, looked.bind ?_, by simpa [places, pointed] using stands⟩
          rw [if_pos found]
          refine lookedOn.bind ?_
          rw [if_neg (by rw [digitAt]; exact digit)]
          exact .pure scanner ()
  · have places : Segment.fraction behind = [] := by
      unfold Segment.fraction
      split
      · exact absurd rfl point
      · rfl
    refine ⟨scanner, _, looked.bind ?_, by simpa [places, pointed] using stands⟩
    rw [if_neg (of_decide_eq_false (pointAt.trans (decide_eq_false point)))]
    exact .pure scanner ()

theorem settles_number (enough : source.utf8ByteSize < steps) {digit : Char}
    (isDigit : Segment.isDigit digit = true)
    (stands : Stands source scanner line passed [digit] behind) :
    Settles source limit line (number steps) scanner passed (Segment.number digit behind) := by
  obtain ⟨middle, ran, whole⟩ := reaches_run below shows_isDigit rfl enough stands
  obtain ⟨after, rest, ranOn, ended⟩ := reaches_passFraction below enough whole
  have digits : ∀ character ∈ digit :: behind.takeWhile Segment.isDigit,
      Segment.isDigit character = true := by
    intro character inside
    rcases List.mem_cons.mp inside with rfl | inside
    · exact isDigit
    · exact List.mem_takeWhile_imp inside
  have written := Number.Numeral.value_literal (List.cons_ne_nil _ _) digits
    (Number.Numeral.fraction_digits (behind.dropWhile Segment.isDigit))
  have none : '\n' ∉ digit :: behind.takeWhile Segment.isDigit ++
      pointed (Segment.fraction (behind.dropWhile Segment.isDigit)) := by
    have unbroken := single_of_property Segment.isDigit rfl
      (Number.Numeral.fraction_digits (behind.dropWhile Segment.isDigit))
    refine List.not_mem_append (single_of_property Segment.isDigit rfl digits) ?_
    unfold pointed
    split
    · exact List.not_mem_nil
    · simpa using unbroken
  refine .after ran (.after ranOn (.after (reaches_ask fun _ => ended.start)
    (.after (reaches_ask fun _ => ended.current)
      (.after (reaches_textBetween ended.split ended.same rfl rfl) ?_))))
  rw [Number.Numeral.number_eq]
  simp only [List.cons_append, List.nil_append] at ended written none ⊢
  rw [written, Option.getD_some]
  exact settles_recognise (ended.single none)

theorem settles_word (enough : source.utf8ByteSize < steps) {letter : Char}
    (isLetter : Segment.startsName letter = true)
    (stands : Stands source scanner line passed [letter] behind) :
    Settles source limit line (word steps) scanner passed (Segment.word letter behind) := by
  obtain ⟨after, ran, ended⟩ := reaches_run below shows_continuesName rfl enough stands
  have continues : ∀ character ∈ letter :: behind.takeWhile Segment.continuesName,
      Segment.continuesName character = true := by
    intro character inside
    rcases List.mem_cons.mp inside with rfl | inside
    · rw [Segment.continuesName, isLetter, Bool.true_or]
    · exact List.mem_takeWhile_imp inside
  have ascii : ∀ character ∈ letter :: behind.takeWhile Segment.continuesName,
      character.toNat < 128 := by
    intro character inside
    by_contra beyond
    have wide := Nat.le_of_not_lt beyond
    have continued := continues character inside
    rw [Segment.continuesName, startsName_beyond wide, isDigit_beyond wide] at continued
    exact Bool.false_ne_true continued
  have bytes : encoded source.toList = encoded passed ++
      encoded (letter :: behind.takeWhile Segment.continuesName) ++
        encoded (behind.dropWhile Segment.continuesName) := by
    rw [ended.split, encoded_append, encoded_append]
    rfl
  have spelled : (encoded (letter :: behind.takeWhile Segment.continuesName)).map charOf =
      letter :: behind.takeWhile Segment.continuesName :=
    map_charOf_encoded ascii
  have unbroken := single_of_property Segment.continuesName rfl continues
  refine .after ran (.after (reaches_ask fun _ => ended.start)
    (.after (reaches_ask fun _ => ended.current)
      (.after (reaches_bytesBetween bytes ended.same ?_ ?_) ?_)))
  · rw [length_encoded]
  · rw [← encoded_append, length_encoded]
    rfl
  · rw [spelled, Segment.word]
    cases Keyword.ofSpelling? (letter :: behind.takeWhile Segment.continuesName) with
    | none => exact settles_recognise (ended.single unbroken)
    | some keyword => exact settles_recognise (ended.single unbroken)

/-- A character that starts no lexeme is passed over as a whole, whatever part of it has been
read. -/
theorem settles_stray {character : Char} (split : source.toList = passed ++ character :: behind)
    (same : scanner.source = source) (start : scanner.start = utf8Len passed)
    (onLine : scanner.line = line) (pending : scanner.pending = none) (apart : character ≠ '\n') :
    Settles source limit line stray scanner passed (.stray character) := by
  have cut : source.toList = passed ++ (character :: behind) ++ [] := by
    rw [List.append_nil, split]
  have size : source.utf8ByteSize = utf8Len (passed ++ character :: behind) := by
    rw [← split, String.utf8Len_toList]
  have inside : utf8Len passed + character.utf8Size ≤ limit := by
    rw [size, String.utf8Len_append, String.utf8Len_cons] at below
    omega
  have none : '\n' ∉ [character] := by simpa using apart.symm
  have moved : Stands source (scanner.at (utf8Len passed + character.utf8Size)) line passed
      [character] behind := by
    refine ⟨by simp [split], same, start, ?_, onLine, pending⟩
    rw [String.utf8Len_append, String.utf8Len_cons, String.utf8Len_nil, Nat.zero_add]
    rfl
  have first : ((character :: behind).head?.getD '\uFFFD').utf8Size = character.utf8Size := rfl
  have begins : scanner.start ≤ utf8Len passed + character.utf8Size := by
    rw [start]
    exact Nat.le_add_right _ _
  refine .after (reaches_ask fun _ => start) (.after (reaches_ask fun _ => same)
    (.after (reaches_textBetween cut same rfl size) ?_))
  refine .after (reaches_moveTo begins inside) (.after (reaches_ask fun _ => moved.line) ?_)
  have unbroken : (Segment.stray character).lineFeeds = 0 := List.count_eq_zero.mpr none
  have settles : Settles source limit line
      (pure ((Segment.stray character).fault? (line + (Segment.stray character).lineFeeds)))
      (scanner.at (utf8Len passed + character.utf8Size)) passed (.stray character) :=
    settles_nothing (.stray character) rfl rfl (moved.single none)
  rw [unbroken] at settles
  exact settles

/-- What starts with a character of ASCII that is no mark is told by the character. -/
theorem settles_unmarked (enough : source.utf8ByteSize < steps) {character : Char}
    (unsingle : single? character = none) (undouble : double? character = none)
    (stands : Stands source scanner line passed [character] behind) :
    Settles source limit line (unmarked steps character) scanner passed
      (Segment.first character behind) := by
  unfold unmarked
  by_cases layout : character = ' ' ∨ character = '\r' ∨ character = '\t'
  · have blank : Segment.first character behind = .blank character ∧ '\n' ∉ [character] := by
      rcases layout with rfl | rfl | rfl <;> exact ⟨rfl, by decide⟩
    rw [if_pos layout, blank.1]
    exact settles_nothing (.blank character) rfl rfl (stands.single blank.2)
  rw [if_neg layout]
  by_cases feed : character = '\n'
  · subst feed
    rw [if_pos rfl]
    refine .after (reaches_modify fun _ => rfl) ?_
    exact settles_nothing (.blank '\n') rfl rfl
      { stands with line := congrArg (· + 1) stands.line }
  rw [if_neg feed]
  by_cases slashed : character = '/'
  · subst slashed
    rw [if_pos rfl]
    exact settles_slash below stands
  rw [if_neg slashed]
  by_cases quote : character = '"'
  · subst quote
    rw [if_pos rfl]
    exact settles_quoted below enough stands
  rw [if_neg quote]
  have visible : Segment.isBlank character = false := by
    simp only [not_or] at layout
    simp [Segment.isBlank, layout, feed]
  by_cases digit : Segment.isDigit character = true
  · have first : Segment.first character behind = Segment.number character behind := by
      simp [Segment.first, visible, slashed, quote, digit]
    rw [if_pos digit, first]
    exact settles_number below enough digit stands
  rw [if_neg digit]
  by_cases letter : Segment.startsName character = true
  · have first : Segment.first character behind = Segment.word character behind := by
      simp [Segment.first, visible, slashed, quote, digit, letter]
    rw [if_pos letter, first]
    exact settles_word below enough letter stands
  rw [if_neg letter, first_stray behind unsingle undouble visible slashed quote
    (Bool.eq_false_of_not_eq_true digit) (Bool.eq_false_of_not_eq_true letter)]
  exact settles_stray below (by simpa using stands.split) stands.same stands.start stands.line
    stands.pending feed

theorem settles_startingWith (enough : source.utf8ByteSize < steps) {character : Char}
    (stands : Stands source scanner line passed [character] behind) :
    Settles source limit line (startingWith steps character) scanner passed
      (Segment.first character behind) := by
  unfold startingWith
  split
  · next mark single =>
      rw [first_single behind single]
      exact settles_recognise (stands.single (single_of_mark (.inl (by simp [single]))))
  · next longer alone single double =>
      have unbroken : '\n' ∉ [character] := single_of_mark (.inr (by simp [double]))
      obtain ⟨both, one⟩ := reaches_takes below '=' (by decide) stands
      rw [first_double behind double]
      by_cases continued : behind.head? = some '='
      · obtain ⟨middle, took, ended⟩ := both continued
        rw [if_pos continued]
        refine .after took ?_
        exact settles_recognise (ended.single (by simpa using unbroken))
      · rw [if_neg continued]
        refine .after (one continued) ?_
        exact settles_recognise (stands.single unbroken)
  · next single double => exact settles_unmarked below enough single double stands

/-- What a scanner passes over is the first segment of the text that it stands in front of. -/
theorem settles_scanToken (enough : source.utf8ByteSize < steps) {character : Char}
    (stands : Stands source scanner line passed [] (character :: behind)) :
    Settles source limit line (scanToken steps) scanner passed
      (Segment.first character behind) := by
  by_cases ascii : character.toNat < 128
  · obtain ⟨after, advanced, inside⟩ := reaches_advance_ascii below ascii stands
    refine .after advanced ?_
    rw [charOf_ascii ascii]
    exact settles_startingWith below enough inside
  · have beyond : 128 ≤ character.toNat := Nat.le_of_not_lt ascii
    obtain ⟨byte, others, shape, within⟩ := encoded_head character behind
    have between := stands.between
    rw [shape] at between
    -- Whichever byte of it comes first, it is none of ASCII.
    have high : 128 ≤ (charOf byte).toNat := by
      rw [toNat_charOf]
      exact byte_beyond beyond within
    rw [first_beyond beyond]
    refine .after (reaches_advance below between) ?_
    rw [startingWith_beyond high]
    exact settles_stray below (by simpa using stands.split) stands.same stands.start stands.line
      stands.pending (ne_of_beyond beyond (by decide))

end Segments

end Bytewise

end Lox
