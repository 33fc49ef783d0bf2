import Lox.Token.Stream
import Mathlib.Data.List.TakeWhile

/-!
# Longest matches

The lexemes are described by what they look like, and a text is cut rightly if at
each place stands the longest lexeme that it starts with there, unless it starts
with layout or a comment. Only one way to cut a text is right, and that is how texts
are read, item by item.
-/

namespace Lox

/-! ## Lexemes -/

/-- The texts that are tokens, with their kinds. A word that spells a keyword is that
keyword, and a string stands for what is between its quotes. -/
inductive IsLexeme : List Char → Token.Kind → Prop where
  | mark (mark : Mark) : IsLexeme mark.spelling (.mark mark)
  | whole {digits : List Char} (nonempty : digits ≠ [])
      (decimal : ∀ character ∈ digits, character.isDigit = true) :
      IsLexeme digits (.number (Number.ofDecimal digits []))
  | fraction {digits places : List Char} (nonempty : digits ≠ [])
      (decimal : ∀ character ∈ digits, character.isDigit = true) (some : places ≠ [])
      (decimals : ∀ character ∈ places, character.isDigit = true) :
      IsLexeme (digits ++ '.' :: places) (.number (Number.ofDecimal digits places))
  | string {body : List Char} (closed : '"' ∉ body) :
      IsLexeme ('"' :: body ++ ['"']) (.string (String.ofList body))
  | keyword (keyword : Keyword) : IsLexeme keyword.spelling (.keyword keyword)
  | identifier {letter : Char} {rest : List Char} (starts : letter.isAlpha = true ∨ letter = '_')
      (continues : ∀ character ∈ rest, character.isAlphanum = true ∨ character = '_')
      (free : ∀ keyword : Keyword, keyword.spelling ≠ letter :: rest) :
      IsLexeme (letter :: rest) .identifier

/-- The longest lexeme that a text starts with. -/
structure IsLongest (source text : List Char) (kind : Token.Kind) : Prop where
  lexeme : IsLexeme text kind
  isPrefix : text <+: source
  longest : ∀ other otherKind, IsLexeme other otherKind → other <+: source →
    other.length ≤ text.length

/-- Characters of layout. -/
def layout : List Char :=
  [' ', '\t', '\r', '\n']

/-- A text starts with a segment. A comment goes up to the end of its line, and an
open string up to the end of the text. -/
inductive Segment.Stands : List Char → Segment → Prop where
  | blank {character : Char} {rest : List Char} (blank : character ∈ layout) :
      Stands (character :: rest) (.blank character)
  | comment {body rest : List Char} (inLine : '\n' ∉ body)
      (ends : rest = [] ∨ rest.head? = some '\n') :
      Stands ('/' :: '/' :: body ++ rest) (.comment body)
  | lexeme {source text : List Char} {kind : Token.Kind} (plain : ¬ ['/', '/'] <+: source)
      (longest : IsLongest source text kind) : Stands source (.lexeme kind text)
  | stray {character : Char} {rest : List Char} (visible : character ∉ layout)
      (startless : ∀ text kind, IsLexeme text kind → text.head? ≠ some character) :
      Stands (character :: rest) (.stray character)
  | openString {body : List Char} (unclosed : '"' ∉ body) : Stands ('"' :: body) (.openString body)

/-- A text is cut into segments. -/
inductive Segment.Tile : List Char → List Segment → Prop where
  | done : Tile [] []
  | next {after : List Char} {segment : Segment} {rest : List Segment}
      (stands : Stands (segment.text ++ after) segment) (behind : Tile after rest) :
      Tile (segment.text ++ after) (segment :: rest)

/-! ## Characters -/

namespace Segment

theorem isDigit_eq : isDigit = Char.isDigit := by
  funext character
  simp [isDigit, Char.isDigit, Char.le_def]

theorem isAlpha_eq (character : Char) : character.isAlpha =
    (decide ('A' ≤ character ∧ character ≤ 'Z') || ('a' ≤ character && character ≤ 'z')) :=
  rfl

theorem startsName_iff (character : Char) :
    startsName character = true ↔ character.isAlpha = true ∨ character = '_' := by
  simp [startsName, isAlpha_eq, or_comm]

theorem continuesName_iff (character : Char) :
    continuesName character = true ↔ character.isAlphanum = true ∨ character = '_' := by
  rw [continuesName, Bool.or_eq_true, startsName_iff, isDigit_eq, Char.isAlphanum, Bool.or_eq_true,
    or_right_comm]

theorem isBlank_iff (character : Char) : isBlank character = true ↔ character ∈ layout := by
  simp [isBlank, layout, or_assoc]

end Segment

/-! ## Runs of characters -/

/-- Characters that all stay are among those up to the first one that does not. -/
theorem prefix_takeWhile {stays : Char → Bool} {front source : List Char}
    (all : ∀ character ∈ front, stays character = true) (isPrefix : front <+: source) :
    front <+: source.takeWhile stays := by
  obtain ⟨back, rfl⟩ := isPrefix
  rw [List.takeWhile_append_of_pos all]
  exact List.prefix_append _ _

/-- The first character that does not stay ends those that do. -/
theorem split_takeWhile {stays : Char → Bool} {front back source : List Char} {stop : Char}
    (all : ∀ character ∈ front, stays character = true) (stops : stays stop = false)
    (isPrefix : front ++ stop :: back <+: source) :
    source.takeWhile stays = front ∧ stop :: back <+: source.dropWhile stays := by
  obtain ⟨rest, rfl⟩ := isPrefix
  rw [List.append_assoc, List.takeWhile_append_of_pos all, List.dropWhile_append_of_pos all]
  simp [stops]

/-! ## What lexemes start with -/

/-- No mark starts like another kind of lexeme, and the first character of a mark is a
mark as well. -/
theorem Mark.starts (mark : Mark) : ∃ character rest, mark.spelling = character :: rest ∧
    character.isAlphanum = false ∧ character ≠ '_' ∧ character ≠ '"' ∧ character ∉ layout ∧
    rest.length ≤ 1 ∧ (Mark.ofSpelling? [character]).isSome = true := by
  cases mark <;>
    exact ⟨_, _, rfl, by decide, by decide, by decide, by decide, by decide, by decide⟩

/-- Keywords are spelled with letters. -/
theorem Keyword.starts (keyword : Keyword) : ∃ letter rest, keyword.spelling = letter :: rest ∧
    letter.isAlpha = Bool.true ∧ ∀ character ∈ rest, character.isAlpha = Bool.true := by
  cases keyword <;> exact ⟨_, _, rfl, by decide, List.all_eq_true.1 (by decide)⟩

/-- Whether a lexeme of some kind can start with a character. -/
def Token.Kind.MayStart (character : Char) : Token.Kind → Prop
  | .number _ => character.isDigit = true
  | .identifier | .keyword _ => character.isAlpha = true ∨ character = '_'
  | .string _ => character = '"'
  | .mark _ => character.isAlphanum = false ∧ character ≠ '_' ∧ character ≠ '"'
  | .stop => False

theorem isAlphanum_of_isAlpha {character : Char} (letter : character.isAlpha = true) :
    character.isAlphanum = true := by
  simp [Char.isAlphanum, letter]

/-- No digit is a letter, an underscore or a quote. -/
theorem apart_of_isDigit {character : Char} (digit : character.isDigit = true) :
    character.isAlpha = false ∧ character ≠ '_' ∧ character ≠ '"' ∧
      character.isAlphanum = true := by
  refine ⟨?_, ?_, ?_, by simp [Char.isAlphanum, digit]⟩
  · rw [Bool.eq_false_iff]
    intro letter
    simp only [Char.isDigit, Segment.isAlpha_eq, Char.le_def, Bool.and_eq_true, Bool.or_eq_true,
      decide_eq_true_eq, UInt32.le_iff_toNat_le, ge_iff_le] at digit letter
    have nine : '9'.val.toNat = 57 := rfl
    have upper : 'A'.val.toNat = 65 := rfl
    have lower : 'a'.val.toNat = 97 := rfl
    omega
  · rintro rfl
    cases digit
  · rintro rfl
    cases digit

namespace IsLexeme

variable {character : Char} {text : List Char} {kind : Token.Kind}

/-- The first character of a lexeme tells what kind of lexeme it is. -/
theorem mayStart (lexeme : IsLexeme text kind) (starts : text.head? = some character) :
    kind.MayStart character := by
  have digit {digits rest : List Char} (nonempty : digits ≠ [])
      (decimal : ∀ character ∈ digits, character.isDigit = true)
      (starts : (digits ++ rest).head? = some character) : character.isDigit = true := by
    cases digits with
    | nil => exact absurd rfl nonempty
    | cons first rest =>
        cases starts
        exact decimal _ (.head _)
  cases lexeme with
  | mark mark =>
      obtain ⟨first, rest, spelled, plain, underscore, quote, -⟩ := mark.starts
      rw [spelled] at starts
      cases starts
      exact ⟨plain, underscore, quote⟩
  | whole nonempty decimal =>
      rw [← List.append_nil text] at starts
      exact digit nonempty decimal starts
  | fraction nonempty decimal _ _ => exact digit nonempty decimal starts
  | string _ =>
      cases starts
      rfl
  | keyword keyword =>
      obtain ⟨first, rest, spelled, letter, -⟩ := keyword.starts
      rw [spelled] at starts
      cases starts
      exact .inl letter
  | identifier starting =>
      cases starts
      exact starting

/-- A lexeme that starts with a digit is a number. -/
theorem of_isDigit (lexeme : IsLexeme text kind) (starts : text.head? = some character)
    (digit : character.isDigit = true) :
    ((∀ character ∈ text, character.isDigit = true) ∧
        kind = .number (Number.ofDecimal text [])) ∨
      ∃ digits places, text = digits ++ '.' :: places ∧
        (∀ character ∈ digits, character.isDigit = true) ∧ places ≠ [] ∧
        (∀ character ∈ places, character.isDigit = true) ∧
        kind = .number (Number.ofDecimal digits places) := by
  have may := lexeme.mayStart starts
  obtain ⟨letter, underscore, quote, named⟩ := apart_of_isDigit digit
  cases lexeme with
  | whole _ decimal => exact .inl ⟨decimal, rfl⟩
  | fraction _ decimal some decimals => exact .inr ⟨_, _, rfl, decimal, some, decimals, rfl⟩
  | mark mark => simp [Token.Kind.MayStart, named] at may
  | string _ => exact absurd may quote
  | keyword keyword => simp [Token.Kind.MayStart, letter, underscore] at may
  | identifier => simp [Token.Kind.MayStart, letter, underscore] at may

/-- A lexeme that starts with a letter or an underscore is a word. -/
theorem of_startsName (lexeme : IsLexeme text kind) (starts : text.head? = some character)
    (letter : character.isAlpha = true ∨ character = '_') :
    (∀ character ∈ text, character.isAlphanum = true ∨ character = '_') ∧
      ((∃ keyword : Keyword, text = keyword.spelling ∧ kind = .keyword keyword) ∨
        (∀ keyword : Keyword, keyword.spelling ≠ text) ∧ kind = .identifier) := by
  have may := lexeme.mayStart starts
  have notDigit (digit : character.isDigit = true) : False := by
    obtain ⟨other, underscore, -⟩ := apart_of_isDigit digit
    simp [other, underscore] at letter
  cases lexeme with
  | whole => exact (notDigit may).elim
  | fraction => exact (notDigit may).elim
  | mark mark =>
      obtain ⟨plain, underscore, -⟩ := may
      rcases letter with letter | same
      · rw [isAlphanum_of_isAlpha letter] at plain
        cases plain
      · exact absurd same underscore
  | string _ =>
      obtain rfl := may
      rcases letter with letter | same
      · cases letter
      · cases same
  | keyword keyword =>
      refine ⟨?_, .inl ⟨keyword, rfl, rfl⟩⟩
      obtain ⟨first, rest, spelled, starting, continues⟩ := keyword.starts
      rw [spelled]
      exact List.forall_mem_cons.mpr ⟨.inl (isAlphanum_of_isAlpha starting),
        fun character inside => .inl (isAlphanum_of_isAlpha (continues character inside))⟩
  | identifier starting continues free =>
      exact ⟨List.forall_mem_cons.mpr ⟨starting.imp_left isAlphanum_of_isAlpha, continues⟩,
        .inr ⟨free, rfl⟩⟩

/-- A lexeme that starts with a quote is a string. -/
theorem of_quote (lexeme : IsLexeme text kind) (starts : text.head? = some '"') :
    ∃ body, text = '"' :: body ++ ['"'] ∧ '"' ∉ body ∧ kind = .string (String.ofList body) := by
  have may := lexeme.mayStart starts
  cases lexeme with
  | string closed => exact ⟨_, rfl, closed, rfl⟩
  | mark mark => exact absurd rfl may.2.2
  | whole => cases may
  | fraction => cases may
  | keyword keyword => rcases may with letter | same <;> contradiction
  | identifier => rcases may with letter | same <;> contradiction

/-- All other lexemes are marks. -/
theorem of_other (lexeme : IsLexeme text kind) (starts : text.head? = some character)
    (plain : character.isAlphanum = false) (underscore : character ≠ '_')
    (quote : character ≠ '"') : ∃ mark : Mark, text = mark.spelling ∧ kind = .mark mark := by
  have may := lexeme.mayStart starts
  have notDigit (digit : character.isDigit = true) : False := by
    rw [(apart_of_isDigit digit).2.2.2] at plain
    cases plain
  have notLetter (letter : character.isAlpha = true ∨ character = '_') : False := by
    rw [isAlphanum_of_isAlpha (letter.resolve_right underscore)] at plain
    cases plain
  cases lexeme with
  | mark mark => exact ⟨mark, rfl, rfl⟩
  | whole => exact (notDigit may).elim
  | fraction => exact (notDigit may).elim
  | string => exact absurd may quote
  | keyword => exact (notLetter may).elim
  | identifier => exact (notLetter may).elim

theorem ne_nil (lexeme : IsLexeme text kind) : text ≠ [] := by
  rintro rfl
  generalize shape : ([] : List Char) = text at lexeme
  cases lexeme with
  | mark mark => cases mark <;> cases shape
  | whole nonempty => exact nonempty shape.symm
  | fraction => simp at shape
  | string => cases shape
  | keyword keyword => cases keyword <;> cases shape
  | identifier => cases shape

theorem kind_ne_stop (lexeme : IsLexeme text kind) : kind ≠ .stop := by
  cases lexeme <;> simp

/-- A lexeme at a place starts with the character there. -/
theorem head?_eq {rest : List Char} (lexeme : IsLexeme text kind)
    (here : text <+: character :: rest) : text.head? = some character := by
  cases text with
  | nil => exact absurd rfl lexeme.ne_nil
  | cons first text => rw [(List.cons_prefix_cons.mp here).1, List.head?_cons]

/-- A text is a lexeme of one kind only. -/
theorem kind_unique {other : Token.Kind} (one : IsLexeme text kind) (two : IsLexeme text other) :
    kind = other := by
  obtain ⟨character, starts⟩ : ∃ character, text.head? = some character :=
    Option.ne_none_iff_exists'.mp (mt List.head?_eq_none_iff.mp one.ne_nil)
  have may := one.mayStart starts
  have pointless : ('.').isDigit = false := by decide
  cases one with
  | mark mark =>
      obtain ⟨again, spelled, rfl⟩ := two.of_other starts may.1 may.2.1 may.2.2
      have same := congrArg Mark.ofSpelling? spelled
      rw [Mark.ofSpelling?_spelling, Mark.ofSpelling?_spelling] at same
      cases same
      rfl
  | whole _ decimal =>
      rcases two.of_isDigit starts may with ⟨-, rfl⟩ | ⟨digits, places, rfl, -⟩
      · rfl
      · have point := decimal '.' (by simp)
        rw [pointless] at point
        cases point
  | @fraction digits places _ decimal _ _ =>
      rcases two.of_isDigit starts may with ⟨all, -⟩ | ⟨digits', places', same, decimal', -, -, rfl⟩
      · have point := all '.' (by simp)
        rw [pointless] at point
        cases point
      · have here := split_takeWhile decimal pointless
          (List.prefix_refl (digits ++ '.' :: places))
        have there := split_takeWhile decimal' pointless
          (same ▸ List.prefix_refl (digits ++ '.' :: places) :
            digits' ++ '.' :: places' <+: digits ++ '.' :: places)
        obtain rfl := here.1.symm.trans there.1
        cases List.append_cancel_left same
        rfl
  | string =>
      obtain ⟨body, same, -, rfl⟩ := two.of_quote (may ▸ starts)
      cases List.append_cancel_right (List.cons.inj same).2
      rfl
  | keyword keyword =>
      obtain ⟨-, ⟨again, spelled, rfl⟩ | ⟨free, -⟩⟩ := two.of_startsName starts may
      · have same := congrArg Keyword.ofSpelling? spelled
        rw [Keyword.ofSpelling?_spelling, Keyword.ofSpelling?_spelling] at same
        cases same
        rfl
      · exact absurd rfl (free keyword)
  | identifier _ _ free =>
      obtain ⟨-, ⟨keyword, spelled, -⟩ | ⟨-, rfl⟩⟩ := two.of_startsName starts may
      · exact absurd spelled.symm (free keyword)
      · rfl

end IsLexeme

/-- The longest lexeme is the only one. -/
theorem IsLongest.unique {source text other : List Char} {kind otherKind : Token.Kind}
    (one : IsLongest source text kind) (two : IsLongest source other otherKind) :
    text = other ∧ kind = otherKind := by
  have same : text = other :=
    (List.prefix_of_prefix_length_le one.isPrefix two.isPrefix
      (two.longest _ _ one.lexeme one.isPrefix)).eq_of_length
      (Nat.le_antisymm (two.longest _ _ one.lexeme one.isPrefix)
        (one.longest _ _ two.lexeme two.isPrefix))
  subst same
  exact ⟨rfl, one.lexeme.kind_unique two.lexeme⟩

/-! ## The longest lexeme at a place -/

namespace Segment

/-- The places behind a point are as many digits as there are. -/
theorem fraction_longest (source : List Char) :
    (∀ character ∈ fraction source, character.isDigit = true) ∧
      (fraction source ≠ [] → '.' :: fraction source <+: source) ∧
      ∀ places : List Char, places ≠ [] → (∀ character ∈ places, character.isDigit = true) →
        '.' :: places <+: source → places <+: fraction source := by
  unfold fraction
  rw [isDigit_eq]
  split
  · next digit rest =>
      split
      · next first =>
          refine ⟨?_, fun _ => ?_, fun places _ decimals isPrefix => ?_⟩
          · exact List.forall_mem_cons.mpr ⟨first, fun character => List.mem_takeWhile_imp⟩
          · exact List.prefix_cons_inj _ |>.mpr (List.prefix_cons_inj _ |>.mpr
              (List.takeWhile_prefix _))
          · have inside := prefix_takeWhile decimals (List.prefix_cons_inj _ |>.mp isPrefix)
            rwa [List.takeWhile_cons_of_pos first] at inside
      · next other =>
          refine ⟨by simp, fun some => absurd rfl some, fun places some decimals isPrefix => ?_⟩
          cases places with
          | nil => exact absurd rfl some
          | cons place places =>
              have same := (List.cons_prefix_cons.mp (List.cons_prefix_cons.mp isPrefix).2).1
              exact absurd (same ▸ decimals place (.head _)) other
  · next shapeless =>
      refine ⟨by simp, fun some => absurd rfl some, fun places some decimals isPrefix => ?_⟩
      obtain ⟨back, rfl⟩ := isPrefix
      cases places with
      | nil => exact absurd rfl some
      | cons place places => exact (shapeless place (places ++ back) rfl).elim

/-- A number is the longest lexeme where a digit stands. -/
theorem number_longest {digit : Char} (starts : digit.isDigit = true) (rest : List Char) :
    ∃ kind text, number digit rest = .lexeme kind text ∧ IsLongest (digit :: rest) text kind := by
  obtain ⟨decimals, isPrefix, longest⟩ := fraction_longest (rest.dropWhile isDigit)
  have whole : (digit :: rest).takeWhile Char.isDigit = digit :: rest.takeWhile isDigit := by
    rw [isDigit_eq, List.takeWhile_cons_of_pos starts]
  have behind : (digit :: rest).dropWhile Char.isDigit = rest.dropWhile isDigit := by
    rw [isDigit_eq, List.dropWhile_cons_of_pos starts]
  have decimal : ∀ character ∈ digit :: rest.takeWhile isDigit, character.isDigit = true := by
    rw [← whole]
    exact fun character => List.mem_takeWhile_imp
  have source := List.takeWhile_append_dropWhile (p := Char.isDigit) (l := digit :: rest)
  rw [whole, behind] at source
  unfold number
  generalize fraction (rest.dropWhile isDigit) = places at decimals isPrefix longest
  generalize digit :: rest.takeWhile isDigit = digits at decimal whole source
  -- Whatever other number stands here has digits and places among these.
  have other {text : List Char} {kind : Token.Kind} (lexeme : IsLexeme text kind)
      (here : text <+: digit :: rest) : text <+: digits ∨
        ∃ decimals, text = digits ++ '.' :: decimals ∧ decimals ≠ [] ∧ decimals <+: places := by
    rcases lexeme.of_isDigit (lexeme.head?_eq here) starts with
      ⟨all, -⟩ | ⟨front, back, rfl, all, some, more, -⟩
    · exact .inl (whole ▸ prefix_takeWhile all here)
    · obtain ⟨rfl, point⟩ := split_takeWhile all (by decide) here
      rw [behind] at point
      exact .inr ⟨back, by rw [whole], some, longest back some more point⟩
  have nonempty : digits ≠ [] := by
    rintro rfl
    rw [List.takeWhile_cons_of_pos starts] at whole
    cases whole
  cases places with
  | nil =>
      refine ⟨_, _, rfl, .whole nonempty decimal, ⟨_, source⟩, fun text kind lexeme here => ?_⟩
      rcases other lexeme here with short | ⟨decimals, rfl, some, short⟩
      · exact short.length_le
      · exact absurd (List.prefix_nil.mp short) some
  | cons place places =>
      refine ⟨_, _, rfl, .fraction nonempty decimal (by simp) decimals, ?_,
        fun text kind lexeme here => ?_⟩
      · have point := isPrefix (by simp)
        rw [← source]
        exact (List.prefix_append_right_inj _).mpr point
      · rcases other lexeme here with short | ⟨decimals, rfl, -, short⟩
        · exact Nat.le_trans short.length_le (by simp)
        · have bound := short.length_le
          simp only [List.length_append, List.length_cons] at bound ⊢
          omega

/-- A word is the longest lexeme where a letter stands. -/
theorem word_longest {letter : Char} (starts : letter.isAlpha = true ∨ letter = '_')
    (rest : List Char) :
    ∃ kind text, word letter rest = .lexeme kind text ∧ IsLongest (letter :: rest) text kind := by
  have continues : continuesName letter = true :=
    (continuesName_iff letter).mpr (starts.imp_left isAlphanum_of_isAlpha)
  have spelling : (letter :: rest).takeWhile continuesName =
      letter :: rest.takeWhile continuesName := List.takeWhile_cons_of_pos continues
  have isPrefix : letter :: rest.takeWhile continuesName <+: letter :: rest :=
    List.prefix_cons_inj _ |>.mpr (List.takeWhile_prefix _)
  have longest (text : List Char) (kind : Token.Kind) (lexeme : IsLexeme text kind)
      (here : text <+: letter :: rest) :
      text.length ≤ (letter :: rest.takeWhile continuesName).length := by
    have all := (lexeme.of_startsName (lexeme.head?_eq here) starts).1
    have named : ∀ character ∈ text, continuesName character = true :=
      fun character inside => (continuesName_iff character).mpr (all character inside)
    rw [← spelling]
    exact (prefix_takeWhile named here).length_le
  unfold word
  dsimp only
  split
  · next keyword spelled =>
      refine ⟨_, _, rfl, ?_, isPrefix, longest⟩
      rw [← Keyword.spelling_of_ofSpelling? spelled]
      exact .keyword keyword
  · next unspelled =>
      refine ⟨_, _, rfl, .identifier starts ?_ ?_, isPrefix, longest⟩
      · exact fun character inside =>
          (continuesName_iff character).mp (List.mem_takeWhile_imp inside)
      · intro keyword same
        rw [← same, Keyword.ofSpelling?_spelling] at unspelled
        cases unspelled

/-- A string ends at the next quote, and an open one never. -/
theorem quoted_stands (rest : List Char) : Stands ('"' :: rest) (quoted rest) := by
  have unquoted : '"' ∉ rest.takeWhile staysInString := by
    intro inside
    have stays := List.mem_takeWhile_imp inside
    simp [staysInString] at stays
  have source := List.takeWhile_append_dropWhile (p := staysInString) (l := rest)
  unfold quoted
  dsimp only
  split
  · next ended =>
      rw [ended, List.append_nil] at source
      rw [source] at unquoted
      exact .openString unquoted
  · next stop back shape =>
      have stopped : stop = '"' := by
        have failed := List.head?_dropWhile_not staysInString rest
        simpa [shape, staysInString] using failed
      subst stopped
      rw [shape] at source
      generalize rest.takeWhile staysInString = body at unquoted source
      refine .lexeme (by simp) ⟨.string unquoted, ⟨back, ?_⟩, fun text kind lexeme here => ?_⟩
      · simp [← source]
      · obtain ⟨other, rfl, closed, -⟩ := lexeme.of_quote (lexeme.head?_eq here)
        have inside : other ++ '"' :: [] <+: rest := (List.cons_prefix_cons.mp here).2
        have stays (characters : List Char) (closed : '"' ∉ characters) :
            ∀ character ∈ characters, staysInString character = true := by
          intro character member
          have different : character ≠ '"' := fun same => closed (same ▸ member)
          simpa [staysInString] using different
        have one := split_takeWhile (stays other closed) (by decide) inside
        have two := split_takeWhile (stays body unquoted) (by decide)
          (source ▸ List.prefix_refl _ : body ++ '"' :: back <+: rest)
        rw [one.1.symm.trans two.1]

/-- A mark of two characters wins over one, and where no mark stands no other lexeme
does. -/
theorem mark_stands {character : Char} {rest : List Char} (visible : character ∉ layout)
    (comment : ¬ ['/', '/'] <+: character :: rest) (plain : character.isAlphanum = false)
    (underscore : character ≠ '_') (quote : character ≠ '"') :
    Stands (character :: rest) ((mark? character rest).getD (.stray character)) := by
  -- Every lexeme here is a mark of one character or two.
  have marks {text : List Char} {kind : Token.Kind} (lexeme : IsLexeme text kind)
      (first : text.head? = some character) : ∃ mark : Mark, text = mark.spelling :=
    let ⟨mark, spelled, _⟩ := lexeme.of_other first plain underscore quote
    ⟨mark, spelled⟩
  cases found : mark? character rest with
  | some segment =>
      have short {text : List Char} {kind : Token.Kind} (lexeme : IsLexeme text kind)
          (here : text <+: character :: rest) : ∃ mark : Mark, ∃ back, text = mark.spelling ∧
            text = character :: back ∧ back.length ≤ 1 ∧ back <+: rest := by
        obtain ⟨mark, rfl⟩ := marks lexeme (lexeme.head?_eq here)
        obtain ⟨start, back, spelled, -, -, -, -, short, -⟩ := mark.starts
        rw [spelled] at here
        obtain ⟨rfl, inside⟩ := List.cons_prefix_cons.mp here
        exact ⟨mark, back, rfl, spelled, short, inside⟩
      unfold mark? at found
      split at found
      · next mark spelled =>
          cases found
          refine .lexeme comment ⟨.mark mark, ?_, fun text kind lexeme here => ?_⟩
          · rw [Mark.spelling_of_ofSpelling? spelled]
            exact List.prefix_cons_inj _ |>.mpr (List.take_prefix 1 rest)
          · obtain ⟨-, back, -, rfl, bound, inside⟩ := short lexeme here
            have within := inside.length_le
            rw [Mark.spelling_of_ofSpelling? spelled, List.length_cons, List.length_cons,
              List.length_take]
            omega
      · next unspelled =>
          obtain ⟨mark, spelled, rfl⟩ := Option.map_eq_some_iff.mp found
          refine .lexeme comment ⟨.mark mark, ?_, fun text kind lexeme here => ?_⟩
          · rw [Mark.spelling_of_ofSpelling? spelled]
            exact ⟨rest, rfl⟩
          · obtain ⟨other, back, same, rfl, bound, inside⟩ := short lexeme here
            rw [Mark.spelling_of_ofSpelling? spelled, List.length_cons, List.length_singleton]
            by_contra longer
            have two : back.length = 1 := by omega
            have taken : rest.take 1 = back := by
              rw [← two, ← List.prefix_iff_eq_take.mp inside]
            rw [taken, same, Mark.ofSpelling?_spelling] at unspelled
            cases unspelled
  | none =>
      refine .stray visible fun text kind lexeme first => ?_
      obtain ⟨mark, rfl⟩ := marks lexeme first
      obtain ⟨start, back, spelled, -, -, -, -, -, short⟩ := mark.starts
      rw [spelled] at first
      cases first
      unfold mark? at found
      split at found
      · cases found
      · rw [Option.map_eq_none_iff.mp found] at short
        cases short

/-! ## Segments -/

/-- Behind two slashes the rest of the line is a comment. -/
theorem comment_stands (rest : List Char) :
    Stands ('/' :: '/' :: rest) (.comment (rest.takeWhile staysOnLine)) := by
  have source := List.takeWhile_append_dropWhile (p := staysOnLine) (l := rest)
  have stands : Stands ('/' :: '/' :: rest.takeWhile staysOnLine ++
      rest.dropWhile staysOnLine) (.comment (rest.takeWhile staysOnLine)) := by
    constructor
    · intro inside
      have stays := List.mem_takeWhile_imp inside
      simp [staysOnLine] at stays
    · cases shape : rest.dropWhile staysOnLine with
      | nil => exact .inl rfl
      | cons stop back =>
          have failed := List.head?_dropWhile_not staysOnLine rest
          have stopped : stop = '\n' := by simpa [shape, staysOnLine] using failed
          exact .inr (congrArg some stopped)
  rw [List.cons_append, List.cons_append, source] at stands
  exact stands

/-- What is read first stands at the start of a text. -/
theorem first_stands (character : Char) (rest : List Char) :
    Stands (character :: rest) (first character rest) := by
  unfold first
  split
  · next blank => exact .blank ((isBlank_iff character).mp blank)
  next visible =>
  rw [isBlank_iff] at visible
  split
  · next slashes =>
      obtain ⟨rfl, second⟩ := slashes
      cases rest with
      | nil => cases second
      | cons other rest =>
          cases second
          exact comment_stands rest
  next noComment =>
  have plain : ¬ ['/', '/'] <+: character :: rest := by
    rintro ⟨back, shape⟩
    cases shape
    exact noComment ⟨rfl, rfl⟩
  split
  · next quote =>
      subst quote
      exact quoted_stands rest
  next unquoted =>
  split
  · next digit =>
      obtain ⟨kind, text, same, longest⟩ := number_longest (isDigit_eq ▸ digit) rest
      rw [same]
      exact .lexeme plain longest
  next notDigit =>
  split
  · next letter =>
      obtain ⟨kind, text, same, longest⟩ := word_longest ((startsName_iff character).mp letter) rest
      rw [same]
      exact .lexeme plain longest
  · next notLetter =>
      rw [startsName_iff, not_or] at notLetter
      rw [isDigit_eq] at notDigit
      have notNamed : character.isAlphanum = false := by
        simp [Char.isAlphanum, notLetter.1, notDigit]
      exact mark_stands visible plain notNamed notLetter.2 unquoted

/-- No lexeme starts with layout. -/
theorem visible_of_lexeme {character : Char} {rest text : List Char} {kind : Token.Kind}
    (lexeme : IsLexeme text kind) (here : text <+: character :: rest) : character ∉ layout := by
  have may := lexeme.mayStart (lexeme.head?_eq here)
  intro blank
  simp only [layout, List.mem_cons, List.not_mem_nil, or_false] at blank
  cases lexeme with
  | mark mark =>
      obtain ⟨start, back, spelled, -, -, -, visible, -⟩ := mark.starts
      rw [spelled] at here
      obtain ⟨rfl, -⟩ := List.cons_prefix_cons.mp here
      exact visible (by simpa [layout] using blank)
  | string => rcases blank with rfl | rfl | rfl | rfl <;> cases may
  | whole => rcases blank with rfl | rfl | rfl | rfl <;> cases may
  | fraction => rcases blank with rfl | rfl | rfl | rfl <;> cases may
  | keyword => rcases blank with rfl | rfl | rfl | rfl <;> rcases may with no | no <;> cases no
  | identifier => rcases blank with rfl | rfl | rfl | rfl <;> rcases may with no | no <;> cases no

/-- No lexeme starts with a quote that is never closed. -/
theorem no_lexeme_of_unclosed {body text : List Char} {kind : Token.Kind} (unclosed : '"' ∉ body)
    (lexeme : IsLexeme text kind) : ¬ text <+: '"' :: body := by
  intro here
  obtain ⟨other, rfl, -, -⟩ := lexeme.of_quote (lexeme.head?_eq here)
  have inside := (List.cons_prefix_cons.mp here).2
  exact unclosed (inside.subset (by simp))

/-- A comment is all of its line. -/
theorem comment_eq {body rest : List Char} (inLine : '\n' ∉ body)
    (ends : rest = [] ∨ rest.head? = some '\n') :
    (body ++ rest).takeWhile staysOnLine = body := by
  have stays : ∀ character ∈ body, staysOnLine character = true := by
    intro character member
    have different : character ≠ '\n' := fun same => inLine (same ▸ member)
    simpa [staysOnLine] using different
  rw [List.takeWhile_append_of_pos stays]
  rcases ends with rfl | stops
  · simp
  · cases rest with
    | nil => cases stops
    | cons stop back =>
        cases stops
        simp [staysOnLine]

/-- Only one segment stands at the start of a text. -/
theorem Stands.unique {source : List Char} {segment other : Segment}
    (one : Stands source segment) (two : Stands source other) : segment = other := by
  have slash : IsLexeme ['/'] (.mark .slash) := .mark .slash
  have empty : IsLexeme ['"', '"'] (.string (String.ofList [])) :=
    @IsLexeme.string [] List.not_mem_nil
  -- The text is named twice, so that the cases of one do not depend on the other's.
  generalize same : source = again at two
  cases one with
  | blank blank =>
      cases two with
      | blank => cases same; rfl
      | comment => cases same; exact absurd blank (by decide)
      | lexeme _ longest =>
          subst same
          exact absurd blank (visible_of_lexeme longest.lexeme longest.isPrefix)
      | stray visible => cases same; exact absurd blank visible
      | openString => cases same; exact absurd blank (by decide)
  | comment inLine ends =>
      cases two with
      | blank blank => cases same; exact absurd blank (by decide)
      | comment inLine' ends' =>
          have bodies := (List.cons.inj (List.cons.inj same).2).2
          rw [← comment_eq inLine ends, ← comment_eq inLine' ends']
          exact congrArg Segment.comment (congrArg (List.takeWhile staysOnLine) bodies)
      | lexeme plain => subst same; exact absurd ⟨_, rfl⟩ plain
      | stray _ startless => cases same; exact absurd rfl (startless _ _ slash)
      | openString => cases same
  | lexeme plain longest =>
      cases two with
      | blank blank =>
          subst same
          exact absurd blank (visible_of_lexeme longest.lexeme longest.isPrefix)
      | comment => subst same; exact absurd ⟨_, rfl⟩ plain
      | lexeme _ longest' =>
          subst same
          obtain ⟨rfl, rfl⟩ := longest.unique longest'
          rfl
      | stray _ startless =>
          subst same
          exact absurd (longest.lexeme.head?_eq longest.isPrefix) (startless _ _ longest.lexeme)
      | openString unclosed =>
          subst same
          exact absurd longest.isPrefix (no_lexeme_of_unclosed unclosed longest.lexeme)
  | stray visible startless =>
      cases two with
      | blank blank => cases same; exact absurd blank visible
      | comment => cases same; exact absurd rfl (startless _ _ slash)
      | lexeme _ longest =>
          subst same
          exact absurd (longest.lexeme.head?_eq longest.isPrefix) (startless _ _ longest.lexeme)
      | stray => cases same; rfl
      | openString => cases same; exact absurd rfl (startless _ _ empty)
  | openString unclosed =>
      cases two with
      | blank blank => cases same; exact absurd blank (by decide)
      | comment => cases same
      | lexeme _ longest =>
          subst same
          exact absurd longest.isPrefix (no_lexeme_of_unclosed unclosed longest.lexeme)
      | stray _ startless => cases same; exact absurd rfl (startless _ _ empty)
      | openString => cases same; rfl

/-! ## Whole texts -/

theorem tile_segmentsAfter (skip : Nat) (source : List Char) :
    Tile (source.drop skip) (segmentsAfter skip source) := by
  induction source generalizing skip with
  | nil =>
      rw [List.drop_nil]
      cases skip <;> exact .done
  | cons character rest ih =>
      cases skip with
      | succ skip => exact ih skip
      | zero =>
          obtain ⟨⟨after, split⟩, nonempty⟩ := first_isPrefix character rest
          have behind := ih ((first character rest).text.length - 1)
          have stands := first_stands character rest
          rw [segmentsAfter, List.drop_zero]
          generalize first character rest = segment at split nonempty behind stands
          have shape : rest.drop (segment.text.length - 1) = after := by
            cases text : segment.text with
            | nil => exact absurd text nonempty
            | cons head tail =>
                rw [text] at split
                cases split
                simp
          rw [shape] at behind
          rw [← split] at stands ⊢
          exact .next stands behind

/-- A text is read as it is cut rightly. -/
theorem tile_ofText (source : List Char) : Tile source (ofText source) :=
  tile_segmentsAfter 0 source

/-- There is only one way to cut a text rightly. -/
theorem Tile.unique {source : List Char} {segments others : List Segment}
    (one : Tile source segments) (two : Tile source others) : segments = others := by
  have some {source : List Char} {segment : Segment} (stands : Stands source segment) :
      source ≠ [] := by
    rintro rfl
    generalize same : ([] : List Char) = source at stands
    cases stands with
    | lexeme _ longest =>
        subst same
        exact longest.lexeme.ne_nil (List.prefix_nil.mp longest.isPrefix)
    | _ => cases same
  induction one generalizing others with
  | done =>
      generalize same : ([] : List Char) = source at two
      cases two with
      | done => rfl
      | next stands => exact absurd same.symm (some stands)
  | @next after segment rest stands _ ih =>
      generalize same : segment.text ++ after = source at stands two
      cases two with
      | done => exact absurd rfl (some stands)
      | next stands' behind =>
          obtain rfl := stands.unique stands'
          obtain rfl := List.append_cancel_left same
          rw [ih behind]

/-! ## Items -/

/-- What segments yield that start on a given line, each on the line on which it
ends. -/
def yields : Nat → List Segment → List Item
  | _, [] => []
  | line, segment :: rest =>
      (segment.item? (line + segment.lineFeeds)).toList ++ yields (line + segment.lineFeeds) rest

theorem items_eq (line : Nat) (segments : List Segment) :
    items line segments = yields line segments ++
      [.token (.atEnd (line + (segments.flatMap text).count '\n'))] := by
  induction segments generalizing line with
  | nil => rfl
  | cons segment rest ih =>
      rw [items, yields, ih, List.append_assoc, List.flatMap_cons, List.count_append, lineFeeds,
        Nat.add_assoc]

/-- No segment of a text yields a closing token. -/
theorem Tile.kind_ne_stop {source : List Char} {segments : List Segment}
    (tile : Tile source segments) {line : Nat} {token : Token}
    (inside : .token token ∈ yields line segments) : token.kind ≠ .stop := by
  induction tile generalizing line with
  | done => cases inside
  | @next after segment rest stands _ ih =>
      rcases List.mem_append.mp inside with here | later
      · cases segment with
        | lexeme kind text =>
            generalize (Segment.lexeme kind text).text ++ after = source at stands
            cases List.mem_singleton.mp here
            cases stands with
            | lexeme _ longest => exact longest.lexeme.kind_ne_stop
        | blank => cases here
        | comment => cases here
        | stray => cases List.mem_singleton.mp here
        | openString => cases List.mem_singleton.mp here
      · exact ih later

end Segment

namespace TokenStream

/-- A call for the next item. A stream that has none stays as it is. -/
def ask (stream : TokenStream) : Option Item × TokenStream :=
  match stream.next? with
  | some (item, after) => (some item, after)
  | none => (none, stream)

/-- The answer to a call that comes after a number of other ones. -/
def answer (stream : TokenStream) : Nat → Option Item
  | 0 => stream.ask.1
  | calls + 1 => answer stream.ask.2 calls

/-- Calls are answered with the items in order, and with nothing from then on. -/
theorem answer_eq (stream : TokenStream) (calls : Nat) :
    stream.answer calls = stream.items[calls]? := by
  induction calls generalizing stream with
  | zero =>
      unfold answer ask
      cases read : stream.next? with
      | none => rw [(next?_eq_none_iff stream).mp read]; rfl
      | some result => rw [items_of_next? read]; rfl
  | succ calls ih =>
      rw [answer, ih]
      unfold ask
      cases read : stream.next? with
      | none => rw [(next?_eq_none_iff stream).mp read]; rfl
      | some result => rw [items_of_next? read]; rfl

/-- A text is read as the longest lexemes that stand in it. It is cut in the only way
in which layout, comments, longest lexemes and what starts no lexeme follow one
another; calls are answered with what these segments yield, then once with the
closing token, and then with nothing. -/
theorem reads_longest (source : String) :
    ∃ segments, Segment.Tile source.toList segments ∧
      (∀ others, Segment.Tile source.toList others → others = segments) ∧
      (∀ token, .token token ∈ Segment.yields 1 segments → token.kind ≠ .stop) ∧
      ∀ calls, (ofText source).answer calls = (Segment.yields 1 segments ++
        [.token (.atEnd (1 + source.toList.count '\n'))])[calls]? := by
  have tile := Segment.tile_ofText source.toList
  refine ⟨Segment.ofText source.toList, tile, fun others other => other.unique tile,
    fun token => tile.kind_ne_stop, fun calls => ?_⟩
  have items : (ofText source).items = Segment.items 1 (Segment.ofText source.toList) := rfl
  rw [answer_eq, items, Segment.items_eq, Segment.text_ofText]

end TokenStream

end Lox
