import Lox.Proofs.Token.Joining
import Lox.Proofs.Token.Longest

/-!
# Tokens written out with other spacing

A lexeme is read as the same token wherever it stands, provided that a character of
layout or the end of the text comes behind it. So the tokens of a text can be written
out again with any layout and comments between them and are read as they were.
-/

namespace Lox

/-- Characters of layout and comments. Each comment comes with the line feed that
ends it. -/
inductive IsSpacing : List Char → Prop where
  | none : IsSpacing []
  | blank {character : Char} {rest : List Char} (blank : character ∈ layout)
      (others : IsSpacing rest) : IsSpacing (character :: rest)
  | comment {body rest : List Char} (inLine : '\n' ∉ body) (others : IsSpacing rest) :
      IsSpacing ('/' :: '/' :: body ++ '\n' :: rest)

/-- The lexemes of tokens in order. Between them, and maybe behind the last one, stands
spacing that starts with a character of layout. -/
inductive Spaced : List Token → List Char → Prop where
  | none : Spaced [] []
  | last (token : Token) : Spaced [token] token.lexeme.toList
  | next {tokens : List Token} {gap text : List Char} {character : Char} (token : Token)
      (blank : character ∈ layout) (spacing : IsSpacing gap) (behind : Spaced tokens text) :
      Spaced (token :: tokens) (token.lexeme.toList ++ character :: gap ++ text)

/-! ## Lexemes in front of layout -/

namespace IsLexeme

variable {text : List Char} {kind : Token.Kind}

/-- Only strings hold characters of layout. -/
theorem visible (lexeme : IsLexeme text kind) (unquoted : text.head? ≠ some '"') :
    ∀ character ∈ text, character ∉ layout := by
  have named {character : Char} (name : character.isAlphanum = true ∨ character = '_') :
      character ∉ layout := by
    intro blank
    simp only [layout, List.mem_cons, List.not_mem_nil, or_false] at blank
    rcases blank with rfl | rfl | rfl | rfl <;> rcases name with no | no <;> cases no
  have digit {character : Char} (digit : character.isDigit = true) : character ∉ layout :=
    named (.inl (apart_of_isDigit digit).2.2.2)
  intro character inside
  cases lexeme with
  | mark mark =>
      have visible : mark.spelling.all (· ∉ layout) = true := by cases mark <;> decide
      exact of_decide_eq_true (List.all_eq_true.mp visible character inside)
  | whole _ decimal => exact digit (decimal character inside)
  | fraction _ decimal _ decimals =>
      rcases List.mem_append.mp inside with whole | places
      · exact digit (decimal character whole)
      · rcases List.mem_cons.mp places with rfl | place
        · decide
        · exact digit (decimals character place)
  | string _ => exact absurd rfl unquoted
  | keyword keyword =>
      have visible : keyword.spelling.all (· ∉ layout) = true := by cases keyword <;> decide
      exact of_decide_eq_true (List.all_eq_true.mp visible character inside)
  | identifier starts continues _ =>
      rcases List.mem_cons.mp inside with rfl | rest
      · exact named (starts.imp_left isAlphanum_of_isAlpha)
      · exact named (continues character rest)

/-- No lexeme goes on behind another one with a character of layout. -/
theorem not_behind {other : Token.Kind} {character : Char} {rest : List Char}
    (lexeme : IsLexeme text kind) (blank : character ∈ layout) :
    ¬ IsLexeme (text ++ character :: rest) other := by
  intro longer
  have starts : (text ++ character :: rest).head? = text.head? := by
    rw [List.head?_append, Option.or_of_isSome (List.isSome_head?.mpr lexeme.ne_nil)]
  by_cases quote : text.head? = some '"'
  · obtain ⟨body, rfl, -, -⟩ := lexeme.of_quote quote
    obtain ⟨longBody, same, closed, -⟩ := longer.of_quote (starts.trans quote)
    have same : body ++ '"' :: character :: rest = longBody ++ ['"'] := by simpa using same
    have quoted : body ++ ['"'] <+: longBody ++ ['"'] := ⟨character :: rest, by simpa using same⟩
    have shorter : (body ++ ['"']).length ≤ longBody.length := by
      have lengths := congrArg List.length same
      simp only [List.length_append, List.length_cons, List.length_nil] at lengths ⊢
      omega
    obtain ⟨front, shape⟩ :=
      List.prefix_of_prefix_length_le quoted (List.prefix_append longBody ['"']) shorter
    exact closed (shape ▸ by simp)
  · have inside : character ∈ text ++ character :: rest := by simp
    exact longer.visible (starts ▸ quote) character inside blank

/-- In front of layout, and at the end of a text, a lexeme is the longest one. -/
theorem isLongest {behind : List Char} (lexeme : IsLexeme text kind)
    (ends : ∀ character ∈ behind.head?, character ∈ layout) :
    IsLongest (text ++ behind) text kind := by
  refine ⟨lexeme, List.prefix_append _ _, fun other otherKind longer here => ?_⟩
  by_contra exceeds
  obtain ⟨more, rfl⟩ := List.prefix_of_prefix_length_le (List.prefix_append text behind) here
    (Nat.le_of_not_le exceeds)
  cases more with
  | nil => simp at exceeds
  | cons character rest =>
      obtain ⟨back, rfl⟩ := List.prefix_append_right_inj _ |>.mp here
      exact lexeme.not_behind (ends character rfl) longer

/-- In front of layout no lexeme starts a comment. -/
theorem not_comment {behind : List Char} (lexeme : IsLexeme text kind)
    (ends : ∀ character ∈ behind.head?, character ∈ layout) :
    ¬ ['/', '/'] <+: text ++ behind := by
  intro comment
  obtain ⟨head, rest, rfl⟩ := List.exists_cons_of_ne_nil lexeme.ne_nil
  obtain ⟨rfl, second⟩ := List.cons_prefix_cons.mp comment
  obtain ⟨mark, spelled, -⟩ := lexeme.of_other rfl (by decide) (by decide) (by decide)
  obtain rfl : rest = [] := by
    cases mark <;> cases spelled
    rfl
  cases behind with
  | nil => simp at second
  | cons character behind =>
      obtain ⟨rfl, -⟩ := List.cons_prefix_cons.mp second
      exact absurd (ends '/' rfl) (by decide)

end IsLexeme

namespace Segment

/-- The kind and the lexeme of a token that a segment yields. -/
def word? : Segment → Option (Token.Kind × String)
  | .lexeme kind text => some (kind, String.ofList text)
  | _ => none

theorem words_items (line : Nat) (segments : List Segment) :
    ((items line segments).filterMap Item.token?).map (fun token => (token.kind, token.lexeme)) =
      segments.filterMap word? ++ [(.stop, "")] := by
  induction segments generalizing line with
  | nil => rfl
  | cons segment rest ih =>
      rw [items, List.filterMap_append, List.map_append, ih]
      cases segment <;> rfl

/-- The tokens of a text are lexemes, the closing one apart. -/
theorem Tile.isLexeme {source : List Char} {segments : List Segment} (tile : Tile source segments) :
    ∀ word ∈ segments.filterMap word?, IsLexeme word.2.toList word.1 := by
  induction tile with
  | done => simp
  | @next after segment rest stands _ ih =>
      intro word inside
      obtain ⟨other, member, found⟩ := List.mem_filterMap.mp inside
      rcases List.mem_cons.mp member with rfl | later
      · cases other with
        | lexeme kind text =>
            generalize (Segment.lexeme kind text).text ++ after = source at stands
            cases found
            cases stands with
            | lexeme _ longest => simpa using longest.lexeme
        | _ => cases found
      · exact ih word (List.mem_filterMap.mpr ⟨other, later, found⟩)

/-- Spacing is read as segments that yield nothing. -/
theorem tile_spacing {gap : List Char} (spacing : IsSpacing gap) :
    ∃ segments, (∀ segment ∈ segments, segment.isFaulty = false ∧ segment.word? = none) ∧
      ∀ behind others, Tile behind others → Tile (gap ++ behind) (segments ++ others) := by
  induction spacing with
  | none => exact ⟨[], by simp, fun _ _ tile => tile⟩
  | @blank character rest blank _ ih =>
      obtain ⟨segments, silent, tile⟩ := ih
      refine ⟨.blank character :: segments, List.forall_mem_cons.mpr ⟨⟨rfl, rfl⟩, silent⟩, ?_⟩
      intro behind others later
      have stands : Stands ((Segment.blank character).text ++ (rest ++ behind))
          (.blank character) := .blank blank
      exact .next stands (tile behind others later)
  | @comment body rest inLine _ ih =>
      obtain ⟨segments, silent, tile⟩ := ih
      refine ⟨.comment body :: .blank '\n' :: segments, ?_, fun behind others later => ?_⟩
      · exact List.forall_mem_cons.mpr ⟨⟨rfl, rfl⟩, List.forall_mem_cons.mpr ⟨⟨rfl, rfl⟩, silent⟩⟩
      · have lineFeed : Stands ((Segment.blank '\n').text ++ (rest ++ behind)) (.blank '\n') :=
          .blank (by decide)
        have ended := Tile.next lineFeed (tile behind others later)
        have stands : Stands ((Segment.comment body).text ++ '\n' :: (rest ++ behind))
            (.comment body) := .comment inLine (.inr rfl)
        have commented := Tile.next stands ended
        simpa [text] using commented

/-- A lexeme in front of layout, or at the end of a text, is read as itself. -/
theorem tile_lexeme {body behind : List Char} {kind : Token.Kind} {others : List Segment}
    (lexeme : IsLexeme body kind) (ends : ∀ character ∈ behind.head?, character ∈ layout)
    (tile : Tile behind others) : Tile (body ++ behind) (.lexeme kind body :: others) := by
  have stands : Stands ((Segment.lexeme kind body).text ++ behind) (.lexeme kind body) :=
    .lexeme (lexeme.not_comment ends) (lexeme.isLongest ends)
  exact .next stands tile

/-- Lexemes that are spaced out are read one by one. -/
theorem tile_spaced {tokens : List Token} {source : List Char} (spaced : Spaced tokens source)
    (lexemes : ∀ token ∈ tokens, IsLexeme token.lexeme.toList token.kind) :
    ∃ segments, Tile source segments ∧ (∀ segment ∈ segments, segment.isFaulty = false) ∧
      segments.filterMap word? = tokens.map fun token => (token.kind, token.lexeme) := by
  induction spaced with
  | none => exact ⟨[], .done, by simp, rfl⟩
  | last token =>
      have alone : Tile (token.lexeme.toList ++ []) [.lexeme token.kind token.lexeme.toList] :=
        tile_lexeme (lexemes token (.head _)) (by simp) .done
      rw [List.append_nil] at alone
      exact ⟨_, alone, by simp [isFaulty], by simp [word?]⟩
  | @next tokens gap text character token blank spacing _ ih =>
      obtain ⟨others, tile, clean, words⟩ := ih fun token later => lexemes token (.tail _ later)
      obtain ⟨segments, silent, between⟩ := tile_spacing (.blank blank spacing)
      have behind := between text others tile
      have whole := tile_lexeme (lexemes token (.head _)) (by simp [blank]) behind
      refine ⟨_, by simpa using whole, ?_, ?_⟩
      · simp only [List.mem_cons, List.mem_append]
        rintro segment (rfl | space | later)
        · rfl
        · exact (silent segment space).1
        · exact clean segment later
      · have wordless : segments.filterMap word? = [] :=
          List.filterMap_eq_nil_iff.mpr fun segment space => (silent segment space).2
        simp [wordless, words, word?]

end Segment

theorem scan_words (source : String) :
    (scan source).1.map (fun token => (token.kind, token.lexeme)) =
      (Segment.ofText source.toList).filterMap Segment.word? ++ [(.stop, "")] :=
  Segment.words_items 1 _

theorem map_words (source : String) :
    (words source).map (fun token => (token.kind, token.lexeme)) =
      (Segment.ofText source.toList).filterMap Segment.word? := by
  have all := scan_words source
  rw [scan_tokens, List.map_append] at all
  exact List.append_cancel_right all

/-- The tokens of a text have lexemes of their kinds. -/
theorem isLexeme_of_words {source : String} {token : Token} (inside : token ∈ words source) :
    IsLexeme token.lexeme.toList token.kind := by
  have word := List.mem_map_of_mem (f := fun token => (token.kind, token.lexeme)) inside
  rw [map_words] at word
  exact (Segment.tile_ofText source.toList).isLexeme _ word

/-- The tokens of a text can be written out again with any spacing: in front, between
them and behind. They are read without a fault as tokens with the same kinds, values and
lexemes. -/
theorem scan_spaced {source : String} {gap text : List Char} (spacing : IsSpacing gap)
    (spaced : Spaced (scan source).1.dropLast text) :
    (scan (String.ofList (gap ++ text))).2 = [] ∧
      (scan (String.ofList (gap ++ text))).1.map (fun token => (token.kind, token.lexeme)) =
        (scan source).1.dropLast.map (fun token => (token.kind, token.lexeme)) ++
          [(.stop, "")] := by
  have own : (scan source).1.dropLast = words source := by
    rw [scan_tokens, List.dropLast_concat]
  rw [own] at spaced ⊢
  have lexemes : ∀ token ∈ words source, IsLexeme token.lexeme.toList token.kind :=
    fun _ => isLexeme_of_words
  obtain ⟨others, tile, clean, words⟩ := Segment.tile_spaced spaced lexemes
  obtain ⟨segments, silent, behind⟩ := Segment.tile_spacing spacing
  have cut : Segment.ofText (gap ++ text) = segments ++ others :=
    (Segment.tile_ofText _).unique (behind text others tile)
  constructor
  · rw [scan_faults, String.toList_ofList, cut]
    intro segment inside
    rcases List.mem_append.mp inside with space | later
    · exact (silent segment space).1
    · exact clean segment later
  · have wordless : segments.filterMap Segment.word? = [] :=
      List.filterMap_eq_nil_iff.mpr fun segment space => (silent segment space).2
    rw [scan_words, String.toList_ofList, cut, List.filterMap_append, wordless, words,
      List.nil_append]

/-- A slash, a string of slashes and an equals sign with comments in between. -/
theorem scan_spaced_slashes :
    IsSpacing ['/', '/', '=', '\n'] ∧
      Spaced (scan "/\"//\"=").1.dropLast
        ("/".toList ++ ' ' :: ['/', '/', '\n'] ++ ("\"//\"".toList ++ '\t' :: [] ++ "=".toList)) ∧
      (scan (String.ofList (['/', '/', '=', '\n'] ++ ("/".toList ++ ' ' :: ['/', '/', '\n'] ++
        ("\"//\"".toList ++ '\t' :: [] ++ "=".toList))))).2 = [] ∧
      (scan (String.ofList (['/', '/', '=', '\n'] ++ ("/".toList ++ ' ' :: ['/', '/', '\n'] ++
        ("\"//\"".toList ++ '\t' :: [] ++ "=".toList))))).1.map
          (fun token => (token.kind, token.lexeme)) =
        (scan "/\"//\"=").1.dropLast.map (fun token => (token.kind, token.lexeme)) ++
          [(.stop, "")] := by
  have tokens : (scan "/\"//\"=").1.dropLast =
      [⟨.mark .slash, "/", 1⟩, ⟨.string "//", "\"//\"", 1⟩, ⟨.mark .equal, "=", 1⟩] := by
    decide +kernel
  have inLine : '\n' ∉ ['='] := by decide
  have spacing : IsSpacing ['/', '/', '=', '\n'] := .comment inLine .none
  have inNothing : '\n' ∉ ([] : List Char) := by decide
  have empty : IsSpacing ['/', '/', '\n'] := .comment inNothing .none
  have spaced : Spaced (scan "/\"//\"=").1.dropLast
      ("/".toList ++ ' ' :: ['/', '/', '\n'] ++
        ("\"//\"".toList ++ '\t' :: [] ++ "=".toList)) := by
    rw [tokens]
    exact .next _ (by decide) empty (.next _ (by decide) .none (.last _))
  exact ⟨spacing, spaced, scan_spaced spacing spaced⟩

end Lox
