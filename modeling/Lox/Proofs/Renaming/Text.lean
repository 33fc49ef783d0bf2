import Lox.Proofs.Renaming.Grammar
import Lox.Proofs.Token.Joining
import Lox.Proofs.Token.Longest

/-!
# Texts of renamed programs

Where an identifier stands in a text another one can stand as well: everything around it
is cut into the same segments as before. What a segment is depends on the characters
behind it, but not on which name starts there.
-/

namespace Lox

/-! ## Characters of names -/

/-- Letters and underscores, with which names start. -/
def StartsName (character : Char) : Prop :=
  character.isAlpha = true ∨ character = '_'

/-- Characters that can stand in a name behind its start. -/
def ContinuesName (character : Char) : Prop :=
  character.isAlphanum = true ∨ character = '_'

theorem StartsName.continues {character : Char} (starts : StartsName character) :
    ContinuesName character :=
  starts.imp_left isAlphanum_of_isAlpha

theorem not_startsName_of_isDigit {character : Char} (digit : character.isDigit = true) :
    ¬ StartsName character := by
  obtain ⟨letter, underscore, -⟩ := apart_of_isDigit digit
  simp [StartsName, letter, underscore]

/-- No mark has a character of names in it. -/
theorem Mark.not_startsName (mark : Mark) :
    ∀ character ∈ mark.spelling, ¬ StartsName character := by
  have plain : mark.spelling.all (fun character => !(character.isAlpha || character == '_')) =
      Bool.true := by
    cases mark <;> decide
  intro character inside starts
  have here := List.all_eq_true.mp plain character inside
  rcases starts with letter | rfl
  · rw [letter] at here
    nomatch here
  · nomatch here

/-! ## Texts that are the same up to a name -/

/-- Two texts are the same up to a place where both end or each of them has a name. -/
inductive SameUpToName : List Char → List Char → Prop where
  | done : SameUpToName [] []
  | name {letter letter' : Char} {rest rest' : List Char} (starts : StartsName letter)
      (starts' : StartsName letter') : SameUpToName (letter :: rest) (letter' :: rest')
  | same (character : Char) {rest rest' : List Char} (behind : SameUpToName rest rest') :
      SameUpToName (character :: rest) (character :: rest')

namespace SameUpToName

variable {after after' : List Char}

theorem append (same : SameUpToName after after') (front : List Char) :
    SameUpToName (front ++ after) (front ++ after') := by
  induction front with
  | nil => exact same
  | cons character _ ih => exact .same character ih

/-- What has no name in it starts both texts or none. -/
theorem prefix_of_unnamed (same : SameUpToName after after') {front : List Char}
    (unnamed : ∀ character ∈ front, ¬ StartsName character) (here : front <+: after') :
    front <+: after := by
  induction same generalizing front with
  | done => exact here
  | @name letter letter' _ _ _ starts' =>
      cases front with
      | nil => exact List.nil_prefix
      | cons character front =>
          obtain ⟨rfl, -⟩ := List.cons_prefix_cons.mp here
          exact absurd starts' (unnamed _ (.head _))
  | same _ _ ih =>
      cases front with
      | nil => exact List.nil_prefix
      | cons character front =>
          obtain ⟨rfl, later⟩ := List.cons_prefix_cons.mp here
          refine List.cons_prefix_cons.mpr ⟨rfl, ih (fun other inside => ?_) later⟩
          exact unnamed other (.tail _ inside)

/-- A name goes on in both texts or in none. -/
theorem exists_continues (same : SameUpToName after after') {character : Char} {rest : List Char}
    (continues : ContinuesName character) (here : character :: rest <+: after') :
    ∃ other, ContinuesName other ∧ [other] <+: after := by
  cases same with
  | done => nomatch List.prefix_nil.mp here
  | @name letter _ rest _ starts _ => exact ⟨letter, starts.continues, rest, rfl⟩
  | @same _ rest _ _ =>
      obtain ⟨rfl, -⟩ := List.cons_prefix_cons.mp here
      exact ⟨_, continues, rest, rfl⟩

end SameUpToName

/-! ## Lexemes that go on -/

namespace IsLexeme

variable {text extra after after' : List Char} {kind kind' : Token.Kind}

/-- A word is a keyword or an identifier. -/
theorem exists_word {letter : Char} {rest : List Char} (starts : StartsName letter)
    (continues : ∀ character ∈ rest, ContinuesName character) :
    ∃ kind, IsLexeme (letter :: rest) kind := by
  by_cases spelled : ∃ keyword : Keyword, keyword.spelling = letter :: rest
  · obtain ⟨keyword, spelled⟩ := spelled
    rw [← spelled]
    exact ⟨_, .keyword keyword⟩
  · exact ⟨_, .identifier starts continues fun keyword same => spelled ⟨keyword, same⟩⟩

/-- A word that goes on in one text does so in the other, perhaps with another
character. -/
theorem goesOn_word {letter : Char} {rest : List Char} (same : SameUpToName after after')
    (starts : StartsName letter) (continues : ∀ character ∈ rest, ContinuesName character)
    (further : ∀ character ∈ extra, ContinuesName character) (nonempty : extra ≠ [])
    (here : extra <+: after') :
    ∃ other, other ≠ [] ∧ other <+: after ∧ ∃ kind, IsLexeme (letter :: rest ++ other) kind := by
  cases extra with
  | nil => exact absurd rfl nonempty
  | cons character extra =>
      obtain ⟨other, goes, inside⟩ := same.exists_continues (further _ (.head _)) here
      refine ⟨[other], by simp, inside, exists_word starts ?_⟩
      exact List.forall_mem_append.mpr ⟨continues, by simpa using goes⟩

/-- A lexeme that goes on in one text does so in the other. -/
theorem goesOn (same : SameUpToName after after') (lexeme : IsLexeme text kind)
    (longer : IsLexeme (text ++ extra) kind') (nonempty : extra ≠ []) (here : extra <+: after') :
    ∃ other, other ≠ [] ∧ other <+: after ∧ ∃ kind, IsLexeme (text ++ other) kind := by
  have unnamed (plain : ∀ character ∈ text ++ extra, ¬ StartsName character) :
      ∃ other, other ≠ [] ∧ other <+: after ∧ ∃ kind, IsLexeme (text ++ other) kind :=
    ⟨extra, nonempty, same.prefix_of_unnamed (List.forall_mem_append.mp plain).2 here, _, longer⟩
  have named {letter : Char} {whole : List Char} (starts : StartsName letter)
      (shape : text ++ extra = letter :: whole)
      (continues : ∀ character ∈ whole, ContinuesName character) :
      ∃ other, other ≠ [] ∧ other <+: after ∧ ∃ kind, IsLexeme (text ++ other) kind := by
    cases text with
    | nil => exact absurd rfl lexeme.ne_nil
    | cons first rest =>
        obtain ⟨rfl, rfl⟩ := List.cons.inj shape
        obtain ⟨own, further⟩ := List.forall_mem_append.mp continues
        exact goesOn_word same starts own further nonempty here
  generalize shape : text ++ extra = whole at longer unnamed
  cases longer with
  | mark mark => exact unnamed mark.not_startsName
  | whole _ decimal =>
      exact unnamed fun character inside => not_startsName_of_isDigit (decimal character inside)
  | fraction _ decimal _ decimals =>
      refine unnamed (List.forall_mem_append.mpr ⟨fun character inside =>
        not_startsName_of_isDigit (decimal character inside), List.forall_mem_cons.mpr ⟨?_,
        fun character inside => not_startsName_of_isDigit (decimals character inside)⟩⟩)
      rintro (letter | underscore)
      · nomatch letter
      · exact absurd underscore (by decide)
  | @string body closed =>
      -- A string that is closed already has a quote in it, and does not go on.
      have starts : text.head? = some '"' := by
        cases text with
        | nil => exact absurd rfl lexeme.ne_nil
        | cons first rest => exact congrArg some (List.cons.inj shape).1
      obtain ⟨inner, rfl, -, -⟩ := lexeme.of_quote starts
      obtain rfl | ⟨more, last, rfl⟩ := List.eq_nil_or_concat extra
      · exact absurd rfl nonempty
      · have bodies : inner ++ '"' :: more = body := by
          have whole : (inner ++ '"' :: more) ++ [last] = body ++ ['"'] := by
            simpa using (List.cons.inj shape).2
          exact (List.append_inj' whole rfl).1
        exact absurd (bodies ▸ by simp) closed
  | keyword keyword =>
      obtain ⟨letter, rest, spelled, starts, continues⟩ := keyword.starts
      exact named (.inl starts) (shape.trans spelled) fun character inside =>
        .inl (isAlphanum_of_isAlpha (continues character inside))
  | identifier starts continues => exact named starts shape continues

end IsLexeme

namespace IsLongest

variable {text after after' : List Char} {kind : Token.Kind}

/-- Nothing is longer in a text if whatever is longer would go on in another one, where
nothing does. -/
theorem of_goesOn {old : List Char} {kind' : Token.Kind}
    (longest : IsLongest (old ++ after) old kind)
    (lexeme : IsLexeme text kind')
    (goesOn : ∀ extra longer, IsLexeme (text ++ extra) longer → extra ≠ [] → extra <+: after' →
      ∃ other, other ≠ [] ∧ other <+: after ∧ ∃ kind, IsLexeme (old ++ other) kind) :
    IsLongest (text ++ after') text kind' := by
  refine ⟨lexeme, List.prefix_append _ _, fun other otherKind found here => ?_⟩
  by_contra longer
  obtain ⟨extra, rfl⟩ : text <+: other :=
    List.prefix_of_prefix_length_le (List.prefix_append _ _) here (by omega)
  have nonempty : extra ≠ [] := by
    rintro rfl
    simp at longer
  obtain ⟨more, some, inside, _, again⟩ :=
    goesOn extra otherKind found nonempty ((List.prefix_append_right_inj text).mp here)
  have bound := longest.longest _ _ again ((List.prefix_append_right_inj old).mpr inside)
  rw [List.length_append] at bound
  exact some (List.eq_nil_of_length_eq_zero (by omega))

/-- A lexeme stays the longest one where another name stands behind it. -/
theorem swap (longest : IsLongest (text ++ after) text kind) (same : SameUpToName after after') :
    IsLongest (text ++ after') text kind :=
  longest.of_goesOn longest.lexeme fun _ _ => longest.lexeme.goesOn same

/-- Where an identifier is the longest lexeme another one is as well. -/
theorem swap_identifier {old new : List Char} (longest : IsLongest (old ++ after) old .identifier)
    (lexeme : IsLexeme new .identifier) (same : SameUpToName after after') :
    IsLongest (new ++ after') new .identifier := by
  refine longest.of_goesOn lexeme fun extra longer found nonempty here => ?_
  generalize kept : Token.Kind.identifier = kind at longest lexeme
  cases lexeme with
  | identifier starts _ _ =>
      have all := (found.of_startsName rfl starts).1
      cases longest.lexeme with
      | identifier starts' continues' _ =>
          exact IsLexeme.goesOn_word same starts' continues'
            (List.forall_mem_append.mp all).2 nonempty here
  | _ => nomatch kept

end IsLongest

/-! ## Segments -/

/-- A segment that stays or has the new name in place of the old one. -/
inductive Segment.Respelled (respelling : Respelling) : Segment → Segment → Prop where
  | same (segment : Segment) : Segment.Respelled respelling segment segment
  | renamed : Segment.Respelled respelling (.lexeme .identifier respelling.old.toList)
      (.lexeme .identifier respelling.new.toList)

/-- Both names are identifiers. -/
structure Respelling.Identifiers (respelling : Respelling) : Prop where
  old : IsLexeme respelling.old.toList .identifier
  new : IsLexeme respelling.new.toList .identifier

/-- A text in which some identifiers have the new name in place of the old one. -/
def Respelling.Text (respelling : Respelling) (source source' : String) : Prop :=
  List.Forall₂ (Segment.Respelled respelling) (Segment.ofText source.toList)
    (Segment.ofText source'.toList)

namespace Segment

variable {respelling : Respelling} {after after' : List Char} {segment : Segment}

/-- A segment without fault stays one where another name stands behind it. -/
theorem Stands.swap (stands : Stands (segment.text ++ after) segment)
    (faultless : segment.isFaulty = false) (same : SameUpToName after after') :
    Stands (segment.text ++ after') segment := by
  generalize shape : segment.text ++ after = source at stands
  cases stands with
  | blank blank => exact .blank blank
  | @comment body rest inLine ends =>
      refine .comment inLine ?_
      obtain rfl : after = rest := @List.append_cancel_left _ ('/' :: '/' :: body) _ _ shape
      rcases ends with rfl | stops
      · cases same
        exact .inl rfl
      · cases same with
        | done => exact .inl rfl
        | name starts =>
            obtain rfl := Option.some.inj stops
            rcases starts with letter | underscore
            · nomatch letter
            · exact absurd underscore (by decide)
        | same => exact .inr stops
  | lexeme plain longest =>
      subst shape
      refine .lexeme (fun slashes => plain ?_) (longest.swap same)
      refine (same.append _).prefix_of_unnamed (fun character inside => ?_) slashes
      obtain rfl : character = '/' := by simpa using inside
      rintro (letter | underscore)
      · nomatch letter
      · exact absurd underscore (by decide)
  | stray => nomatch faultless
  | openString => nomatch faultless

theorem text_startsName {text : List Char} (lexeme : IsLexeme text .identifier) :
    ∃ letter rest, text = letter :: rest ∧ StartsName letter := by
  generalize kept : Token.Kind.identifier = kind at lexeme
  cases lexeme with
  | identifier starts => exact ⟨_, _, rfl, starts⟩
  | _ => nomatch kept

/-- Where an identifier stands another one can stand. -/
theorem Stands.rename {old new : List Char}
    (stands : Stands (old ++ after) (.lexeme .identifier old))
    (lexeme : IsLexeme new .identifier) (same : SameUpToName after after') :
    Stands (new ++ after') (.lexeme .identifier new) := by
  generalize shape : old ++ after = source at stands
  cases stands with
  | lexeme plain longest =>
      subst shape
      refine .lexeme ?_ (longest.swap_identifier lexeme same)
      obtain ⟨letter, rest, rfl, starts⟩ := text_startsName lexeme
      intro slashes
      obtain ⟨rfl, -⟩ := List.cons_prefix_cons.mp slashes
      rcases starts with letter | underscore
      · nomatch letter
      · exact absurd underscore (by decide)

/-- Segments without fault are still cut rightly with the new name in place of the old
one. -/
theorem Tile.respelled (names : respelling.Identifiers) {source : List Char}
    {segments : List Segment} (tile : Tile source segments) :
    ∀ {segments'}, (∀ segment ∈ segments, segment.isFaulty = false) →
      List.Forall₂ (Segment.Respelled respelling) segments segments' →
      Tile (segments'.flatMap text) segments' ∧ SameUpToName source (segments'.flatMap text) := by
  induction tile with
  | done =>
      rintro _ - (_ | _)
      exact ⟨.done, .done⟩
  | @next after segment rest stands _ ih =>
      rintro _ faultless (_ | @⟨_, _, _, rest', head, tail⟩)
      obtain ⟨behind, same⟩ := ih (fun other inside => faultless other (.tail _ inside)) tail
      cases head with
      | same => exact ⟨.next (stands.swap (faultless _ (.head _)) same) behind, same.append _⟩
      | renamed =>
          refine ⟨.next (stands.rename names.new same) behind, ?_⟩
          obtain ⟨letter, front, spelled, starts⟩ := text_startsName names.old
          obtain ⟨letter', front', spelled', starts'⟩ := text_startsName names.new
          rw [List.flatMap_cons]
          simp only [text, spelled, spelled']
          exact .name starts starts'

/-- The text of segments with the new name is cut into these segments. -/
theorem ofText_respelled (names : respelling.Identifiers) {source : List Char}
    {segments : List Segment} (faultless : ∀ segment ∈ ofText source, segment.isFaulty = false)
    (respelled : List.Forall₂ (Segment.Respelled respelling) (ofText source) segments) :
    ofText (segments.flatMap text) = segments :=
  (tile_ofText _).unique ((tile_ofText source).respelled names faultless respelled).1

/-! ## Tokens of segments -/

/-- An identifier ends on the line it starts on. -/
theorem lineFeeds_identifier {name : List Char} (lexeme : IsLexeme name .identifier) :
    (Segment.lexeme .identifier name).lineFeeds = 0 := by
  have plain {character : Char} (continues : ContinuesName character) : character ≠ '\n' := by
    rintro rfl
    rcases continues with letter | underscore
    · nomatch letter
    · exact absurd underscore (by decide)
  generalize kept : Token.Kind.identifier = kind at lexeme
  cases lexeme with
  | identifier starts continues _ =>
      refine List.count_eq_zero.mpr fun inside => ?_
      rcases List.mem_cons.mp inside with same | later
      · exact plain (StartsName.continues starts) same.symm
      · exact plain (continues _ later) rfl
  | _ => nomatch kept

/-- Renamed tokens are those of renamed segments. -/
theorem exists_respelled (names : respelling.Identifiers) (segments : List Segment) :
    ∀ (line : Nat) {tokens' : List Token},
      List.Forall₂ (Token.Respelled respelling) (tokens line segments) tokens' →
      ∃ segments', List.Forall₂ (Segment.Respelled respelling) segments segments' ∧
        tokens line segments' = tokens' := by
  induction segments with
  | nil =>
      rintro line _ (_ | _)
      exact ⟨[], .nil, rfl⟩
  | cons segment rest ih =>
      intro line tokens' respelled
      have silent (none : (segment.item? (line + segment.lineFeeds)).bind Item.token? = none) :
          ∃ segments', List.Forall₂ (Segment.Respelled respelling) (segment :: rest) segments' ∧
            tokens line segments' = tokens' := by
        rw [tokens, none] at respelled
        obtain ⟨segments', renamed, same⟩ := ih _ respelled
        exact ⟨segment :: segments', .cons (.same segment) renamed,
          by rw [tokens, none]; exact same⟩
      cases segment with
      | blank | comment | stray | openString => exact silent rfl
      | lexeme kind text =>
          rw [tokens] at respelled
          obtain _ | @⟨_, token', _, _, head, tail⟩ := respelled
          obtain ⟨segments', renamed, rfl⟩ := ih _ tail
          rcases head with rfl | ⟨rfl, spelled, rfl⟩
          · exact ⟨.lexeme kind text :: segments', .cons (.same _) renamed, rfl⟩
          · obtain rfl : text = respelling.old.toList := by
              rw [← spelled, String.toList_ofList]
            refine ⟨.lexeme .identifier respelling.new.toList :: segments',
              .cons .renamed renamed, ?_⟩
            simp only [tokens, lineFeeds_identifier names.old, lineFeeds_identifier names.new]
            simp [item?, Item.token?]

theorem isFaulty_respelled {segments segments' : List Segment}
    (respelled : List.Forall₂ (Segment.Respelled respelling) segments segments')
    (faultless : ∀ segment ∈ segments, segment.isFaulty = false) :
    ∀ segment ∈ segments', segment.isFaulty = false := by
  induction respelled with
  | nil => exact faultless
  | cons head _ ih =>
      obtain ⟨first, later⟩ := List.forall_mem_cons.mp faultless
      refine List.forall_mem_cons.mpr ⟨?_, ih later⟩
      cases head with
      | same => exact first
      | renamed => rfl

end Segment

/-- Whatever tokens of a text are renamed, there is a text with these tokens that has
the new name in place of the old one there, and no fault. -/
theorem exists_text {respelling : Respelling} (names : respelling.Identifiers) {source : String}
    (clean : (scan source).2 = []) {tokens' : List Token}
    (respelled : List.Forall₂ (Token.Respelled respelling) (words source) tokens') :
    ∃ source', respelling.Text source source' ∧ (scan source').2 = [] ∧
      words source' = tokens' := by
  have faultless := (scan_faults source).mp clean
  obtain ⟨segments, renamed, same⟩ := Segment.exists_respelled names _ 1 respelled
  have cut := Segment.ofText_respelled names faultless renamed
  refine ⟨String.ofList (segments.flatMap Segment.text), ?_, ?_, ?_⟩
  · rwa [Respelling.Text, String.toList_ofList, cut]
  · rw [scan_faults, String.toList_ofList, cut]
    exact Segment.isFaulty_respelled renamed faultless
  · rwa [words, String.toList_ofList, cut]

end Lox
