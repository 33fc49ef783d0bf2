import Lox.Proofs.Token.Longest

/-!
# The lines of items

The items of a text stand in it one behind another, with nothing but layout and
comments in between. The line of an item is one more than the number of line feeds
up to the end of its own text, wherever these are: in layout, in strings, in front of
faults or behind comments.
-/

namespace Lox

/-- Characters of layout and comments in front of other text. A comment goes up to
the end of its line. -/
inductive IsLayout : List Char → List Char → Prop where
  | none {behind : List Char} : IsLayout [] behind
  | blank {character : Char} {rest behind : List Char} (blank : character ∈ layout)
      (others : IsLayout rest behind) : IsLayout (character :: rest) behind
  | comment {body rest behind : List Char} (inLine : '\n' ∉ body)
      (ends : rest ++ behind = [] ∨ (rest ++ behind).head? = some '\n')
      (others : IsLayout rest behind) : IsLayout ('/' :: '/' :: body ++ rest) behind

/-- The text of an item that is not the closing token, in front of other text. Of
these items only an open string tells what stands behind it, which is nothing. -/
inductive Item.IsText : Item → List Char → List Char → Prop where
  | token {kind : Token.Kind} {text : List Char} (line : Nat) (behind : List Char)
      (lexeme : IsLexeme text kind) :
      IsText (.token ⟨kind, String.ofList text, line⟩) text behind
  | unexpected (line : Nat) (character : Char) (behind : List Char) :
      IsText (.fault (.lexical line (.unexpectedCharacter character))) [character] behind
  | unterminated (line : Nat) {body : List Char} (unclosed : '"' ∉ body) :
      IsText (.fault (.lexical line .unterminatedString)) ('"' :: body) []

/-- Items stand in a text behind a part of it that is passed already. Each comes with
the whole text up to its own end; that of the closing token is all there is. -/
inductive Stand : List Char → List Char → List (Item × List Char) → Prop where
  | closing {passed gap : List Char} (line : Nat) (layout : IsLayout gap []) :
      Stand passed gap [(.token (.atEnd line), passed ++ gap)]
  | next {passed gap own behind : List Char} {item : Item} {rest : List (Item × List Char)}
      (layout : IsLayout gap (own ++ behind)) (text : item.IsText own behind)
      (others : Stand (passed ++ gap ++ own) behind rest) :
      Stand passed (gap ++ own ++ behind) ((item, passed ++ gap ++ own) :: rest)

theorem IsLayout.append {front back behind : List Char} (first : IsLayout front (back ++ behind))
    (second : IsLayout back behind) : IsLayout (front ++ back) behind := by
  generalize same : back ++ behind = all at first
  induction first with
  | none => exact second
  | blank blank _ ih => exact .blank blank (ih same)
  | @comment body rest _ inLine ends _ ih =>
      subst same
      rw [List.append_assoc]
      exact .comment inLine (by simpa using ends) (ih rfl)

/-- Layout in front of the items belongs to what is in front of the first of them. -/
theorem Stand.behind_layout {passed gap source : List Char} {placed : List (Item × List Char)}
    (stand : Stand (passed ++ gap) source placed) (layout : IsLayout gap source) :
    Stand passed (gap ++ source) placed := by
  generalize same : passed ++ gap = front at stand
  cases stand with
  | closing line others =>
      subst same
      rw [List.append_assoc]
      rw [← List.append_nil source] at layout
      exact .closing line (layout.append others)
  | next others text items =>
      subst same
      rw [List.append_assoc] at layout
      have widened := Stand.next (layout.append others) text
        (by simpa only [List.append_assoc] using items)
      simpa only [List.append_assoc] using widened

/-- Items stand in a text behind a part of it that is passed already, each on the line
on which its own text ends. -/
def Lined (passed source : List Char) (items : List Item) : Prop :=
  ∃ placed, Stand passed source placed ∧ placed.map Prod.fst = items ∧
    ∀ item upTo, (item, upTo) ∈ placed → item.line = 1 + upTo.count '\n'

namespace Lined

variable {passed own behind gap : List Char} {items : List Item}

theorem closing (passed : List Char) :
    Lined passed [] [.token (.atEnd (1 + passed.count '\n'))] := by
  refine ⟨_, .closing (1 + passed.count '\n') .none, rfl, ?_⟩
  intro item upTo membership
  cases List.mem_singleton.mp membership
  simp [Item.line, Token.atEnd]

theorem behind_layout (lined : Lined (passed ++ gap) behind items)
    (layout : IsLayout gap behind) : Lined passed (gap ++ behind) items := by
  obtain ⟨placed, stand, same, lines⟩ := lined
  exact ⟨placed, stand.behind_layout layout, same, lines⟩

theorem cons {item : Item} (text : item.IsText own behind)
    (line : item.line = 1 + (passed ++ own).count '\n')
    (lined : Lined (passed ++ own) behind items) :
    Lined passed (own ++ behind) (item :: items) := by
  obtain ⟨placed, stand, same, lines⟩ := lined
  rw [← List.append_nil passed] at stand line
  refine ⟨_, .next .none text stand, congrArg _ same, ?_⟩
  intro other upTo membership
  rcases List.mem_cons.mp membership with here | later
  · cases here
    exact line
  · exact lines other upTo later

end Lined

namespace Segment

/-- What a segment that stands in a text adds to the items behind it: layout nothing,
and every other segment an item. -/
theorem Stands.lined {passed after : List Char} {segment : Segment} {rest : List Segment}
    (stands : Stands (segment.text ++ after) segment)
    (behind : Lined (passed ++ segment.text) after
      (items (1 + (passed ++ segment.text).count '\n') rest)) :
    Lined passed (segment.text ++ after) (items (1 + passed.count '\n') (segment :: rest)) := by
  have line : 1 + passed.count '\n' + segment.lineFeeds =
      1 + (passed ++ segment.text).count '\n' := by
    rw [List.count_append, lineFeeds, Nat.add_assoc]
  rw [items, line]
  generalize shape : segment.text ++ after = source at stands
  cases stands with
  | blank blank => exact shape ▸ behind.behind_layout (.blank blank .none)
  | @comment body rest inLine ends =>
      obtain rfl : after = rest := List.append_inj_right shape rfl
      have layout : IsLayout ('/' :: '/' :: body ++ []) after := .comment inLine ends .none
      rw [List.append_nil] at layout
      exact behind.behind_layout layout
  | lexeme _ longest => exact shape ▸ behind.cons (.token _ after longest.lexeme) rfl
  | stray => exact shape ▸ behind.cons (.unexpected _ _ after) rfl
  | @openString body unclosed =>
      obtain rfl : after = [] := List.append_right_eq_self.mp shape
      exact shape ▸ behind.cons (.unterminated _ unclosed) rfl

/-- The items of a text that is cut rightly are on the lines on which they end. -/
theorem Tile.lined {source : List Char} {segments : List Segment} (tile : Tile source segments)
    (passed : List Char) : Lined passed source (items (1 + passed.count '\n') segments) := by
  induction tile generalizing passed with
  | done => exact .closing passed
  | next stands _ ih => exact stands.lined (ih _)

end Segment

/-- Every item of a text, the closing token and the faults included, is on the line
that is one more than the number of line feeds up to the end of its own text. -/
theorem TokenStream.line_exact (source : String) :
    ∃ placed, Stand [] source.toList placed ∧
      (∀ calls, (ofText source).answer calls = (placed.map Prod.fst)[calls]?) ∧
      ∀ item upTo, (item, upTo) ∈ placed → item.line = 1 + upTo.count '\n' := by
  obtain ⟨placed, stand, same, lines⟩ := (Segment.tile_ofText source.toList).lined []
  refine ⟨placed, stand, fun calls => ?_, lines⟩
  rw [answer_eq, same]
  rfl

end Lox
