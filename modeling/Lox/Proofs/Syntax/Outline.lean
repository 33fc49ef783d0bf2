import Lox.Syntax.PrefixForm
import Mathlib.Data.List.TakeWhile

/-!
# Outlines of texts in prefix form

What the brackets and spaces of a text in prefix form tell about it. An outline has words,
and heads with outlines behind them in brackets. Its words say nothing yet about the tree. If
no word holds a space or a bracket, then the outline is known by its text.
-/

namespace Lox

/-- A word, or a head in brackets with outlines behind it. -/
inductive Outline where
  | word (letters : String)
  | node (head : String) (parts : List Outline)
  deriving Inhabited

namespace Outline

mutual

/-- The text of an outline. -/
def text : Outline → List Char
  | word letters => letters.toList
  | node head parts => '(' :: (head.toList ++ textBehind parts)

/-- The text behind a head: a space in front of every part, and then the closing bracket. -/
def textBehind : List Outline → List Char
  | [] => [')']
  | first :: rest => ' ' :: (first.text ++ textBehind rest)

end

/-- Characters that stand in words. -/
def staysInWord (character : Char) : Bool :=
  character != ' ' && character != '(' && character != ')'

/-- A word has characters, and none that would end it. -/
structure IsWord (letters : String) : Prop where
  nonempty : letters.toList ≠ []
  stays : ∀ character ∈ letters.toList, staysInWord character = true

theorem isWord_iff (letters : String) :
    letters.toList ≠ [] ∧ letters.toList.all staysInWord = true ↔ IsWord letters := by
  rw [List.all_eq_true]
  exact ⟨fun ⟨nonempty, stays⟩ => ⟨nonempty, stays⟩, fun isWord => ⟨isWord.nonempty, isWord.stays⟩⟩

instance (letters : String) : Decidable (IsWord letters) :=
  decidable_of_iff _ (isWord_iff letters)

mutual

/-- The words of an outline are words. -/
def Legible : Outline → Prop
  | word letters => IsWord letters
  | node head parts => IsWord head ∧ ListLegible parts

/-- The words of several outlines are words. -/
def ListLegible : List Outline → Prop
  | [] => True
  | first :: rest => first.Legible ∧ ListLegible rest

end

/-- No word goes on with the first character of a text. -/
def IsEnd (behind : List Char) : Prop :=
  ∀ character ∈ behind.head?, staysInWord character = false

theorem isEnd_textBehind (parts : List Outline) (behind : List Char) :
    IsEnd (textBehind parts ++ behind) := by
  cases parts <;> simp [IsEnd, textBehind, staysInWord]

variable {behind behind' : List Char}

/-- A word ends where no word can go on. -/
theorem word_unique {letters letters' : String} (isWord : IsWord letters)
    (isWord' : IsWord letters') (ends : IsEnd behind) (ends' : IsEnd behind')
    (same : letters.toList ++ behind = letters'.toList ++ behind') :
    letters = letters' ∧ behind = behind' := by
  have front {letters : String} {behind : List Char} (isWord : IsWord letters)
      (ends : IsEnd behind) :
      (letters.toList ++ behind).takeWhile staysInWord = letters.toList := by
    have stops : behind.takeWhile staysInWord = [] := by
      cases behind with
      | nil => rfl
      | cons character rest => simp [ends character rfl]
    rw [List.takeWhile_append_of_pos isWord.stays, stops, List.append_nil]
  have words : letters.toList = letters'.toList := by
    rw [← front isWord ends, same, front isWord' ends']
  rw [words] at same
  exact ⟨String.toList_inj.mp words, List.append_cancel_left same⟩

/-- No word starts with a bracket. -/
theorem word_ne_node {letters : String} {text : List Char} (isWord : IsWord letters) :
    letters.toList ++ behind ≠ '(' :: text := by
  intro same
  obtain ⟨first, rest, shape⟩ := List.exists_cons_of_ne_nil isWord.nonempty
  rw [shape] at same
  have stays := isWord.stays first (by simp [shape])
  obtain ⟨rfl, -⟩ := List.cons.inj same
  exact absurd stays (by decide)

mutual

/-- An outline, and what is behind it, are known by the text if no word goes on behind it. -/
theorem text_unique : (one other : Outline) → {behind behind' : List Char} → one.Legible →
    other.Legible → IsEnd behind → IsEnd behind' → one.text ++ behind = other.text ++ behind' →
    one = other ∧ behind = behind'
  | word letters, word letters', _, _, legible, legible', ends, ends', same => by
      rw [Legible] at legible legible'
      rw [text, text] at same
      obtain ⟨rfl, rfl⟩ := word_unique legible legible' ends ends' same
      exact ⟨rfl, rfl⟩
  | word letters, node head parts, _, _, legible, _, _, _, same => by
      rw [Legible] at legible
      rw [text, text] at same
      exact absurd same (word_ne_node legible)
  | node head parts, word letters, _, _, _, legible, _, _, same => by
      rw [Legible] at legible
      rw [text, text] at same
      exact absurd same.symm (word_ne_node legible)
  | node head parts, node head' parts', _, _, legible, legible', _, _, same => by
      rw [Legible] at legible legible'
      rw [text, text, List.cons_append, List.cons_append, List.append_assoc,
        List.append_assoc] at same
      obtain ⟨rfl, inside⟩ := word_unique legible.1 legible'.1 (isEnd_textBehind _ _)
        (isEnd_textBehind _ _) (List.cons.inj same).2
      obtain ⟨rfl, rfl⟩ := textBehind_unique parts parts' legible.2 legible'.2 inside
      exact ⟨rfl, rfl⟩

/-- The parts behind a head end with the bracket that closes the node. -/
theorem textBehind_unique : (parts parts' : List Outline) → {behind behind' : List Char} →
    ListLegible parts → ListLegible parts' →
    textBehind parts ++ behind = textBehind parts' ++ behind' → parts = parts' ∧ behind = behind'
  | [], [], _, _, _, _, same => by simpa [textBehind] using same
  | [], _ :: _, _, _, _, _, same => by simp [textBehind] at same
  | _ :: _, [], _, _, _, _, same => by simp [textBehind] at same
  | first :: rest, first' :: rest', _, _, legible, legible', same => by
      rw [ListLegible] at legible legible'
      rw [textBehind, textBehind, List.cons_append, List.cons_append, List.append_assoc,
        List.append_assoc] at same
      obtain ⟨rfl, remaining⟩ := text_unique first first' legible.1 legible'.1
        (isEnd_textBehind _ _) (isEnd_textBehind _ _) (List.cons.inj same).2
      obtain ⟨rfl, rfl⟩ := textBehind_unique rest rest' legible.2 legible'.2 remaining
      exact ⟨rfl, rfl⟩

end

/-- An outline is known by its text. -/
theorem text_injective {one other : Outline} (legible : one.Legible) (legible' : other.Legible)
    (same : one.text = other.text) : one = other := by
  have nothing : IsEnd [] := by simp [IsEnd]
  have closed : one.text ++ [] = other.text ++ [] := by rw [same]
  exact (text_unique one other legible legible' nothing nothing closed).1

end Outline

/-! ## Outlines of expressions -/

mutual

/-- The outline of an expression. -/
def Expr.outline : Expr → Outline
  | .literal value => .word value.prefixText
  | .grouping inner => .node "group" [inner.outline]
  | .unary operator operand => .node operator.lexeme [operand.outline]
  | .binary left operator right => .node operator.lexeme [left.outline, right.outline]
  | .logical left operator right => .node operator.lexeme [left.outline, right.outline]
  | .variable reference => .word reference.name.lexeme
  | .assign reference value => .node "=" [.word reference.name.lexeme, value.outline]
  | .call callee _ arguments => .node "call" (callee.outline :: Expr.outlines arguments)
  | .get object name => .node "." [.word name.lexeme, object.outline]
  | .set object name value =>
      .node "=" [.word ".", .word name.lexeme, object.outline, value.outline]
  | .this _ => .word "this"
  | .super _ method => .node "super" [.word method.lexeme]

/-- The outlines of several expressions. -/
def Expr.outlines : List Expr → List Outline
  | [] => []
  | first :: rest => first.outline :: Expr.outlines rest

end

/-- What is written in brackets is the text of a node. -/
theorem bracketed_eq {head : String} {parts : List String} {outlines : List Outline}
    (texts : parts.map String.toList = outlines.map Outline.text) :
    (bracketed head parts).toList = (Outline.node head outlines).text := by
  have behind : (" ".intercalate (head :: parts)).toList ++ [')'] =
      head.toList ++ Outline.textBehind outlines := by
    induction parts generalizing head outlines with
    | nil =>
        obtain rfl : outlines = [] := by simpa using texts.symm
        simp [Outline.textBehind]
    | cons first rest ih =>
        cases outlines with
        | nil => cases texts
        | cons outline others =>
            obtain ⟨here, later⟩ := List.cons.inj texts
            have remaining : (" ".intercalate (first :: rest)).toList ++ [')'] =
                first.toList ++ Outline.textBehind others := ih later
            rw [String.intercalate_cons_cons, String.toList_append, String.toList_append,
              List.append_assoc, List.append_assoc, remaining, Outline.textBehind, ← here]
            rfl
  rw [bracketed, Outline.text, ← behind, String.toList_append, String.toList_append]
  rfl

mutual

/-- The prefix form of an expression is the text of its outline. -/
theorem Expr.text_outline : (value : Expr) → value.outline.text = value.prefixForm.toList
  | .literal value => by rw [outline, prefixForm, Outline.text]
  | .grouping inner => by
      rw [outline, prefixForm, bracketed_eq]
      simp [text_outline inner]
  | .unary operator operand => by
      rw [outline, prefixForm, bracketed_eq]
      simp [text_outline operand]
  | .binary left operator right => by
      rw [outline, prefixForm, bracketed_eq]
      simp [text_outline left, text_outline right]
  | .logical left operator right => by
      rw [outline, prefixForm, bracketed_eq]
      simp [text_outline left, text_outline right]
  | .variable reference => by rw [outline, prefixForm, Outline.text]
  | .assign reference value => by
      rw [outline, prefixForm, bracketed_eq]
      simp [Outline.text, text_outline value]
  | .call callee paren arguments => by
      rw [outline, prefixForm, bracketed_eq]
      simp [text_outline callee, map_text_outlines arguments]
  | .get object name => by
      rw [outline, prefixForm, bracketed_eq]
      simp [Outline.text, text_outline object]
  | .set object name value => by
      rw [outline, prefixForm, bracketed_eq]
      simp [Outline.text, text_outline object, text_outline value]
  | .this _ => by rw [outline, prefixForm, Outline.text]
  | .super _ method => by
      rw [outline, prefixForm, bracketed_eq]
      simp [Outline.text]

theorem Expr.map_text_outlines : (values : List Expr) →
    (Expr.outlines values).map Outline.text = (Expr.prefixForms values).map String.toList
  | [] => by rw [outlines, prefixForms]; rfl
  | first :: rest => by
      rw [outlines, prefixForms, List.map_cons, List.map_cons, text_outline first,
        map_text_outlines rest]

end

end Lox
