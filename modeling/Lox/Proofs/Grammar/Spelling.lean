import Lox.Proofs.Grammar.Leaves
import Lox.Proofs.Token.Spacing

/-!
# How the tokens of a tree are spelled

The rules fix the kinds of the tokens that an expression keeps, and the kind of a mark or a
keyword fixes its spelling. So in an expression that was read from a text, every operator is
spelled like an operator of its node, and every name like a name.
-/

namespace Lox

/-- A token of one of some kinds, with a lexeme of its kind. -/
structure Token.Fits (kinds : List Token.Kind) (token : Token) : Prop where
  kind : token.kind ∈ kinds
  lexeme : IsLexeme token.lexeme.toList token.kind

namespace Grammar

/-- The operators in front of one operand. -/
def unaryOperators : List Token.Kind :=
  [.mark .bang, .mark .minus]

/-- The operators between two operands, both of which are evaluated. -/
def binaryOperators : List Token.Kind :=
  [.mark .bangEqual, .mark .equalEqual, .mark .greater, .mark .greaterEqual, .mark .less,
    .mark .lessEqual, .mark .minus, .mark .plus, .mark .slash, .mark .star]

/-- The operators between two operands, the second of which may not be evaluated. -/
def logicalOperators : List Token.Kind :=
  [.keyword .or, .keyword .and]

end Grammar

open Grammar

mutual

/-- The tokens in an expression fit the places where they stand. -/
def Expr.Spelled : Expr → Prop
  | .literal _ => True
  | .grouping inner => inner.Spelled
  | .unary operator operand => operator.Fits unaryOperators ∧ operand.Spelled
  | .binary left operator right =>
      left.Spelled ∧ operator.Fits binaryOperators ∧ right.Spelled
  | .logical left operator right =>
      left.Spelled ∧ operator.Fits logicalOperators ∧ right.Spelled
  | .variable reference => reference.name.Fits [.identifier]
  | .assign reference value => reference.name.Fits [.identifier] ∧ value.Spelled
  | .call callee paren arguments =>
      callee.Spelled ∧ Expr.ListSpelled arguments ∧ paren.Fits [.mark .rightParen]
  | .get object name => object.Spelled ∧ name.Fits [.identifier]
  | .set object name value => object.Spelled ∧ name.Fits [.identifier] ∧ value.Spelled
  | .this reference => reference.name.Fits [.keyword .this]
  | .super reference method =>
      reference.name.Fits [.keyword .super] ∧ method.Fits [.identifier]

/-- The tokens in several expressions fit the places where they stand. -/
def Expr.ListSpelled : List Expr → Prop
  | [] => True
  | first :: rest => first.Spelled ∧ Expr.ListSpelled rest

end

theorem Expr.listSpelled_iff {values : List Expr} :
    Expr.ListSpelled values ↔ ∀ value ∈ values, value.Spelled := by
  induction values with
  | nil => simp [Expr.ListSpelled]
  | cons first rest ih => simp [Expr.ListSpelled, ih]

/-! ## Leaves that are lexemes -/

/-- The tokens at leaves have lexemes of their kinds. -/
def Lexical (leaves : List Leaf) : Prop :=
  ∀ token, .kept token ∈ leaves → IsLexeme token.lexeme.toList token.kind

section Leaves

variable {leaves others : List Leaf} {token : Token} {kind : Token.Kind}

@[simp] theorem lexical_nil : Lexical [] := by
  simp [Lexical]

@[simp] theorem lexical_word : Lexical (.word kind :: leaves) ↔ Lexical leaves := by
  simp [Lexical]

@[simp] theorem lexical_kept : Lexical (.kept token :: leaves) ↔
    IsLexeme token.lexeme.toList token.kind ∧ Lexical leaves := by
  simp [Lexical]

@[simp] theorem lexical_append : Lexical (leaves ++ others) ↔ Lexical leaves ∧ Lexical others := by
  simp only [Lexical, List.mem_append, or_imp, forall_and]

theorem lexical_listLeaves {values : List Expr} :
    Lexical (Expr.listLeaves values) ↔ ∀ value ∈ values, Lexical value.leaves := by
  induction values with
  | nil => simp
  | cons first rest ih =>
      cases rest with
      | nil => simp
      | cons second others => rw [Expr.listLeaves, List.forall_mem_cons, ← ih]; simp

/-- Leaves that match lexemes are lexical. -/
theorem Leaf.lexical_of_matches {tokens : List Token}
    (matched : List.Forall₂ Leaf.Matches leaves tokens)
    (lexemes : ∀ token ∈ tokens, IsLexeme token.lexeme.toList token.kind) : Lexical leaves := by
  induction matched with
  | nil => simp
  | @cons leaf token leaves tokens here _ ih =>
      rw [List.forall_mem_cons] at lexemes
      have later := ih lexemes.2
      cases leaf with
      | kept expected =>
          rw [Leaf.Matches] at here
          subst here
          exact lexical_kept.mpr ⟨lexemes.1, later⟩
      | word kind => exact lexical_word.mpr later

end Leaves

/-! ## The rules spell what they build -/

namespace Grammar

/-- What a rule builds of lexemes is spelled as it should be. -/
def Rule.Fits (rule : Rule Expr) : Prop :=
  ∀ ⦃before value after⦄, rule before value after → Lexical value.leaves → value.Spelled

theorem fits_of_eq {token : Token} {kind : Token.Kind} (same : token.kind = kind)
    (lexeme : IsLexeme token.lexeme.toList token.kind) : token.Fits [kind] :=
  ⟨by simp [same], lexeme⟩

theorem fits_build {level : Level} (known : level ∈ levels) {operator : Token}
    (member : operator.kind ∈ level.operators) {left right : Expr}
    (lexical : Lexical (level.build left operator right).leaves)
    (fitsLeft : Lexical left.leaves → left.Spelled)
    (fitsRight : Lexical right.leaves → right.Spelled) :
    (level.build left operator right).Spelled := by
  simp only [levels, List.mem_cons, List.not_mem_nil, or_false] at known
  rcases known with rfl | rfl | rfl | rfl | rfl | rfl <;>
    simp only [Expr.leaves, lexical_append, lexical_kept] at lexical <;>
    refine ⟨fitsLeft lexical.1, ⟨?_, lexical.2.1⟩, fitsRight lexical.2.2⟩ <;>
    simp only [List.mem_cons, List.not_mem_nil, or_false] at member <;>
    simp only [logicalOperators, binaryOperators, List.mem_cons] <;>
    tauto

section Expressions

variable {inner : Rule Expr} (fits : inner.Fits)
include fits

theorem fits_primary : (Primary inner).Fits := by
  intro before value after derivation lexical
  cases derivation with
  | literal => simp [Expr.Spelled]
  | this kind =>
      simp only [Expr.leaves, lexical_kept] at lexical
      exact fits_of_eq kind lexical.1
  | reference kind =>
      simp only [Expr.leaves, lexical_kept] at lexical
      exact fits_of_eq kind lexical.1
  | group _ value =>
      simp only [Expr.leaves, lexical_word, lexical_append] at lexical
      rw [Expr.Spelled]
      exact fits value lexical.1
  | super keyword _ method =>
      simp only [Expr.leaves, lexical_kept, lexical_word] at lexical
      exact ⟨fits_of_eq keyword lexical.1, fits_of_eq method lexical.2.1⟩

theorem fits_arguments {before after : List Token} {arguments : List Expr}
    (derivation : Listed inner before arguments after)
    (lexical : Lexical (Expr.listLeaves arguments)) : Expr.ListSpelled arguments := by
  rw [lexical_listLeaves] at lexical
  rw [Expr.listSpelled_iff]
  cases derivation with
  | none => simp
  | some derivation length =>
      clear length
      induction derivation with
      | last value => simpa using fits value (lexical _ (by simp))
      | more first _ _ ih =>
          rw [List.forall_mem_cons] at lexical ⊢
          exact ⟨fits first lexical.1, ih lexical.2⟩

theorem fits_call : (Call inner).Fits := by
  intro before value after derivation lexical
  induction derivation with
  | primary value => exact fits_primary fits value lexical
  | call _ _ arguments paren ih =>
      simp only [Expr.leaves, lexical_append, lexical_word, lexical_kept] at lexical
      exact ⟨ih lexical.1, fits_arguments fits arguments lexical.2.1,
        fits_of_eq paren lexical.2.2.1⟩
  | get _ _ name ih =>
      simp only [Expr.leaves, lexical_append, lexical_word, lexical_kept] at lexical
      exact ⟨ih lexical.1, fits_of_eq name lexical.2.1⟩

theorem fits_unary : (Unary inner).Fits := by
  intro before value after derivation lexical
  induction derivation with
  | call value => exact fits_call fits value lexical
  | operator kind _ ih =>
      simp only [Expr.leaves, lexical_kept] at lexical
      exact ⟨⟨by simpa [unaryOperators] using kind, lexical.1⟩, ih lexical.2⟩

theorem fits_operation {tighter : List Level} (known : tighter ⊆ levels) :
    (Operation inner tighter).Fits := by
  intro before value after derivation lexical
  induction derivation with
  | unary value => exact fits_unary fits value lexical
  | single _ ih => exact ih (fun _ other => known (.tail _ other)) lexical
  | join _ member _ ihLeft ihRight =>
      exact fits_build (known (.head _)) member lexical (ihLeft known)
        (ihRight fun _ other => known (.tail _ other))

theorem fits_assignment : (Assignment inner).Fits := by
  intro before value after derivation lexical
  cases derivation with
  | name kind _ value =>
      simp only [Expr.leaves, lexical_kept, lexical_word] at lexical
      exact ⟨fits_of_eq kind lexical.1, fits value lexical.2⟩
  | property object _ kind _ value =>
      simp only [Expr.leaves, lexical_append, lexical_word, lexical_kept] at lexical
      exact ⟨fits_call fits object lexical.1, fits_of_eq kind lexical.2.1, fits value lexical.2.2⟩
  | operation value => exact fits_operation fits (List.Subset.refl levels) value lexical

end Expressions

theorem fits_expression : Expression.Fits := by
  intro before value after derivation lexical
  induction derivation with
  | nested inner _ derivation ih =>
      exact fits_assignment (fun _ _ _ part => ih part) derivation lexical

end Grammar

end Lox
