import Lox.Proofs.Grammar.Rules
import Mathlib.Data.List.Forall2

/-!
# The leaves of a tree

What a tree says about the text it was read from: its leaves from left to right.
A token that the tree keeps is a leaf of its own. A keyword, a mark or a literal
that the tree does not keep is a leaf that names a kind. Every rule relates a
tree to exactly the tokens that match its leaves, so a tree read from a text
leaves out no token of it, repeats none and puts none in another place.
-/

namespace Lox

/-! ## Leaves and the tokens they match -/

/-- A leaf of a tree. -/
inductive Leaf where
  /-- A token that the tree keeps. -/
  | kept (token : Token)
  /-- A token of which the tree keeps the kind only. -/
  | word (kind : Token.Kind)

/-- Whether a token stands at a leaf. A kept token is the very token read. A
literal is compared by its kind, which carries its payload. -/
def Leaf.Matches : Leaf → Token → Prop
  | .kept expected, token => token = expected
  | .word kind, token => token.kind = kind

@[simp] theorem Leaf.matches_kept {expected token : Token} :
    (Leaf.kept expected).Matches token ↔ token = expected := Iff.rfl

@[simp] theorem Leaf.matches_word {kind : Token.Kind} {token : Token} :
    (Leaf.word kind).Matches token ↔ token.kind = kind := Iff.rfl

/-- Leaves spell the tokens in front of others. -/
def Spells : List Leaf → List Token → List Token → Prop
  | [], before, after => before = after
  | leaf :: leaves, before, after =>
      ∃ token rest, before = token :: rest ∧ leaf.Matches token ∧ Spells leaves rest after

namespace Spells

variable {leaf : Leaf} {leaves front back : List Leaf} {token : Token}
variable {before middle after rest : List Token}

@[simp] theorem nil_iff : Spells [] before after ↔ before = after := Iff.rfl

@[simp] theorem cons_iff :
    Spells (leaf :: leaves) (token :: rest) after ↔
      leaf.Matches token ∧ Spells leaves rest after := by
  simp [Spells]

theorem append (first : Spells front before middle) (second : Spells back middle after) :
    Spells (front ++ back) before after := by
  induction front generalizing before with
  | nil => simpa [nil_iff.mp first] using second
  | cons leaf leaves ih =>
      obtain ⟨token, rest, rfl, matched, remaining⟩ := first
      exact cons_iff.mpr ⟨matched, ih remaining⟩

/-- Every leaf stands for one token. -/
theorem length_eq (spells : Spells leaves before after) :
    before.length = leaves.length + after.length := by
  induction leaves generalizing before with
  | nil => simp [nil_iff.mp spells]
  | cons leaf leaves ih =>
      obtain ⟨token, rest, rfl, _, remaining⟩ := spells
      simp only [List.length_cons, ih remaining]
      omega

/-- Leaves that spell a whole list match it token by token. -/
theorem forall₂ (spells : Spells leaves before []) :
    List.Forall₂ Leaf.Matches leaves before := by
  induction leaves generalizing before with
  | nil => rw [nil_iff.mp spells]; exact .nil
  | cons leaf leaves ih =>
      obtain ⟨token, rest, rfl, matched, remaining⟩ := spells
      exact .cons matched (ih remaining)

end Spells

/-! ## Leaves of expressions -/

/-- The kind of token that writes a literal. -/
def Literal.kind : Literal → Token.Kind
  | .nil => .keyword .nil
  | .bool true => .keyword .true
  | .bool false => .keyword .false
  | .number value => .number value
  | .string value => .string value

theorem Literal.kind_eq {kind : Token.Kind} {value : Literal}
    (written : Grammar.literal? kind = some value) : kind = value.kind := by
  unfold Grammar.literal? at written
  split at written <;> cases written <;> rfl

mutual

/-- The leaves of an expression. -/
def Expr.leaves : Expr → List Leaf
  | .literal value => [.word value.kind]
  | .grouping inner =>
      .word (.mark .leftParen) :: (inner.leaves ++ [.word (.mark .rightParen)])
  | .unary operator operand => .kept operator :: operand.leaves
  | .binary left operator right => left.leaves ++ .kept operator :: right.leaves
  | .logical left operator right => left.leaves ++ .kept operator :: right.leaves
  | .variable reference => [.kept reference.name]
  | .assign reference value => .kept reference.name :: .word (.mark .equal) :: value.leaves
  | .call callee paren arguments =>
      callee.leaves ++ .word (.mark .leftParen) :: (Expr.listLeaves arguments ++ [.kept paren])
  | .get object name => object.leaves ++ [.word (.mark .dot), .kept name]
  | .set object name value =>
      object.leaves ++ .word (.mark .dot) :: .kept name :: .word (.mark .equal) :: value.leaves
  | .this reference => [.kept reference.name]
  | .super reference method => [.kept reference.name, .word (.mark .dot), .kept method]

/-- The leaves of expressions with commas between them. -/
def Expr.listLeaves : List Expr → List Leaf
  | [] => []
  | [value] => value.leaves
  | first :: second :: rest =>
      first.leaves ++ .word (.mark .comma) :: Expr.listLeaves (second :: rest)

end

attribute [simp] Expr.leaves Expr.listLeaves

/-- The leaves of an expression that may be absent. -/
def Expr.optionLeaves : Option Expr → List Leaf
  | none => []
  | some value => value.leaves

/-- The leaves of names with commas between them. -/
def Token.listLeaves : List Token → List Leaf
  | [] => []
  | [name] => [.kept name]
  | first :: second :: rest =>
      .kept first :: .word (.mark .comma) :: Token.listLeaves (second :: rest)

attribute [simp] Token.listLeaves

theorem Expr.leaves_ne_nil (value : Expr) : value.leaves ≠ [] := by
  cases value <;> simp

/-! ## Leaves of statements -/

/-- The leaves of an initial value, if there is one. -/
def Expr.initializerLeaves : Option Expr → List Leaf
  | none => []
  | some value => .word (.mark .equal) :: value.leaves

/-- The leaves of a superclass, if there is one. -/
def Expr.superclassLeaves : Option Expr → List Leaf
  | none => []
  | some value => .word (.mark .less) :: value.leaves

mutual

/-- The leaves of a statement. -/
def Stmt.leaves : Stmt → List Leaf
  | .expression value => value.leaves ++ [.word (.mark .semicolon)]
  | .print value =>
      .word (.keyword .print) :: (value.leaves ++ [.word (.mark .semicolon)])
  | .var name initializer =>
      .word (.keyword .var) :: .kept name ::
        (Expr.initializerLeaves initializer ++ [.word (.mark .semicolon)])
  | .block body =>
      .word (.mark .leftBrace) :: (Stmt.listLeaves body ++ [.word (.mark .rightBrace)])
  | .conditional condition consequent alternative =>
      .word (.keyword .if) :: .word (.mark .leftParen) ::
        (condition.leaves ++ .word (.mark .rightParen) ::
          (consequent.leaves ++ Stmt.alternativeLeaves alternative))
  | .whileLoop condition body =>
      .word (.keyword .while) :: .word (.mark .leftParen) ::
        (condition.leaves ++ .word (.mark .rightParen) :: body.leaves)
  | .forLoop initializer condition increment body =>
      .word (.keyword .for) :: .word (.mark .leftParen) ::
        (Stmt.clauseLeaves initializer ++
          (Expr.optionLeaves condition ++ .word (.mark .semicolon) ::
            (Expr.optionLeaves increment ++ .word (.mark .rightParen) :: body.leaves)))
  | .function declaration => .word (.keyword .fun) :: declaration.leaves
  | .returning keyword value =>
      .kept keyword :: (Expr.optionLeaves value ++ [.word (.mark .semicolon)])
  | .classDecl name superclass methods =>
      .word (.keyword .class) :: .kept name ::
        (Expr.superclassLeaves superclass ++ .word (.mark .leftBrace) ::
          (FunctionDecl.listLeaves methods ++ [.word (.mark .rightBrace)]))

/-- The leaves of statements one after another. -/
def Stmt.listLeaves : List Stmt → List Leaf
  | [] => []
  | first :: rest => first.leaves ++ Stmt.listLeaves rest

/-- The leaves of an alternative, if there is one. -/
def Stmt.alternativeLeaves : Option Stmt → List Leaf
  | none => []
  | some statement => .word (.keyword .else) :: statement.leaves

/-- The leaves of the first clause of a loop. An absent clause leaves its
semicolon behind. -/
def Stmt.clauseLeaves : Option Stmt → List Leaf
  | none => [.word (.mark .semicolon)]
  | some statement => statement.leaves

/-- The leaves of a function. -/
def FunctionDecl.leaves : FunctionDecl → List Leaf
  | ⟨name, parameters, body⟩ =>
      .kept name :: .word (.mark .leftParen) ::
        (Token.listLeaves parameters ++ .word (.mark .rightParen) ::
          .word (.mark .leftBrace) :: (Stmt.listLeaves body ++ [.word (.mark .rightBrace)]))

/-- The leaves of functions one after another. -/
def FunctionDecl.listLeaves : List FunctionDecl → List Leaf
  | [] => []
  | first :: rest => first.leaves ++ FunctionDecl.listLeaves rest

end

attribute [simp] Stmt.leaves Stmt.listLeaves Stmt.alternativeLeaves Stmt.clauseLeaves
  FunctionDecl.leaves FunctionDecl.listLeaves

theorem Stmt.leaves_ne_nil (statement : Stmt) : statement.leaves ≠ [] := by
  cases statement <;> simp

theorem FunctionDecl.leaves_ne_nil (declaration : FunctionDecl) : declaration.leaves ≠ [] := by
  cases declaration
  simp

/-! ## Rules spell the leaves of their trees -/

namespace Grammar

variable {before after : List Token}

/-- The trees of a rule spell the tokens they are read from. -/
def Rule.Spells {α : Type} (rule : Rule α) (leaves : α → List Leaf) : Prop :=
  ∀ ⦃before value after⦄, rule before value after → Lox.Spells (leaves value) before after

/-- A rule that never stays where it is. -/
def Rule.Shortens {α : Type} (rule : Rule α) : Prop :=
  ∀ ⦃before value after⦄, rule before value after → after.length < before.length

theorem Rule.Spells.shortens {α : Type} {rule : Rule α} {leaves : α → List Leaf}
    (spells : rule.Spells leaves) (nonempty : ∀ value, leaves value ≠ []) : rule.Shortens := by
  intro before value after derivation
  have length := (spells derivation).length_eq
  have positive := List.length_pos_iff.mpr (nonempty value)
  omega

theorem spells_separated {α : Type} {item : Rule α} {leaves : α → List Leaf}
    {together : List α → List Leaf} (spells : item.Spells leaves)
    (single : ∀ value, together [value] = leaves value)
    (several : ∀ first second rest, together (first :: second :: rest) =
      leaves first ++ .word (.mark .comma) :: together (second :: rest)) :
    (Separated item).Spells together := by
  intro before values after derivation
  induction derivation with
  | last value =>
      rw [single]
      exact spells value
  | more first comma rest ih =>
      cases rest with
      | last second =>
          rw [several]
          exact (spells first).append (Spells.cons_iff.mpr ⟨comma, ih⟩)
      | more second following others =>
          rw [several]
          exact (spells first).append (Spells.cons_iff.mpr ⟨comma, ih⟩)

theorem spells_listed {α : Type} {item : Rule α} {together : List α → List Leaf}
    (spells : (Separated item).Spells together) (empty : together [] = []) :
    (Listed item).Spells together := by
  intro before values after derivation
  cases derivation with
  | none => rw [empty]; exact Spells.nil_iff.mpr rfl
  | some separated => exact spells separated

theorem spells_many {α : Type} {item : Rule α} {leaves : α → List Leaf}
    {together : List α → List Leaf} (spells : item.Spells leaves) (empty : together [] = [])
    (several : ∀ first rest, together (first :: rest) = leaves first ++ together rest) :
    (Many item).Spells together := by
  intro before values after derivation
  induction derivation with
  | none => rw [empty]; exact Spells.nil_iff.mpr rfl
  | more first rest ih => rw [several]; exact (spells first).append ih

/-! ### Expressions -/

/-- Every level builds nodes with the operator between the operands. -/
theorem leaves_build {level : Level} (membership : level ∈ levels) (left : Expr)
    (operator : Token) (right : Expr) :
    (level.build left operator right).leaves = left.leaves ++ .kept operator :: right.leaves := by
  simp only [levels, List.mem_cons, List.not_mem_nil, or_false] at membership
  rcases membership with rfl | rfl | rfl | rfl | rfl | rfl <;> simp

section Expressions

variable {inner : Rule Expr} (spellsInner : inner.Spells Expr.leaves)

include spellsInner

theorem spells_arguments : (Listed inner).Spells Expr.listLeaves := by
  refine spells_listed (spells_separated spellsInner ?_ ?_) ?_
  · intro value; simp
  · intro first second rest; simp
  · simp

theorem spells_primary : (Primary inner).Spells Expr.leaves := by
  intro before value after derivation
  cases derivation with
  | literal written => simp [Literal.kind_eq written]
  | this seen => simp
  | reference seen => simp
  | group opening value closing =>
      rw [Expr.leaves, Spells.cons_iff]
      exact ⟨opening, (spellsInner value).append (by simpa using closing)⟩
  | super keyword dot method => simp [dot]

theorem spells_call : (Call inner).Spells Expr.leaves := by
  intro before value after derivation
  induction derivation with
  | primary value => exact spells_primary spellsInner value
  | call callee opening arguments closing ih =>
      rw [Expr.leaves]
      refine ih.append (Spells.cons_iff.mpr ⟨opening, ?_⟩)
      exact (spells_arguments spellsInner arguments).append (by simp)
  | get object dot name ih =>
      rw [Expr.leaves]
      exact ih.append (by simpa using dot)

theorem spells_unary : (Unary inner).Spells Expr.leaves := by
  intro before value after derivation
  induction derivation with
  | call value => exact spells_call spellsInner value
  | operator operator operand ih =>
      rw [Expr.leaves]
      exact Spells.cons_iff.mpr ⟨rfl, ih⟩

theorem spells_operation {tighter : List Level} (known : tighter ⊆ levels) :
    (Operation inner tighter).Spells Expr.leaves := by
  intro before value after derivation
  induction derivation with
  | unary value => exact spells_unary spellsInner value
  | single value ih => exact ih fun _ membership => known (List.mem_cons_of_mem _ membership)
  | join left operator right ihLeft ihRight =>
      rw [leaves_build (known List.mem_cons_self)]
      refine (ihLeft known).append (Spells.cons_iff.mpr ⟨rfl, ?_⟩)
      exact ihRight fun _ membership => known (List.mem_cons_of_mem _ membership)

theorem spells_assignment : (Assignment inner).Spells Expr.leaves := by
  intro before value after derivation
  cases derivation with
  | name name equals value =>
      rw [Expr.leaves]
      exact Spells.cons_iff.mpr ⟨rfl, Spells.cons_iff.mpr ⟨equals, spellsInner value⟩⟩
  | property object dot name equals value =>
      rw [Expr.leaves]
      refine (spells_call spellsInner object).append (Spells.cons_iff.mpr ⟨dot, ?_⟩)
      exact Spells.cons_iff.mpr ⟨rfl, Spells.cons_iff.mpr ⟨equals, spellsInner value⟩⟩
  | operation value => exact spells_operation spellsInner (List.Subset.refl levels) value

end Expressions

theorem spells_expression : Expression.Spells Expr.leaves := by
  intro before value after derivation
  induction derivation with
  | nested inner within assignment ih => exact spells_assignment ih assignment

theorem spells_optional : (Optional Expression).Spells Expr.optionLeaves := by
  intro before value after derivation
  cases derivation with
  | none => exact Spells.nil_iff.mpr rfl
  | some value => exact spells_expression value

/-! ### Statements -/

theorem spells_names : (Listed Name).Spells Token.listLeaves := by
  have spellsName : Name.Spells fun name => [.kept name] := by
    rintro _ name after ⟨seen⟩
    simp
  refine spells_listed (spells_separated spellsName ?_ ?_) ?_
  · intro name; simp
  · intro first second rest; simp
  · simp

theorem spells_variableDeclaration : VariableDeclaration.Spells Stmt.leaves := by
  intro before statement after derivation
  cases derivation with
  | bare keyword name stop =>
      simp [Expr.initializerLeaves, keyword, stop]
  | initialized keyword name equals value stop =>
      simp only [Stmt.leaves, Expr.initializerLeaves, List.cons_append, Spells.cons_iff]
      refine ⟨keyword, rfl, equals, ?_⟩
      exact (spells_expression value).append (by simpa using stop)

theorem spells_expressionStatement : ExpressionStatement.Spells Stmt.leaves := by
  rintro before _ after ⟨value, stop⟩
  rw [Stmt.leaves]
  exact (spells_expression value).append (by simpa using stop)

theorem spells_forInitializer : ForInitializer.Spells Stmt.clauseLeaves := by
  intro before initializer after derivation
  cases derivation with
  | none stop => simpa using stop
  | var declaration => exact spells_variableDeclaration declaration
  | expression statement => exact spells_expressionStatement statement

theorem spells_superclass : Superclass.Spells Expr.superclassLeaves := by
  intro before superclass after derivation
  cases derivation with
  | none => exact Spells.nil_iff.mpr rfl
  | some less name => simp [Expr.superclassLeaves, less]

section Statements

variable {inner : Position → Rule Stmt}
variable (spellsInner : ∀ position, (inner position).Spells Stmt.leaves)

include spellsInner

theorem spells_body {body : List Stmt}
    (block : Block (inner .declaration) before body after) :
    Spells (.word (.mark .leftBrace) :: (Stmt.listLeaves body ++ [.word (.mark .rightBrace)]))
      before after := by
  obtain ⟨opening, body, closing⟩ := block
  have together : (Many (inner .declaration)).Spells Stmt.listLeaves := by
    apply spells_many (spellsInner .declaration)
    · simp
    · intro first rest; simp
  rw [Spells.cons_iff]
  exact ⟨opening, (together body).append (by simpa using closing)⟩

theorem spells_function : (Function (inner .declaration)).Spells FunctionDecl.leaves := by
  rintro _ _ after ⟨name, opening, parameters, closing, body⟩
  simp only [FunctionDecl.leaves, Spells.cons_iff]
  refine ⟨rfl, opening, (spells_names parameters).append ?_⟩
  exact Spells.cons_iff.mpr ⟨closing, spells_body spellsInner body⟩

theorem spells_plain : (Plain inner).Spells Stmt.leaves := by
  intro before statement after derivation
  cases derivation with
  | expression statement => exact spells_expressionStatement statement
  | print keyword value stop =>
      rw [Stmt.leaves, Spells.cons_iff]
      exact ⟨keyword, (spells_expression value).append (by simpa using stop)⟩
  | returning keyword value stop =>
      rw [Stmt.leaves, Spells.cons_iff]
      exact ⟨rfl, (spells_optional value).append (by simpa using stop)⟩
  | block body =>
      rw [Stmt.leaves]
      exact spells_body spellsInner body
  | whileLoop keyword opening condition closing body =>
      simp only [Stmt.leaves, Spells.cons_iff]
      refine ⟨keyword, opening, (spells_expression condition).append ?_⟩
      exact Spells.cons_iff.mpr ⟨closing, spellsInner _ body⟩
  | forLoop keyword opening initializer condition stop increment closing body =>
      simp only [Stmt.leaves, Spells.cons_iff]
      refine ⟨keyword, opening, (spells_forInitializer initializer).append ?_⟩
      refine (spells_optional condition).append (Spells.cons_iff.mpr ⟨stop, ?_⟩)
      refine (spells_optional increment).append (Spells.cons_iff.mpr ⟨closing, ?_⟩)
      exact spellsInner _ body
  | conditional keyword opening condition closing consequent =>
      simp only [Stmt.leaves, Stmt.alternativeLeaves, List.append_nil, Spells.cons_iff]
      refine ⟨keyword, opening, (spells_expression condition).append ?_⟩
      exact Spells.cons_iff.mpr ⟨closing, spellsInner _ consequent⟩
  | alternative keyword opening condition closing consequent closed otherwise alternative =>
      simp only [Stmt.leaves, Stmt.alternativeLeaves, Spells.cons_iff]
      refine ⟨keyword, opening, (spells_expression condition).append ?_⟩
      refine Spells.cons_iff.mpr ⟨closing, (spellsInner _ consequent).append ?_⟩
      exact Spells.cons_iff.mpr ⟨otherwise, spellsInner _ alternative⟩

theorem spells_declaration : (Declaration inner).Spells Stmt.leaves := by
  intro before statement after derivation
  cases derivation with
  | classDecl keyword name superclass opening methods closing =>
      have together : (Many (Function (inner .declaration))).Spells FunctionDecl.listLeaves := by
        apply spells_many (spells_function spellsInner)
        · simp
        · intro first rest; simp
      simp only [Stmt.leaves, Spells.cons_iff]
      refine ⟨keyword, rfl, (spells_superclass superclass).append ?_⟩
      refine Spells.cons_iff.mpr ⟨opening, (together methods).append ?_⟩
      simpa using closing
  | function keyword declaration =>
      rw [Stmt.leaves, Spells.cons_iff]
      exact ⟨keyword, spells_function spellsInner declaration⟩
  | var declaration => exact spells_variableDeclaration declaration
  | plain statement => exact spells_plain spellsInner statement

end Statements

theorem spells_statement (position : Position) : (Statement position).Spells Stmt.leaves := by
  intro before statement after derivation
  induction derivation with
  | declaration inner within declaration ih =>
      exact spells_declaration (fun _ _ _ _ part => ih part) declaration
  | plain inner within statement ih =>
      exact spells_plain (fun _ _ _ _ part => ih part) statement

/-- A program spells the whole list of tokens it is read from. -/
theorem spells_program {tokens : List Token} {statements : List Stmt}
    (derivation : Program tokens statements) :
    List.Forall₂ Leaf.Matches (Stmt.listLeaves statements) tokens := by
  have together : (Many (Statement .declaration)).Spells Stmt.listLeaves := by
    apply spells_many (spells_statement .declaration)
    · simp
    · intro first rest; simp
  exact (together derivation).forall₂

end Grammar

end Lox
