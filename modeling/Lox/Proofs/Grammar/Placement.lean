import Lox.Proofs.Grammar.Leaves
import Lox.Proofs.Syntax.Placement
import Lox.Token.Stream

/-!
# The rules put names and declarations where they may stand

What a tree keeps of a text are tokens of that text, and the rules fix their
kinds. Where the text of a token fits its kind, the names in a tree are those
that its tokens can spell.
-/

namespace Lox

/-- The text of a token fits its kind, as far as `this` and `super` are
concerned. -/
def Token.IsGenuine (token : Token) : Prop :=
  (token.kind = .identifier → token.IsOrdinary) ∧
    (token.kind = .keyword .this → token.lexeme = "this") ∧
    (token.kind = .keyword .super → token.lexeme = "super")

/-- Tokens whose text fits their kind. -/
def Genuine (tokens : List Token) : Prop :=
  ∀ token ∈ tokens, token.IsGenuine

namespace Genuine

variable {token : Token} {tokens rest : List Token}

theorem head (genuine : Genuine (token :: rest)) : token.IsGenuine :=
  genuine token (.head _)

theorem tail (genuine : Genuine (token :: rest)) : Genuine rest :=
  fun other membership => genuine other (.tail _ membership)

/-- What lies behind leaves is part of what they are read from. -/
theorem behind {leaves : List Leaf} (genuine : Genuine tokens)
    (spells : Spells leaves tokens rest) : Genuine rest := by
  induction leaves generalizing tokens with
  | nil => rwa [← Spells.nil_iff.mp spells]
  | cons leaf leaves ih =>
      obtain ⟨first, others, rfl, _, remaining⟩ := spells
      exact ih genuine.tail remaining

end Genuine

namespace Grammar

/-- The trees that a rule builds from genuine tokens have a property. -/
def Rule.Places {α : Type} (rule : Rule α) (placed : α → Prop) : Prop :=
  ∀ ⦃before value after⦄, rule before value after → Genuine before → placed value

/-! ## Lists -/

section Lists

variable {α : Type} {item : Rule α} {leaves : α → List Leaf} {placed : α → Prop}

theorem places_many (spells : item.Spells leaves) (places : item.Places placed) :
    (Many item).Places fun values => ∀ value ∈ values, placed value := by
  intro before values after derivation genuine
  induction derivation with
  | none => simp
  | more first rest ih =>
      rw [List.forall_mem_cons]
      constructor
      · exact places first genuine
      · exact ih (genuine.behind (spells first))

theorem places_listed (spells : item.Spells leaves) (places : item.Places placed) :
    (Listed item).Places fun values => ∀ value ∈ values, placed value := by
  intro before values after derivation genuine
  cases derivation with
  | none => simp
  | some derivation length =>
      clear length
      induction derivation with
      | last value => simpa using places value genuine
      | more first comma rest ih =>
          rw [List.forall_mem_cons]
          constructor
          · exact places first genuine
          · exact ih (genuine.behind (spells first)).tail

end Lists

/-! ## Expressions -/

theorem placed_build {level : Level} (known : level ∈ levels) {left right : Expr}
    (operator : Token) (placedLeft : left.Placed) (placedRight : right.Placed) :
    (level.build left operator right).Placed := by
  simp only [levels, List.mem_cons, List.not_mem_nil, or_false] at known
  rcases known with rfl | rfl | rfl | rfl | rfl | rfl <;>
    simp [placedLeft, placedRight]

section Expressions

variable {inner : Rule Expr} (spells : inner.Spells Expr.leaves)
variable (places : inner.Places Expr.Placed)

include places in
theorem places_primary : (Primary inner).Places Expr.Placed := by
  intro before value after derivation genuine
  cases derivation with
  | literal => simp
  | this kind =>
      rw [Expr.Placed]
      exact genuine.head.2.1 kind
  | reference => simp
  | group _ value =>
      rw [Expr.Placed]
      exact places value genuine.tail
  | super kind =>
      rw [Expr.Placed]
      exact genuine.head.2.2 kind

include spells places

theorem places_call : (Call inner).Places Expr.Placed := by
  intro before value after derivation genuine
  induction derivation with
  | primary value => exact places_primary places value genuine
  | call callee _ arguments _ ih =>
      rw [Expr.Placed, Expr.listPlaced_iff]
      constructor
      · exact ih genuine
      · exact places_listed spells places arguments
          (genuine.behind (spells_call spells callee)).tail
  | get _ _ _ ih =>
      rw [Expr.Placed]
      exact ih genuine

theorem places_unary : (Unary inner).Places Expr.Placed := by
  intro before value after derivation genuine
  induction derivation with
  | call value => exact places_call spells places value genuine
  | operator _ _ ih =>
      rw [Expr.Placed]
      exact ih genuine.tail

theorem places_operation {tighter : List Level} (known : tighter ⊆ levels) :
    (Operation inner tighter).Places Expr.Placed := by
  intro before value after derivation genuine
  induction derivation with
  | unary value => exact places_unary spells places value genuine
  | single _ ih => exact ih (fun _ other => known (.tail _ other)) genuine
  | join left _ _ ihLeft ihRight =>
      apply placed_build (known (.head _))
      · exact ihLeft known genuine
      · apply ihRight fun _ other => known (.tail _ other)
        exact (genuine.behind (spells_operation spells known left)).tail

theorem places_assignment : (Assignment inner).Places Expr.Placed := by
  intro before value after derivation genuine
  cases derivation with
  | name kind _ value =>
      rw [Expr.Placed]
      exact ⟨genuine.head.1 kind, places value genuine.tail.tail⟩
  | property object _ _ _ value =>
      rw [Expr.Placed]
      constructor
      · exact places_call spells places object genuine
      · exact places value (genuine.behind (spells_call spells object)).tail.tail.tail
  | operation value =>
      exact places_operation spells places (List.Subset.refl levels) value genuine

end Expressions

theorem places_expression : Expression.Places Expr.Placed := by
  intro before value after derivation genuine
  induction derivation with
  | nested inner sub derivation ih =>
      have spells : inner.Spells Expr.leaves := fun _ _ _ part => spells_expression (sub part)
      exact places_assignment spells (fun _ _ _ part genuine => ih part genuine) derivation genuine

theorem places_optional : (Optional Expression).Places Expr.OptionPlaced := by
  intro before value after derivation genuine
  cases derivation with
  | none => exact trivial
  | some value => exact places_expression value genuine

/-! ## Statements -/

theorem places_variableDeclaration : VariableDeclaration.Places fun statement =>
    (∃ name initializer, statement = .var name initializer) ∧ statement.Placed := by
  intro before statement after derivation genuine
  cases derivation with
  | bare _ name =>
      refine ⟨⟨_, _, rfl⟩, ?_⟩
      simp only [Stmt.Placed, Expr.OptionPlaced, and_true]
      exact genuine.tail.head.1 name
  | initialized _ name _ value =>
      refine ⟨⟨_, _, rfl⟩, ?_⟩
      rw [Stmt.Placed]
      exact ⟨genuine.tail.head.1 name, places_expression value genuine.tail.tail.tail⟩

theorem places_expressionStatement : ExpressionStatement.Places fun statement =>
    (∃ value, statement = .expression value) ∧ statement.Placed := by
  rintro before _ after ⟨value, _⟩ genuine
  refine ⟨⟨_, rfl⟩, ?_⟩
  rw [Stmt.Placed]
  exact places_expression value genuine

theorem places_forInitializer : ForInitializer.Places Stmt.ClausePlaced := by
  intro before initializer after derivation genuine
  cases derivation with
  | none => simp
  | var declaration =>
      obtain ⟨shape, placed⟩ := places_variableDeclaration declaration genuine
      rw [Stmt.ClausePlaced]
      exact ⟨.inl shape, placed⟩
  | expression statement =>
      obtain ⟨shape, placed⟩ := places_expressionStatement statement genuine
      rw [Stmt.ClausePlaced]
      exact ⟨.inr shape, placed⟩

theorem places_names : (Listed Name).Places fun names => ∀ name ∈ names, name.IsOrdinary := by
  have spells : Name.Spells fun name => [.kept name] := by
    rintro _ name after ⟨_⟩
    simp
  have places : Name.Places Token.IsOrdinary := by
    rintro _ name after ⟨kind⟩ genuine
    exact genuine.head.1 kind
  exact places_listed spells places

theorem isDeclaration_of_plain {inner : Position → Rule Stmt} {before after : List Token}
    {statement : Stmt} (derivation : Plain inner before statement after) :
    statement.isDeclaration = false := by
  cases derivation with
  | expression statement =>
      obtain ⟨_, _⟩ := statement
      rfl
  | _ => rfl

theorem isDeclaration_of_statement {before after : List Token} {statement : Stmt}
    (derivation : Statement .statement before statement after) :
    statement.isDeclaration = false := by
  cases derivation with
  | plain inner _ derivation => exact isDeclaration_of_plain derivation

section Statements

variable {inner : Position → Rule Stmt}
variable (spells : ∀ position, (inner position).Spells Stmt.leaves)
variable (places : ∀ position, (inner position).Places Stmt.Placed)

include spells places

theorem places_block : (Block (inner .declaration)).Places Stmt.ListPlaced := by
  rintro _ body after ⟨_, body, _⟩ genuine
  rw [Stmt.listPlaced_iff]
  exact places_many (spells .declaration) (places .declaration) body genuine.tail

theorem places_function : (Function (inner .declaration)).Places FunctionDecl.Placed := by
  rintro _ _ after ⟨name, _, parameters, _, body⟩ genuine
  rw [FunctionDecl.Placed]
  refine ⟨genuine.head.1 name, places_names parameters genuine.tail.tail, ?_⟩
  apply places_block spells places body
  exact (genuine.tail.tail.behind (spells_names parameters)).tail

theorem places_plain (bare : ∀ {before statement after}, inner .statement before statement after →
    statement.isDeclaration = false) : (Plain inner).Places Stmt.Placed := by
  intro before statement after derivation genuine
  cases derivation with
  | expression statement => exact (places_expressionStatement statement genuine).2
  | print _ value =>
      rw [Stmt.Placed]
      exact places_expression value genuine.tail
  | returning _ value =>
      rw [Stmt.Placed]
      exact places_optional value genuine.tail
  | block body =>
      rw [Stmt.Placed]
      exact places_block spells places body genuine
  | whileLoop _ _ condition _ body =>
      rw [Stmt.Placed]
      refine ⟨places_expression condition genuine.tail.tail, bare body, ?_⟩
      exact places _ body (genuine.tail.tail.behind (spells_expression condition)).tail
  | forLoop _ _ initializer condition _ increment _ body =>
      have behindInitializer := genuine.tail.tail.behind (spells_forInitializer initializer)
      have behindCondition := (behindInitializer.behind (spells_optional condition)).tail
      have behindIncrement := (behindCondition.behind (spells_optional increment)).tail
      rw [Stmt.Placed]
      exact ⟨places_forInitializer initializer genuine.tail.tail,
        places_optional condition behindInitializer, places_optional increment behindCondition,
        bare body, places _ body behindIncrement⟩
  | conditional _ _ condition _ consequent =>
      rw [Stmt.Placed, Stmt.OptionPlaced]
      refine ⟨places_expression condition genuine.tail.tail, ⟨bare consequent, ?_⟩, trivial⟩
      exact places _ consequent (genuine.tail.tail.behind (spells_expression condition)).tail
  | alternative _ _ condition _ consequent _ _ alternative =>
      have behindCondition := (genuine.tail.tail.behind (spells_expression condition)).tail
      have behindConsequent := (behindCondition.behind (spells _ consequent)).tail
      rw [Stmt.Placed, Stmt.OptionPlaced]
      exact ⟨places_expression condition genuine.tail.tail,
        ⟨bare consequent, places _ consequent behindCondition⟩,
        bare alternative, places _ alternative behindConsequent⟩

theorem places_declaration (bare : ∀ {before statement after},
    inner .statement before statement after → statement.isDeclaration = false) :
    (Declaration inner).Places Stmt.Placed := by
  intro before statement after derivation genuine
  cases derivation with
  | classDecl _ name superclass _ methods _ =>
      rw [Stmt.Placed, FunctionDecl.listPlaced_iff]
      refine ⟨genuine.tail.head.1 name, ?_, ?_⟩
      · cases superclass with
        | none => exact trivial
        | some => exact ⟨_, rfl⟩
      · apply places_many (spells_function spells) (places_function spells places) methods
        exact (genuine.tail.tail.behind (spells_superclass superclass)).tail
  | function _ declaration =>
      rw [Stmt.Placed]
      exact places_function spells places declaration genuine.tail
  | var declaration => exact (places_variableDeclaration declaration genuine).2
  | plain statement => exact places_plain spells places bare statement genuine

end Statements

theorem places_statement (position : Position) : (Statement position).Places Stmt.Placed := by
  intro before statement after derivation genuine
  induction derivation with
  | declaration inner sub derivation ih =>
      have spells (position : Position) : (inner position).Spells Stmt.leaves :=
        fun _ _ _ part => spells_statement position (sub part)
      exact places_declaration spells (fun _ _ _ _ part genuine => ih part genuine)
        (fun part => isDeclaration_of_statement (sub part)) derivation genuine
  | plain inner sub derivation ih =>
      have spells (position : Position) : (inner position).Spells Stmt.leaves :=
        fun _ _ _ part => spells_statement position (sub part)
      exact places_plain spells (fun _ _ _ _ part genuine => ih part genuine)
        (fun part => isDeclaration_of_statement (sub part)) derivation genuine

theorem places_program {tokens : List Token} {statements : List Stmt}
    (derivation : Program tokens statements) (genuine : Genuine tokens) :
    Stmt.ListPlaced statements := by
  rw [Stmt.listPlaced_iff]
  exact places_many (spells_statement .declaration) (places_statement .declaration) derivation
    genuine

end Grammar

/-! ## Tokens of a text -/

namespace Segment

/-- The kind of a lexeme fits its text. -/
def IsGenuine : Segment → Prop
  | .lexeme kind text => ∀ line, (⟨kind, String.ofList text, line⟩ : Token).IsGenuine
  | _ => True

/-- A kind other than that of names and keywords fits every text. -/
theorem isGenuine_lexeme {kind : Token.Kind} {text : List Char} (unnamed : kind ≠ .identifier)
    (plain : ∀ keyword, kind ≠ .keyword keyword) : (Segment.lexeme kind text).IsGenuine :=
  fun _ => ⟨fun same => absurd same unnamed, fun same => absurd same (plain _),
    fun same => absurd same (plain _)⟩

theorem isGenuine_word (letter : Char) (rest : List Char) : (word letter rest).IsGenuine := by
  unfold word
  dsimp only
  generalize letter :: rest.takeWhile continuesName = spelling
  cases found : Keyword.ofSpelling? spelling with
  | some keyword =>
      intro line
      constructor
      · intro impossible
        cases impossible
      · constructor
        · intro same
          cases same
          rw [← Keyword.spelling_of_ofSpelling? found]
          rfl
        · intro same
          cases same
          rw [← Keyword.spelling_of_ofSpelling? found]
          rfl
  | none =>
      intro line
      constructor
      · intro _
        constructor
        · intro same
          have text : spelling = Keyword.this.spelling := by
            simpa [Keyword.spelling] using congrArg String.toList same
          rw [text, Keyword.ofSpelling?_spelling] at found
          cases found
        · intro same
          have text : spelling = Keyword.super.spelling := by
            simpa [Keyword.spelling] using congrArg String.toList same
          rw [text, Keyword.ofSpelling?_spelling] at found
          cases found
      · constructor
        · intro impossible
          cases impossible
        · intro impossible
          cases impossible

theorem isGenuine_first (character : Char) (rest : List Char) :
    (first character rest).IsGenuine := by
  unfold first
  split
  · exact trivial
  split
  · exact trivial
  split
  · unfold quoted
    split
    · exact trivial
    · exact isGenuine_lexeme (by simp) (by simp)
  split
  · unfold number
    dsimp only
    split
    · exact isGenuine_lexeme (by simp) (by simp)
    · exact isGenuine_lexeme (by simp) (by simp)
  split
  · exact isGenuine_word character rest
  · unfold mark?
    split
    · exact isGenuine_lexeme (by simp) (by simp)
    · cases Mark.ofSpelling? [character] with
      | some mark => exact isGenuine_lexeme (by simp) (by simp)
      | none => exact trivial

theorem isGenuine_of_mem {skip : Nat} {source : List Char} {segment : Segment}
    (membership : segment ∈ segmentsAfter skip source) : segment.IsGenuine := by
  induction source generalizing skip with
  | nil => cases skip <;> cases membership
  | cons character rest ih =>
      cases skip with
      | succ skip => exact ih membership
      | zero =>
          rw [segmentsAfter, List.mem_cons] at membership
          rcases membership with rfl | later
          · exact isGenuine_first character rest
          · exact ih later

theorem genuine_items {line : Nat} {segments : List Segment}
    (genuine : ∀ segment ∈ segments, segment.IsGenuine) :
    Genuine ((items line segments).filterMap Item.token?) := by
  induction segments generalizing line with
  | nil =>
      intro token membership
      obtain rfl : token = .atEnd line := by simpa [items, Item.token?] using membership
      refine ⟨?_, ?_, ?_⟩ <;> exact fun impossible => by cases impossible
  | cons segment rest ih =>
      intro token membership
      rw [items, List.filterMap_append, List.mem_append] at membership
      rcases membership with here | later
      · cases segment with
        | lexeme kind text =>
            obtain rfl :
                token = ⟨kind, String.ofList text, line + (lexeme kind text).lineFeeds⟩ := by
              simpa [item?, Item.token?, eq_comm] using here
            exact genuine _ (.head _) _
        | _ => simp [item?, Item.token?] at here
      · exact ih (fun other inside => genuine other (.tail _ inside)) token later

end Segment

/-- The tokens of a text fit their kinds. -/
theorem genuine_scan (source : String) : Genuine (scan source).1 := by
  apply Segment.genuine_items
  intro segment membership
  exact Segment.isGenuine_of_mem membership

end Lox
