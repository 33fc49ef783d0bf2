import Lox.Proofs.Grammar.Leaves
import Lox.Proofs.Renaming.Basic

/-!
# Renamed trees follow the rules

What a rule derives is still derived by it after renaming, from tokens of which some
identifiers have the new name in place of the old one. The tokens are found from the
last to the first, as the rules pass them along.
-/

namespace Lox

variable {respelling : Respelling} {marks : Marks}

/-- A token that stays or is the old name and becomes the new one. -/
def Token.Respelled (respelling : Respelling) (token token' : Token) : Prop :=
  token' = token ∨
    token.kind = .identifier ∧ token.lexeme = respelling.old ∧
      token' = { token with lexeme := respelling.new }

theorem Token.respelled_token {token : Token} (mark : Bool) (kind : token.kind = .identifier) :
    token.Respelled respelling (respelling.token mark token) := by
  by_cases changed : mark = true ∧ token.lexeme = respelling.old
  · exact .inr ⟨kind, changed.2, by simp [Respelling.token, Respelling.name, changed]⟩
  · exact .inl (by simp [Respelling.token, Respelling.name, changed])

namespace Grammar

/-- What a rule derives another one derives after renaming, in front of tokens that are
renamed already. -/
def Rule.Respells {α : Type} (respelling : Respelling) (rule rule' : Rule α)
    (renames : α → α → Prop) : Prop :=
  ∀ ⦃before value after⦄, rule before value after → ∀ {value' after'}, renames value value' →
    List.Forall₂ (Token.Respelled respelling) after after' →
    ∃ before', List.Forall₂ (Token.Respelled respelling) before before' ∧
      rule' before' value' after'

variable {before after after' : List Token}

/-- In front of renamed tokens a token may stay. -/
theorem respelled_cons (token : Token)
    (renamed : List.Forall₂ (Token.Respelled respelling) after after') :
    List.Forall₂ (Token.Respelled respelling) (token :: after) (token :: after') :=
  .cons (.inl rfl) renamed

/-! ## Lists -/

section Lists

variable {α : Type} {item item' : Rule α} {renames : α → α → Prop}
variable (respells : item.Respells respelling item' renames)
include respells

theorem respells_separated :
    (Separated item).Respells respelling (Separated item') (List.Forall₂ renames) := by
  intro before values after derivation
  induction derivation with
  | last value =>
      rintro _ after' (_ | ⟨head, _ | _⟩) renamed
      obtain ⟨before', earlier, value'⟩ := respells value head renamed
      exact ⟨before', earlier, .last value'⟩
  | @more _ _ _ comma _ _ first seen _ ih =>
      rintro _ after' (_ | ⟨head, tail⟩) renamed
      obtain ⟨middle', later, rest'⟩ := ih tail renamed
      obtain ⟨before', earlier, first'⟩ := respells first head (respelled_cons comma later)
      exact ⟨before', earlier, .more first' seen rest'⟩

theorem respells_listed :
    (Listed item).Respells respelling (Listed item') (List.Forall₂ renames) := by
  intro before values after derivation values' after' named renamed
  cases derivation with
  | none =>
      cases named
      exact ⟨after', renamed, .none⟩
  | some separated short =>
      obtain ⟨before', earlier, separated'⟩ := respells_separated respells separated named renamed
      exact ⟨before', earlier, .some separated' (named.length_eq ▸ short)⟩

theorem respells_many :
    (Many item).Respells respelling (Many item') (List.Forall₂ renames) := by
  intro before values after derivation
  induction derivation with
  | none =>
      rintro _ after' (_ | _) renamed
      exact ⟨after', renamed, .none⟩
  | more first _ ih =>
      rintro _ after' (_ | ⟨head, tail⟩) renamed
      obtain ⟨middle', later, rest'⟩ := ih tail renamed
      obtain ⟨before', earlier, first'⟩ := respells first head later
      exact ⟨before', earlier, .more first' rest'⟩

end Lists

/-! ## Expressions -/

/-- The renamed expression. -/
abbrev Renamed (respelling : Respelling) (marks : Marks) (value value' : Expr) : Prop :=
  value.rename respelling marks = value'

theorem forall₂_listRename (values : List Expr) :
    List.Forall₂ (Renamed respelling marks) values (Expr.listRename respelling marks values) := by
  induction values with
  | nil => exact .nil
  | cons first rest ih => exact .cons rfl ih

theorem rename_build {level : Level} (membership : level ∈ levels) (left : Expr)
    (operator : Token) (right : Expr) :
    (level.build left operator right).rename respelling marks =
      level.build (left.rename respelling marks) operator (right.rename respelling marks) := by
  simp only [levels, List.mem_cons, List.not_mem_nil, or_false] at membership
  rcases membership with rfl | rfl | rfl | rfl | rfl | rfl <;> rfl

section Expressions

variable {inner : Rule Expr}
variable (respells : inner.Respells respelling Expression (Renamed respelling marks))
include respells

theorem respells_primary :
    (Primary inner).Respells respelling (Primary Expression) (Renamed respelling marks) := by
  rintro before value after derivation _ after' rfl renamed
  cases derivation with
  | literal written => exact ⟨_, respelled_cons _ renamed, .literal written⟩
  | this seen => exact ⟨_, respelled_cons _ renamed, .this seen⟩
  | reference seen => exact ⟨_, .cons (Token.respelled_token _ seen) renamed, .reference seen⟩
  | @group _ closing _ _ _ opens value closes =>
      obtain ⟨before', earlier, value'⟩ := respells value rfl (respelled_cons closing renamed)
      exact ⟨_, respelled_cons _ earlier, .group opens value' closes⟩
  | super keyword dot method =>
      exact ⟨_, respelled_cons _ (respelled_cons _ (respelled_cons _ renamed)),
        .super keyword dot method⟩

theorem respells_call :
    (Call inner).Respells respelling (Call Expression) (Renamed respelling marks) := by
  intro before value after derivation
  induction derivation with
  | primary value =>
      intro _ _ named renamed
      obtain ⟨before', earlier, value'⟩ := respells_primary respells value named renamed
      exact ⟨before', earlier, .primary value'⟩
  | @call _ _ _ opening closing _ arguments _ opens listed closes ih =>
      rintro _ _ rfl renamed
      obtain ⟨middle', later, listed'⟩ := respells_listed respells listed
        (forall₂_listRename arguments) (respelled_cons closing renamed)
      obtain ⟨before', earlier, callee'⟩ := ih rfl (respelled_cons opening later)
      exact ⟨before', earlier, .call callee' opens listed' closes⟩
  | @get _ _ dot name _ _ dotted named ih =>
      rintro _ _ rfl renamed
      obtain ⟨before', earlier, object'⟩ :=
        ih rfl (respelled_cons dot (respelled_cons name renamed))
      exact ⟨before', earlier, .get object' dotted named⟩

theorem respells_unary :
    (Unary inner).Respells respelling (Unary Expression) (Renamed respelling marks) := by
  intro before value after derivation
  induction derivation with
  | call value =>
      intro _ _ named renamed
      obtain ⟨before', earlier, value'⟩ := respells_call respells value named renamed
      exact ⟨before', earlier, .call value'⟩
  | @operator operator _ _ _ prefixed _ ih =>
      rintro _ _ rfl renamed
      obtain ⟨before', earlier, operand'⟩ := ih rfl renamed
      exact ⟨_, respelled_cons operator earlier, .operator prefixed operand'⟩

theorem respells_operation {tighter : List Level} (known : tighter ⊆ levels) :
    (Operation inner tighter).Respells respelling (Operation Expression tighter)
      (Renamed respelling marks) := by
  intro before value after derivation
  induction derivation with
  | unary value =>
      intro _ _ named renamed
      obtain ⟨before', earlier, value'⟩ := respells_unary respells value named renamed
      exact ⟨before', earlier, .unary value'⟩
  | single _ ih =>
      intro _ _ named renamed
      obtain ⟨before', earlier, value'⟩ :=
        ih (fun _ membership => known (List.mem_cons_of_mem _ membership)) named renamed
      exact ⟨before', earlier, .single value'⟩
  | @join _ _ _ _ _ operator left right _ wanted _ ihLeft ihRight =>
      rintro _ _ rfl renamed
      obtain ⟨middle', later, right'⟩ :=
        ihRight (fun _ membership => known (List.mem_cons_of_mem _ membership)) rfl renamed
      obtain ⟨before', earlier, left'⟩ := ihLeft known rfl (respelled_cons operator later)
      rw [rename_build (known List.mem_cons_self)]
      exact ⟨before', earlier, .join left' wanted right'⟩

theorem respells_assignment :
    (Assignment inner).Respells respelling (Assignment Expression) (Renamed respelling marks) := by
  rintro before value after derivation _ after' rfl renamed
  cases derivation with
  | @name name equals _ _ _ _ named equal value =>
      obtain ⟨before', earlier, value'⟩ := respells value rfl renamed
      exact ⟨_, .cons (Token.respelled_token _ named) (respelled_cons equals earlier),
        .name named equal value'⟩
  | @property _ _ _ dot name equals _ _ object dotted named equal value =>
      obtain ⟨middle', later, value'⟩ := respells value rfl renamed
      obtain ⟨before', earlier, object'⟩ := respells_call respells object rfl
        (respelled_cons dot (respelled_cons name (respelled_cons equals later)))
      exact ⟨before', earlier, .property object' dotted named equal value'⟩
  | operation value =>
      obtain ⟨before', earlier, value'⟩ :=
        respells_operation respells (List.Subset.refl levels) value rfl renamed
      exact ⟨before', earlier, .operation value'⟩

end Expressions

theorem respells_expression :
    Expression.Respells respelling Expression (Renamed respelling marks) := by
  intro before value after derivation
  induction derivation with
  | nested inner within assignment ih =>
      intro _ _ named renamed
      have respells : inner.Respells respelling Expression (Renamed respelling marks) :=
        fun _ _ _ part _ _ named renamed => ih part named renamed
      obtain ⟨before', earlier, value'⟩ := respells_assignment respells assignment named renamed
      exact ⟨before', earlier, .nested Expression (fun _ _ _ part => part) value'⟩

theorem respells_optional :
    (Optional Expression).Respells respelling (Optional Expression)
      fun value value' => value.map (Expr.rename respelling marks) = value' := by
  rintro before value after derivation _ after' rfl renamed
  cases derivation with
  | none => exact ⟨after', renamed, .none⟩
  | some value =>
      obtain ⟨before', earlier, value'⟩ := respells_expression value rfl renamed
      exact ⟨before', earlier, .some value'⟩

/-! ## Statements -/

variable {rule : Respelling.Rule}

theorem respells_names (mark : Bool) :
    (Listed Name).Respells respelling (Listed Name) fun names names' =>
      names.map (respelling.token mark) = names' := by
  have respells : Name.Respells respelling Name fun name name' =>
      respelling.token mark name = name' := by
    rintro _ name after ⟨seen⟩ _ after' rfl renamed
    exact ⟨_, .cons (Token.respelled_token mark seen) renamed, .identifier seen⟩
  rintro before names after derivation _ after' rfl renamed
  apply respells_listed respells derivation _ renamed
  exact List.forall₂_map_right_iff.mpr (List.forall₂_same.mpr fun _ _ => rfl)

theorem respells_variableDeclaration :
    VariableDeclaration.Respells respelling VariableDeclaration
      (Stmt.Renames respelling rule marks) := by
  intro before statement after derivation statement' after' renames renamed
  cases derivation with
  | @bare keyword _ stop _ declares named stops =>
      cases renames with
      | var _ _ =>
          exact ⟨_, respelled_cons keyword (.cons (Token.respelled_token _ named)
            (respelled_cons stop renamed)), .bare declares named stops⟩
  | @initialized keyword _ equals stop _ _ _ declares named equal value stops =>
      cases renames with
      | var _ _ =>
          obtain ⟨before', earlier, value'⟩ :=
            respells_expression value rfl (respelled_cons stop renamed)
          exact ⟨_, respelled_cons keyword (.cons (Token.respelled_token _ named)
            (respelled_cons equals earlier)), .initialized declares named equal value' stops⟩

theorem respells_expressionStatement :
    ExpressionStatement.Respells respelling ExpressionStatement
      (Stmt.Renames respelling rule marks) := by
  rintro before _ after ⟨value, stops⟩ statement' after' renames renamed
  cases renames with
  | expression _ =>
      obtain ⟨before', earlier, value'⟩ := respells_expression value rfl (respelled_cons _ renamed)
      exact ⟨before', earlier, .intro value' stops⟩

theorem respells_forInitializer :
    ForInitializer.Respells respelling ForInitializer
      (Stmt.OptionRenames respelling rule marks) := by
  intro before initializer after derivation initializer' after' renames renamed
  cases derivation with
  | none stops =>
      cases renames
      exact ⟨_, respelled_cons _ renamed, .none stops⟩
  | var declaration =>
      cases renames with
      | some parts =>
          obtain ⟨before', earlier, declaration'⟩ :=
            respells_variableDeclaration declaration parts renamed
          exact ⟨before', earlier, .var declaration'⟩
  | expression statement =>
      cases renames with
      | some parts =>
          obtain ⟨before', earlier, statement'⟩ :=
            respells_expressionStatement statement parts renamed
          exact ⟨before', earlier, .expression statement'⟩

theorem respells_superclass :
    Superclass.Respells respelling Superclass fun superclass superclass' =>
      superclass.map (Expr.rename respelling marks) = superclass' := by
  rintro before superclass after derivation _ after' rfl renamed
  cases derivation with
  | none => exact ⟨after', renamed, .none⟩
  | some less named =>
      exact ⟨_, respelled_cons _ (.cons (Token.respelled_token _ named) renamed), .some less named⟩

/-- Whether a statement takes an `else` is not changed by renaming. -/
theorem endsOpen_renames {statement statement' : Stmt} :
    statement.Renames respelling rule marks statement' → endsOpen statement' = endsOpen statement
  | .conditional _ _ .none => rfl
  | .conditional _ _ (.some parts) => by
      rw [endsOpen, endsOpen]
      exact endsOpen_renames parts
  | .whileLoop _ second => by
      rw [endsOpen, endsOpen]
      exact endsOpen_renames second
  | .forLoop _ _ _ fourth => by
      rw [endsOpen, endsOpen]
      exact endsOpen_renames fourth
  | .expression _ | .print _ | .var _ _ | .block _ _ _ | .function _ _ | .returning _
  | .classDecl _ _ _ => rfl

section Statements

variable {inner : Position → Rule Stmt}
variable (respells : ∀ position marks, (inner position).Respells respelling (Statement position)
  (Stmt.Renames respelling rule marks))
include respells

theorem respells_block :
    (Block (inner .declaration)).Respells respelling (Block (Statement .declaration))
      (Stmt.ListRenames respelling rule marks) := by
  rintro before body after ⟨opens, statements, closes⟩ body' after' renames renamed
  obtain ⟨before', earlier, statements'⟩ := respells_many (respells .declaration marks)
    statements renames.forall₂ (respelled_cons _ renamed)
  exact ⟨_, respelled_cons _ earlier, .intro opens statements' closes⟩

theorem respells_function :
    (Function (inner .declaration)).Respells respelling (Function (Statement .declaration))
      (FunctionDecl.Renames respelling rule marks) := by
  rintro _ _ after ⟨named, opens, parameters, closes, block⟩ _ after' ⟨mark, _, _, parts⟩ renamed
  obtain ⟨middle', later, block'⟩ := respells_block respells block parts renamed
  obtain ⟨before', earlier, parameters'⟩ :=
    respells_names mark parameters rfl (respelled_cons _ later)
  exact ⟨_, respelled_cons _ (respelled_cons _ earlier),
    .intro named opens parameters' closes block'⟩

theorem respells_plain :
    (Plain inner).Respells respelling (Plain Statement) (Stmt.Renames respelling rule marks) := by
  intro before statement after derivation statement' after' renames renamed
  cases derivation with
  | expression statement =>
      obtain ⟨before', earlier, statement'⟩ :=
        respells_expressionStatement statement renames renamed
      exact ⟨before', earlier, .expression statement'⟩
  | print keyword value stops =>
      cases renames with
      | print _ =>
          obtain ⟨before', earlier, value'⟩ :=
            respells_expression value rfl (respelled_cons _ renamed)
          exact ⟨_, respelled_cons _ earlier, .print keyword value' stops⟩
  | returning keyword value stops =>
      cases renames with
      | returning _ =>
          obtain ⟨before', earlier, value'⟩ :=
            respells_optional value rfl (respelled_cons _ renamed)
          exact ⟨_, respelled_cons _ earlier, .returning keyword value' stops⟩
  | block block =>
      cases renames with
      | block mark _ parts =>
          obtain ⟨before', earlier, block'⟩ := respells_block respells block parts renamed
          exact ⟨before', earlier, .block block'⟩
  | whileLoop keyword opens condition closes body =>
      cases renames with
      | whileLoop _ second =>
          obtain ⟨middle', later, body'⟩ := respells _ _ body second renamed
          obtain ⟨before', earlier, condition'⟩ :=
            respells_expression condition rfl (respelled_cons _ later)
          exact ⟨_, respelled_cons _ (respelled_cons _ earlier),
            .whileLoop keyword opens condition' closes body'⟩
  | forLoop keyword opens initializer condition stops increment closes body =>
      cases renames with
      | forLoop first _ _ fourth =>
          obtain ⟨middle', later, body'⟩ := respells _ _ body fourth renamed
          obtain ⟨increments', behind, increment'⟩ :=
            respells_optional increment rfl (respelled_cons _ later)
          obtain ⟨conditions', between, condition'⟩ :=
            respells_optional condition rfl (respelled_cons _ behind)
          obtain ⟨before', earlier, initializer'⟩ :=
            respells_forInitializer initializer first between
          exact ⟨_, respelled_cons _ (respelled_cons _ earlier),
            .forLoop keyword opens initializer' condition' stops increment' closes body'⟩
  | conditional keyword opens condition closes consequent =>
      cases renames with
      | conditional _ second third =>
          cases third
          obtain ⟨middle', later, consequent'⟩ := respells _ _ consequent second renamed
          obtain ⟨before', earlier, condition'⟩ :=
            respells_expression condition rfl (respelled_cons _ later)
          exact ⟨_, respelled_cons _ (respelled_cons _ earlier),
            .conditional keyword opens condition' closes consequent'⟩
  | alternative keyword opens condition closes consequent closed otherwise alternative =>
      cases renames with
      | conditional _ second third =>
          cases third with
          | some parts =>
              obtain ⟨behind', last, alternative'⟩ := respells _ _ alternative parts renamed
              obtain ⟨middle', later, consequent'⟩ :=
                respells _ _ consequent second (respelled_cons _ last)
              obtain ⟨before', earlier, condition'⟩ :=
                respells_expression condition rfl (respelled_cons _ later)
              exact ⟨_, respelled_cons _ (respelled_cons _ earlier),
                .alternative keyword opens condition' closes consequent'
                  ((endsOpen_renames second).trans closed) otherwise alternative'⟩

theorem respells_declaration :
    (Declaration inner).Respells respelling (Declaration Statement)
      (Stmt.Renames respelling rule marks) := by
  intro before statement after derivation statement' after' renames renamed
  cases derivation with
  | classDecl keyword named superclass opens methods closes =>
      cases renames with
      | classDecl _ _ parts =>
          obtain ⟨middle', later, methods'⟩ := respells_many (respells_function respells)
            methods parts.forall₂ (respelled_cons _ renamed)
          obtain ⟨before', earlier, superclass'⟩ :=
            respells_superclass superclass rfl (respelled_cons _ later)
          exact ⟨_, respelled_cons _ (respelled_cons _ earlier),
            .classDecl keyword named superclass' opens methods' closes⟩
  | function keyword declaration =>
      cases renames with
      | function _ parts =>
          obtain ⟨before', earlier, declaration'⟩ :=
            respells_function respells declaration parts renamed
          exact ⟨_, respelled_cons _ earlier, .function keyword declaration'⟩
  | var declaration =>
      obtain ⟨before', earlier, declaration'⟩ :=
        respells_variableDeclaration declaration renames renamed
      exact ⟨before', earlier, .var declaration'⟩
  | plain statement =>
      obtain ⟨before', earlier, statement'⟩ := respells_plain respells statement renames renamed
      exact ⟨before', earlier, .plain statement'⟩

end Statements

theorem respells_statement (position : Position) :
    (Statement position).Respells respelling (Statement position)
      (Stmt.Renames respelling rule marks) := by
  intro before statement after derivation
  induction derivation generalizing marks with
  | declaration inner _ declaration ih =>
      intro _ _ renames renamed
      have respells (position : Position) (marks : Marks) :
          (inner position).Respells respelling (Statement position)
            (Stmt.Renames respelling rule marks) :=
        fun _ _ _ part _ _ renames renamed => ih part renames renamed
      obtain ⟨before', earlier, declaration'⟩ :=
        respells_declaration respells declaration renames renamed
      exact ⟨before', earlier, .declaration Statement (fun _ _ _ _ part => part) declaration'⟩
  | plain inner _ statement ih =>
      intro _ _ renames renamed
      have respells (position : Position) (marks : Marks) :
          (inner position).Respells respelling (Statement position)
            (Stmt.Renames respelling rule marks) :=
        fun _ _ _ part _ _ renames renamed => ih part renames renamed
      obtain ⟨before', earlier, statement'⟩ := respells_plain respells statement renames renamed
      exact ⟨before', earlier, .plain Statement (fun _ _ _ _ part => part) statement'⟩

/-- The rules derive a renamed program from tokens of which some are renamed. -/
theorem respells_program {tokens : List Token} {program program' : List Stmt}
    (derivation : Program tokens program)
    (renames : Stmt.ListRenames respelling rule marks program program') :
    ∃ tokens', List.Forall₂ (Token.Respelled respelling) tokens tokens' ∧
      Program tokens' program' :=
  respells_many (respells_statement .declaration) derivation renames.forall₂ .nil

end Grammar

end Lox
