import Lox.Proofs.Grammar.Rules
import Mathlib.Data.List.Forall2

/-!
# More tokens behind a derivation

No rule looks at the tokens behind the front that it takes. So what is derived
from some tokens is derived from the same tokens with more behind them, and
programs can be put one behind another.
-/

namespace Lox.Grammar

/-- What a rule derives, another one derives with more tokens behind. -/
def Rule.Extends {α : Type} (more : List Token) (rule other : Rule α) : Prop :=
  ∀ ⦃before value after⦄, rule before value after →
    other (before ++ more) value (after ++ more)

variable {α : Type} {more : List Token}

/-! ## Names and lists -/

theorem extends_name : Name.Extends more Name := by
  intro before name after derivation
  cases derivation with
  | identifier kind => exact .identifier kind

section Lists

variable {item item' : Rule α} (extension : item.Extends more item')
include extension

theorem extends_many : (Many item).Extends more (Many item') := by
  intro before values after derivation
  induction derivation with
  | none => exact .none
  | more first _ ih => exact .more (extension first) ih

theorem extends_separated : (Separated item).Extends more (Separated item') := by
  intro before values after derivation
  induction derivation with
  | last value => exact .last (extension value)
  | more first comma _ ih => exact .more (extension first) comma ih

theorem extends_listed : (Listed item).Extends more (Listed item') := by
  intro before values after derivation
  cases derivation with
  | none => exact .none
  | some values short => exact .some (extends_separated extension values) short

theorem extends_optional : (Optional item).Extends more (Optional item') := by
  intro before value after derivation
  cases derivation with
  | none => exact .none
  | some value => exact .some (extension value)

end Lists

/-! ## Expressions -/

section Expressions

variable {inner inner' : Rule Expr} (extension : inner.Extends more inner')
include extension

theorem extends_primary : (Primary inner).Extends more (Primary inner') := by
  intro before value after derivation
  cases derivation with
  | literal written => exact .literal written
  | this kind => exact .this kind
  | reference kind => exact .reference kind
  | group opening value closing => exact .group opening (extension value) closing
  | super keyword dot method => exact .super keyword dot method

theorem extends_call : (Call inner).Extends more (Call inner') := by
  intro before value after derivation
  induction derivation with
  | primary value => exact .primary (extends_primary extension value)
  | call _ opening arguments closing ih =>
      exact .call ih opening (extends_listed extension arguments) closing
  | get _ dot name ih => exact .get ih dot name

theorem extends_unary : (Unary inner).Extends more (Unary inner') := by
  intro before value after derivation
  induction derivation with
  | call value => exact .call (extends_call extension value)
  | operator kind _ ih => exact .operator kind ih

theorem extends_operation (operators : List Level) :
    (Operation inner operators).Extends more (Operation inner' operators) := by
  intro before value after derivation
  induction derivation with
  | unary value => exact .unary (extends_unary extension value)
  | single _ ih => exact .single ih
  | join _ operator _ ihLeft ihRight => exact .join ihLeft operator ihRight

theorem extends_assignment : (Assignment inner).Extends more (Assignment inner') := by
  intro before value after derivation
  cases derivation with
  | name name equals value => exact .name name equals (extension value)
  | property object dot name equals value =>
      exact .property (extends_call extension object) dot name equals (extension value)
  | operation value => exact .operation (extends_operation extension levels value)

end Expressions

/-- What a rule derives, with more tokens behind. -/
inductive Behind (more : List Token) (rule : Rule α) : Rule α where
  | intro {before after : List Token} {value : α} :
      rule before value after → Behind more rule (before ++ more) value (after ++ more)

theorem extends_behind (rule : Rule α) : rule.Extends more (Behind more rule) :=
  fun _ _ _ derivation => .intro derivation

theorem extends_expression : Expression.Extends more Expression := by
  intro before value after derivation
  induction derivation with
  | nested inner _ assignment ih =>
      apply Expression.nested (Behind more inner)
      · intro before value after part
        cases part with
        | intro part => exact ih part
      · exact extends_assignment (extends_behind inner) assignment

/-! ## Statements -/

theorem extends_variableDeclaration :
    VariableDeclaration.Extends more VariableDeclaration := by
  intro before statement after derivation
  cases derivation with
  | bare keyword name stop => exact .bare keyword name stop
  | initialized keyword name equals value stop =>
      exact .initialized keyword name equals (extends_expression value) stop

theorem extends_expressionStatement :
    ExpressionStatement.Extends more ExpressionStatement := by
  intro before statement after derivation
  cases derivation with
  | intro value stop => exact .intro (extends_expression value) stop

theorem extends_forInitializer : ForInitializer.Extends more ForInitializer := by
  intro before statement after derivation
  cases derivation with
  | none stop => exact .none stop
  | var declaration => exact .var (extends_variableDeclaration declaration)
  | expression statement => exact .expression (extends_expressionStatement statement)

theorem extends_superclass : Superclass.Extends more Superclass := by
  intro before value after derivation
  cases derivation with
  | none => exact .none
  | some less name => exact .some less name

section Bodies

variable {declaration declaration' : Rule Stmt}
variable (extension : declaration.Extends more declaration')
include extension

theorem extends_block : (Block declaration).Extends more (Block declaration') := by
  intro before body after derivation
  cases derivation with
  | intro opening body closing => exact .intro opening (extends_many extension body) closing

theorem extends_function : (Function declaration).Extends more (Function declaration') := by
  intro before value after derivation
  cases derivation with
  | intro name opening parameters closing body =>
      exact .intro name opening (extends_listed extends_name parameters) closing
        (extends_block extension body)

end Bodies

section Statements

variable {inner inner' : Position → Rule Stmt}
variable (extension : ∀ position, (inner position).Extends more (inner' position))
include extension

theorem extends_plain : (Plain inner).Extends more (Plain inner') := by
  have expressions : (Optional Expression).Extends more (Optional Expression) :=
    extends_optional extends_expression
  intro before statement after derivation
  cases derivation with
  | expression statement => exact .expression (extends_expressionStatement statement)
  | print keyword value stop => exact .print keyword (extends_expression value) stop
  | returning keyword value stop => exact .returning keyword (expressions value) stop
  | block body => exact .block (extends_block (extension .declaration) body)
  | whileLoop keyword opening condition closing body =>
      exact .whileLoop keyword opening (extends_expression condition) closing
        (extension .statement body)
  | forLoop keyword opening initializer condition stop increment closing body =>
      exact .forLoop keyword opening (extends_forInitializer initializer) (expressions condition)
        stop (expressions increment) closing (extension .statement body)
  | conditional keyword opening condition closing consequent =>
      exact .conditional keyword opening (extends_expression condition) closing
        (extension .statement consequent)
  | alternative keyword opening condition closing consequent closed otherwise alternative =>
      exact .alternative keyword opening (extends_expression condition) closing
        (extension .statement consequent) closed otherwise (extension .statement alternative)

theorem extends_declaration : (Declaration inner).Extends more (Declaration inner') := by
  intro before statement after derivation
  cases derivation with
  | classDecl keyword name superclass opening methods closing =>
      exact .classDecl keyword name (extends_superclass superclass) opening
        (extends_many (extends_function (extension .declaration)) methods) closing
  | function keyword declaration =>
      exact .function keyword (extends_function (extension .declaration) declaration)
  | var declaration => exact .var (extends_variableDeclaration declaration)
  | plain statement => exact .plain (extends_plain extension statement)

end Statements

theorem extends_statement (position : Position) :
    (Statement position).Extends more (Statement position) := by
  intro before statement after derivation
  induction derivation with
  | declaration inner _ declaration ih =>
      apply Statement.declaration fun position => Behind more (inner position)
      · intro position before statement after part
        cases part with
        | intro part => exact ih part
      · exact extends_declaration (fun position => extends_behind (inner position)) declaration
  | plain inner _ statement ih =>
      apply Statement.plain fun position => Behind more (inner position)
      · intro position before statement after part
        cases part with
        | intro part => exact ih part
      · exact extends_plain (fun position => extends_behind (inner position)) statement

/-! ## Programs one behind another -/

theorem Many.append {item : Rule α} {before middle after : List Token} {front back : List α}
    (first : Many item before front middle) (second : Many item middle back after) :
    Many item before (front ++ back) after := by
  induction first with
  | none => exact second
  | more item _ ih => exact .more item (ih second)

/-- The tokens of several programs one behind another are a program. -/
theorem program_flatten {tokens : List (List Token)} {programs : List (List Stmt)}
    (derivations : List.Forall₂ Program tokens programs) :
    Program tokens.flatten programs.flatten := by
  induction derivations with
  | nil => exact .none
  | cons first _ ih => exact (extends_many (extends_statement .declaration) first).append ih

end Lox.Grammar
