import Lox.Grammar.Statement

/-!
# The grammar as rules

The productions of the grammar as relations, independent of the functions that
read them. A rule relates a list of tokens to a tree built from its front and
to the tokens behind that front, so that rules are joined by passing the tokens
along. Nothing here looks ahead, counts steps or recovers from a fault.

    program     → declaration*
    declaration → class | fun | var | statement
    class       → "class" IDENTIFIER ( "<" IDENTIFIER )? "{" function* "}"
    fun         → "fun" function
    function    → IDENTIFIER "(" parameters? ")" block
    var         → "var" IDENTIFIER ( "=" expression )? ";"
    statement   → expression ";" | for | if | "print" expression ";"
                | "return" expression? ";" | while | block
    for         → "for" "(" ( var | expression ";" | ";" ) expression? ";" expression? ")"
                  statement
    if          → "if" "(" expression ")" statement ( "else" statement )?
    while       → "while" "(" expression ")" statement
    block       → "{" declaration* "}"
    parameters  → IDENTIFIER ( "," IDENTIFIER )*
    expression  → ( call "." )? IDENTIFIER "=" expression | or
    or          → and ( "or" and )*
    and         → equality ( "and" equality )*
    equality    → comparison ( ( "!=" | "==" ) comparison )*
    comparison  → term ( ( ">" | ">=" | "<" | "<=" ) term )*
    term        → factor ( ( "-" | "+" ) factor )*
    factor      → unary ( ( "/" | "*" ) unary )*
    unary       → ( "!" | "-" ) unary | call
    call        → primary ( "(" arguments? ")" | "." IDENTIFIER )*
    arguments   → expression ( "," expression )*
    primary     → NUMBER | STRING | "true" | "false" | "nil" | "this" | IDENTIFIER
                | "(" expression ")" | "super" "." IDENTIFIER

Two conditions are not context free: lists of parameters and arguments have at
most 255 entries, and an `else` belongs to the nearest `if` that is still open.
-/

namespace Lox.Grammar

/-- A rule relates tokens to a tree built from their front and to the tokens
behind that front. -/
abbrev Rule (α : Type) := List Token → α → List Token → Prop

/-! ## Names and lists -/

/-- An identifier. -/
inductive Name : Rule Token where
  | identifier {name : Token} {after : List Token} :
      name.kind = .identifier → Name (name :: after) name after

/-- Any number of items one after another. -/
inductive Many {α : Type} (item : Rule α) : Rule (List α) where
  | none {after : List Token} : Many item after [] after
  | more {before middle after : List Token} {first : α} {rest : List α} :
      item before first middle → Many item middle rest after →
      Many item before (first :: rest) after

/-- At least one item, with commas between them. -/
inductive Separated {α : Type} (item : Rule α) : Rule (List α) where
  | last {before after : List Token} {value : α} :
      item before value after → Separated item before [value] after
  | more {before middle after : List Token} {comma : Token} {first : α} {rest : List α} :
      item before first (comma :: middle) → comma.kind = .mark .comma →
      Separated item middle rest after → Separated item before (first :: rest) after

/-- A list of parameters or arguments, which may be empty and has a greatest
length. -/
inductive Listed {α : Type} (item : Rule α) : Rule (List α) where
  | none {after : List Token} : Listed item after [] after
  | some {before after : List Token} {values : List α} :
      Separated item before values after → values.length ≤ mostArguments →
      Listed item before values after

/-- An item that may be absent. -/
inductive Optional {α : Type} (item : Rule α) : Rule (Option α) where
  | none {after : List Token} : Optional item after none after
  | some {before after : List Token} {value : α} :
      item before value after → Optional item before (some value) after

/-! ## Expressions

Each rule takes the rule of the expressions inside it as an argument. -/

/-- The literal that a token of a kind writes. -/
def literal? : Token.Kind → Option Literal
  | .keyword .nil => some .nil
  | .keyword .true => some (.bool true)
  | .keyword .false => some (.bool false)
  | .number value => some (.number value)
  | .string text => some (.string text)
  | _ => none

/-- A literal, a name, a keyword that stands for a value, or a group. -/
inductive Primary (inner : Rule Expr) : Rule Expr where
  | literal {token : Token} {after : List Token} {value : Literal} :
      literal? token.kind = some value →
      Primary inner (token :: after) (.literal value) after
  | this {token : Token} {after : List Token} {id : Nat} :
      token.kind = .keyword .this →
      Primary inner (token :: after) (.this ⟨token, id⟩) after
  | reference {token : Token} {after : List Token} {id : Nat} :
      token.kind = .identifier →
      Primary inner (token :: after) (.variable ⟨token, id⟩) after
  | group {opening closing : Token} {before after : List Token} {value : Expr} :
      opening.kind = .mark .leftParen → inner before value (closing :: after) →
      closing.kind = .mark .rightParen →
      Primary inner (opening :: before) (.grouping value) after
  | super {keyword dot method : Token} {after : List Token} {id : Nat} :
      keyword.kind = .keyword .super → dot.kind = .mark .dot →
      method.kind = .identifier →
      Primary inner (keyword :: dot :: method :: after) (.super ⟨keyword, id⟩ method) after

/-- A primary expression with the calls and property reads that follow it. -/
inductive Call (inner : Rule Expr) : Rule Expr where
  | primary {before after : List Token} {value : Expr} :
      Primary inner before value after → Call inner before value after
  | call {before middle after : List Token} {opening closing : Token} {callee : Expr}
      {arguments : List Expr} :
      Call inner before callee (opening :: middle) → opening.kind = .mark .leftParen →
      Listed inner middle arguments (closing :: after) → closing.kind = .mark .rightParen →
      Call inner before (.call callee closing arguments) after
  | get {before after : List Token} {dot name : Token} {object : Expr} :
      Call inner before object (dot :: name :: after) → dot.kind = .mark .dot →
      name.kind = .identifier → Call inner before (.get object name) after

/-- A call with the operators in front of it, which group to the right. -/
inductive Unary (inner : Rule Expr) : Rule Expr where
  | call {before after : List Token} {value : Expr} :
      Call inner before value after → Unary inner before value after
  | operator {operator : Token} {before after : List Token} {operand : Expr} :
      operator.kind = .mark .bang ∨ operator.kind = .mark .minus →
      Unary inner before operand after →
      Unary inner (operator :: before) (.unary operator operand) after

/-- The infix operators that bind equally tight, and the node they build. -/
structure Level where
  operators : List Token.Kind
  build : Expr → Token → Expr → Expr

/-- All levels of infix operators, the loosest first. -/
def levels : List Level := [
  ⟨[.keyword .or], .logical⟩,
  ⟨[.keyword .and], .logical⟩,
  ⟨[.mark .bangEqual, .mark .equalEqual], .binary⟩,
  ⟨[.mark .greater, .mark .greaterEqual, .mark .less, .mark .lessEqual], .binary⟩,
  ⟨[.mark .minus, .mark .plus], .binary⟩,
  ⟨[.mark .slash, .mark .star], .binary⟩]

/-- Operands joined by operators of the given levels. Operators of one level
group to the left. -/
inductive Operation (inner : Rule Expr) : List Level → Rule Expr where
  | unary {before after : List Token} {value : Expr} :
      Unary inner before value after → Operation inner [] before value after
  | single {level : Level} {tighter : List Level} {before after : List Token}
      {value : Expr} :
      Operation inner tighter before value after →
      Operation inner (level :: tighter) before value after
  | join {level : Level} {tighter : List Level} {before middle after : List Token}
      {operator : Token} {left right : Expr} :
      Operation inner (level :: tighter) before left (operator :: middle) →
      operator.kind ∈ level.operators → Operation inner tighter middle right after →
      Operation inner (level :: tighter) before (level.build left operator right) after

/-- An assignment to a name or to a property, or an expression that assigns
nothing. -/
inductive Assignment (inner : Rule Expr) : Rule Expr where
  | name {name equals : Token} {before after : List Token} {value : Expr} {id : Nat} :
      name.kind = .identifier → equals.kind = .mark .equal → inner before value after →
      Assignment inner (name :: equals :: before) (.assign ⟨name, id⟩ value) after
  | property {before middle after : List Token} {dot name equals : Token}
      {object value : Expr} :
      Call inner before object (dot :: name :: equals :: middle) → dot.kind = .mark .dot →
      name.kind = .identifier → equals.kind = .mark .equal → inner middle value after →
      Assignment inner before (.set object name value) after
  | operation {before after : List Token} {value : Expr} :
      Operation inner levels before value after → Assignment inner before value after

/-- An expression is an assignment around expressions. The rule for the parts
has a name of its own, because that gives induction over nested expressions
without any bookkeeping about lists of them. -/
inductive Expression : Rule Expr where
  | nested {before after : List Token} {value : Expr} (inner : Rule Expr) :
      (∀ ⦃before value after⦄, inner before value after → Expression before value after) →
      Assignment inner before value after → Expression before value after

/-! ## Statements -/

/-- The declaration of a variable, from its keyword on. -/
inductive VariableDeclaration : Rule Stmt where
  | bare {keyword name stop : Token} {after : List Token} :
      keyword.kind = .keyword .var → name.kind = .identifier →
      stop.kind = .mark .semicolon →
      VariableDeclaration (keyword :: name :: stop :: after) (.var name none) after
  | initialized {keyword name equals stop : Token} {before after : List Token}
      {value : Expr} :
      keyword.kind = .keyword .var → name.kind = .identifier →
      equals.kind = .mark .equal → Expression before value (stop :: after) →
      stop.kind = .mark .semicolon →
      VariableDeclaration (keyword :: name :: equals :: before) (.var name (some value)) after

/-- An expression evaluated for its effects. -/
inductive ExpressionStatement : Rule Stmt where
  | intro {before after : List Token} {stop : Token} {value : Expr} :
      Expression before value (stop :: after) → stop.kind = .mark .semicolon →
      ExpressionStatement before (.expression value) after

/-- The first clause of a `for` loop. -/
inductive ForInitializer : Rule (Option Stmt) where
  | none {stop : Token} {after : List Token} :
      stop.kind = .mark .semicolon → ForInitializer (stop :: after) none after
  | var {before after : List Token} {statement : Stmt} :
      VariableDeclaration before statement after →
      ForInitializer before (some statement) after
  | expression {before after : List Token} {statement : Stmt} :
      ExpressionStatement before statement after →
      ForInitializer before (some statement) after

/-- Whether a statement ends with an `if` that could still take an `else`. -/
def endsOpen : Stmt → Bool
  | .conditional _ _ none => true
  | .conditional _ _ (some alternative) => endsOpen alternative
  | .whileLoop _ body => endsOpen body
  | .forLoop _ _ _ body => endsOpen body
  | _ => false

attribute [simp] endsOpen

/-- Declarations between braces. -/
inductive Block (declaration : Rule Stmt) : Rule (List Stmt) where
  | intro {opening closing : Token} {before after : List Token} {body : List Stmt} :
      opening.kind = .mark .leftBrace → Many declaration before body (closing :: after) →
      closing.kind = .mark .rightBrace → Block declaration (opening :: before) body after

/-- A function from its name on. -/
inductive Function (declaration : Rule Stmt) : Rule FunctionDecl where
  | intro {name opening closing : Token} {before middle after : List Token}
      {parameters : List Token} {body : List Stmt} :
      name.kind = .identifier → opening.kind = .mark .leftParen →
      Listed Name before parameters (closing :: middle) →
      closing.kind = .mark .rightParen → Block declaration middle body after →
      Function declaration (name :: opening :: before) ⟨name, parameters, body⟩ after

/-- The superclass of a class, if it has one. -/
inductive Superclass : Rule (Option Expr) where
  | none {after : List Token} : Superclass after none after
  | some {less name : Token} {after : List Token} {id : Nat} :
      less.kind = .mark .less → name.kind = .identifier →
      Superclass (less :: name :: after) (some (.variable ⟨name, id⟩)) after

/-- A statement that declares nothing in front of its first part. -/
inductive Plain (inner : Position → Rule Stmt) : Rule Stmt where
  | expression {before after : List Token} {statement : Stmt} :
      ExpressionStatement before statement after → Plain inner before statement after
  | print {keyword stop : Token} {before after : List Token} {value : Expr} :
      keyword.kind = .keyword .print → Expression before value (stop :: after) →
      stop.kind = .mark .semicolon → Plain inner (keyword :: before) (.print value) after
  | returning {keyword stop : Token} {before after : List Token} {value : Option Expr} :
      keyword.kind = .keyword .return → Optional Expression before value (stop :: after) →
      stop.kind = .mark .semicolon →
      Plain inner (keyword :: before) (.returning keyword value) after
  | block {before after : List Token} {body : List Stmt} :
      Block (inner .declaration) before body after → Plain inner before (.block body) after
  | whileLoop {keyword opening closing : Token} {before middle after : List Token}
      {condition : Expr} {body : Stmt} :
      keyword.kind = .keyword .while → opening.kind = .mark .leftParen →
      Expression before condition (closing :: middle) → closing.kind = .mark .rightParen →
      inner .statement middle body after →
      Plain inner (keyword :: opening :: before) (.whileLoop condition body) after
  | forLoop {keyword opening stop closing : Token}
      {before conditions increments middle after : List Token} {initializer : Option Stmt}
      {condition increment : Option Expr} {body : Stmt} :
      keyword.kind = .keyword .for → opening.kind = .mark .leftParen →
      ForInitializer before initializer conditions →
      Optional Expression conditions condition (stop :: increments) →
      stop.kind = .mark .semicolon →
      Optional Expression increments increment (closing :: middle) →
      closing.kind = .mark .rightParen → inner .statement middle body after →
      Plain inner (keyword :: opening :: before)
        (.forLoop initializer condition increment body) after
  | conditional {keyword opening closing : Token} {before middle after : List Token}
      {condition : Expr} {consequent : Stmt} :
      keyword.kind = .keyword .if → opening.kind = .mark .leftParen →
      Expression before condition (closing :: middle) → closing.kind = .mark .rightParen →
      inner .statement middle consequent after →
      Plain inner (keyword :: opening :: before) (.conditional condition consequent none) after
  | alternative {keyword opening closing otherwise : Token}
      {before middle behind after : List Token} {condition : Expr}
      {consequent alternative : Stmt} :
      keyword.kind = .keyword .if → opening.kind = .mark .leftParen →
      Expression before condition (closing :: middle) → closing.kind = .mark .rightParen →
      inner .statement middle consequent (otherwise :: behind) →
      endsOpen consequent = false → otherwise.kind = .keyword .else →
      inner .statement behind alternative after →
      Plain inner (keyword :: opening :: before)
        (.conditional condition consequent (some alternative)) after

/-- A declaration, or a statement where no declaration starts. -/
inductive Declaration (inner : Position → Rule Stmt) : Rule Stmt where
  | classDecl {keyword name opening closing : Token} {before middle after : List Token}
      {superclass : Option Expr} {methods : List FunctionDecl} :
      keyword.kind = .keyword .class → name.kind = .identifier →
      Superclass before superclass (opening :: middle) → opening.kind = .mark .leftBrace →
      Many (Function (inner .declaration)) middle methods (closing :: after) →
      closing.kind = .mark .rightBrace →
      Declaration inner (keyword :: name :: before) (.classDecl name superclass methods) after
  | function {keyword : Token} {before after : List Token} {declaration : FunctionDecl} :
      keyword.kind = .keyword .fun →
      Function (inner .declaration) before declaration after →
      Declaration inner (keyword :: before) (.function declaration) after
  | var {before after : List Token} {statement : Stmt} :
      VariableDeclaration before statement after → Declaration inner before statement after
  | plain {before after : List Token} {statement : Stmt} :
      Plain inner before statement after → Declaration inner before statement after

/-- A statement at a position, around statements. -/
inductive Statement : Position → Rule Stmt where
  | declaration {before after : List Token} {statement : Stmt} (inner : Position → Rule Stmt) :
      (∀ ⦃position before statement after⦄, inner position before statement after →
        Statement position before statement after) →
      Declaration inner before statement after →
      Statement .declaration before statement after
  | plain {before after : List Token} {statement : Stmt} (inner : Position → Rule Stmt) :
      (∀ ⦃position before statement after⦄, inner position before statement after →
        Statement position before statement after) →
      Plain inner before statement after → Statement .statement before statement after

/-- The tokens of a whole program, without the closing one. -/
def Program (tokens : List Token) (program : List Stmt) : Prop :=
  Many (Statement .declaration) tokens program []

end Lox.Grammar
