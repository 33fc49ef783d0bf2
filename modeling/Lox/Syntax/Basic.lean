import Lox.Token.Basic

/-!
# Syntax trees

Expressions and statements as the grammar builds them. Tokens are kept where a
later stage needs their text or their line.

A use of a name is a `Reference`: the token together with a number that tells
this use apart from every other one, so that facts about a use can be kept
beside the tree instead of in it.
-/

namespace Lox

/-- One use of a name. -/
structure Reference where
  name : Token
  /-- Tells this use apart from all others. -/
  id : Nat
  deriving DecidableEq, Inhabited

/-- A value written in the source text. -/
inductive Literal where
  | nil
  | bool (value : Bool)
  | number (value : Float)
  | string (value : String)
  deriving DecidableEq, Inhabited

/-- Expressions. Operators are tokens, which keeps their line for errors. -/
inductive Expr where
  | literal (value : Literal)
  | grouping (inner : Expr)
  | unary (operator : Token) (operand : Expr)
  | binary (left : Expr) (operator : Token) (right : Expr)
  | logical (left : Expr) (operator : Token) (right : Expr)
  | variable (reference : Reference)
  | assign (reference : Reference) (value : Expr)
  /-- A call, with the closing parenthesis that locates its errors. -/
  | call (callee : Expr) (paren : Token) (arguments : List Expr)
  | get (object : Expr) (name : Token)
  | set (object : Expr) (name : Token) (value : Expr)
  | this (reference : Reference)
  | super (reference : Reference) (method : Token)
  deriving Inhabited

mutual

/-- Statements. -/
inductive Stmt where
  | expression (value : Expr)
  | print (value : Expr)
  | var (name : Token) (initializer : Option Expr)
  | block (body : List Stmt)
  | conditional (condition : Expr) (consequent : Stmt) (alternative : Option Stmt)
  | whileLoop (condition : Expr) (body : Stmt)
  | forLoop (initializer : Option Stmt) (condition increment : Option Expr) (body : Stmt)
  | function (declaration : FunctionDecl)
  | returning (keyword : Token) (value : Option Expr)
  | classDecl (name : Token) (superclass : Option Expr) (methods : List FunctionDecl)

/-- The declaration of a function or method. -/
structure FunctionDecl where
  name : Token
  parameters : List Token
  body : List Stmt

end

instance : Inhabited Stmt := ⟨.block []⟩

instance : Inhabited FunctionDecl := ⟨⟨default, [], []⟩⟩

namespace Expr

/-- The line an expression is blamed on: that of the token which decides its
meaning. A literal has no such token. -/
def line? : Expr → Option Nat
  | .literal _ => none
  | .grouping inner => inner.line?
  | .unary operator _ => some operator.line
  | .binary _ operator _ => some operator.line
  | .logical _ operator _ => some operator.line
  | .variable reference => some reference.name.line
  | .assign reference _ => some reference.name.line
  | .call _ paren _ => some paren.line
  | .get _ name => some name.line
  | .set _ name _ => some name.line
  | .this reference => some reference.name.line
  | .super reference _ => some reference.name.line

end Expr

end Lox
