import Lox.Grammar.Expression

/-!
# The grammar of statements

    declaration → "class" class | "fun" function | "var" variable | statement
    class       → IDENTIFIER ( "<" IDENTIFIER )? "{" function* "}"
    function    → IDENTIFIER "(" ( IDENTIFIER ( "," IDENTIFIER )* )? ")" "{" block
    variable    → IDENTIFIER ( "=" expression )? ";"
    statement   → "for" for | "if" conditional | "while" while | "return" return
                | "{" block | "print" expression ";" | expression ";"
    for         → "(" ( "var" variable | expression ";" | ";" ) expression? ";" expression? ")"
                  statement
    conditional → "(" expression ")" statement ( "else" statement )?
    while       → "(" expression ")" statement
    return      → expression? ";"
    block       → declaration* "}"

The keyword or brace in front of a rule is consumed before the rule starts. An
`else` belongs to the nearest `if` that is still open, because that rule is the
first to look for it.

A fault inside a declaration is reported, and reading goes on behind it, so one
bad declaration hides none of its siblings. As with expressions, every nested
reading follows a consumed token, and a bound that covers the tokens at the
start is never the reason to stop.
-/

namespace Lox.Grammar

open Reading

/-- The two places where a statement can stand. Only the first one admits
declarations. -/
inductive Position where
  | declaration
  | statement
  deriving DecidableEq, Repr, Inhabited

/-! ### Going on after a fault -/

/-- Whether a token of this kind starts a declaration or statement. -/
def startsStatement : Token.Kind → Bool
  | .keyword .class | .keyword .fun | .keyword .var | .keyword .for | .keyword .if
  | .keyword .while | .keyword .print | .keyword .return => true
  | _ => false

/-- The tokens from the next boundary between statements on, given the token
just passed over. -/
def fromBoundary (previous : Token) : List Token → List Token
  | [] => []
  | token :: rest =>
      if previous.kind = .mark .semicolon ∨ startsStatement token.kind then token :: rest
      else fromBoundary token rest

/-- Pass over one token and then on to a boundary between statements. -/
def synchronized : List Token → List Token
  | [] => []
  | token :: rest => fromBoundary token rest

/-- Read a declaration. A fault is reported and the tokens up to the next
boundary are passed over, with no declaration as the result. -/
def recovering (declaration : Reading Stmt) : Reading (Option Stmt) := fun cursor =>
  match declaration cursor with
  | .ok stmt cursor => .ok (some stmt) cursor
  | .error diagnostic cursor =>
      .ok none { cursor with
        rest := synchronized cursor.rest
        reported := cursor.reported ++ [diagnostic] }

/-- Declarations one after another, until the end of the input or a condition on
the next token. -/
def declarationsUntil (closing : Reading Bool) (declaration : Reading Stmt) :
    Nat → Reading (List Stmt)
  | 0 => return []
  | bound + 1 => do
      if (← isAtEnd) || (← closing) then return []
      let first ← recovering declaration
      let others ← declarationsUntil closing declaration bound
      return first.toList ++ others

/-! ### Rules -/

/-- Declarations up to a closing brace. -/
def block (nested : Position → Reading Stmt) (bound : Nat) : Reading (List Stmt) := do
  let body ← declarationsUntil (sees (.mark .rightBrace)) (nested .declaration) bound
  let _ ← expect (.mark .rightBrace) .blockClosing
  return body

/-- A named function with its parameters and body. -/
def function (nested : Position → Reading Stmt) (bound : Nat) (form : FunctionForm) :
    Reading FunctionDecl := do
  let name ← expect .identifier (.functionName form)
  let _ ← expect (.mark .leftParen) (.parametersOpening form)
  let parameters ←
    separated (expect .identifier .parameterName) .tooManyParameters .parameterName bound
  let _ ← expect (.mark .rightParen) .parametersClosing
  let _ ← expect (.mark .leftBrace) (.bodyOpening form)
  let body ← block nested bound
  return ⟨name, parameters, body⟩

/-- Methods up to a closing brace or the end of the input. -/
def methods (method : Reading FunctionDecl) : Nat → Reading (List FunctionDecl)
  | 0 => return []
  | bound + 1 => do
      if (← isAtEnd) || (← sees (.mark .rightBrace)) then return []
      let first ← method
      let others ← methods method bound
      return first :: others

/-- The superclass of a class, if one is named. -/
def superclass : Reading (Option Expr) := do
  if ← accepts (.mark .less) then
    let name ← expect .identifier .superclassName
    return some (.variable (← refer name))
  else return none

/-- A class with its superclass and methods. -/
def classDeclaration (nested : Position → Reading Stmt) (bound : Nat) : Reading Stmt := do
  let name ← expect .identifier .className
  let superclass ← superclass
  let _ ← expect (.mark .leftBrace) .classBodyOpening
  let members ← methods (function nested bound .method) bound
  let _ ← expect (.mark .rightBrace) .classBodyClosing
  return .classDecl name superclass members

/-- An expression, unless a token of the given kind comes next. -/
def expressionUnless (kind : Token.Kind) (bound : Nat) : Reading (Option Expr) := do
  if ← sees kind then return none
  else return some (← expression bound)

/-- The initial value of a variable, if one is given. -/
def initialValue (bound : Nat) : Reading (Option Expr) := do
  if ← accepts (.mark .equal) then return some (← expression bound)
  else return none

/-- A variable with its initial value. -/
def variableDeclaration (bound : Nat) : Reading Stmt := do
  let name ← expect .identifier .variableName
  let initializer ← initialValue bound
  let _ ← expect (.mark .semicolon) .variableEnd
  return .var name initializer

/-- An expression evaluated for its effects. -/
def expressionStatement (bound : Nat) : Reading Stmt := do
  let value ← expression bound
  let _ ← expect (.mark .semicolon) .expressionEnd
  return .expression value

/-- A value to print. -/
def printStatement (bound : Nat) : Reading Stmt := do
  let value ← expression bound
  let _ ← expect (.mark .semicolon) .printEnd
  return .print value

/-- A value to return, if any. -/
def returnStatement (keyword : Token) (bound : Nat) : Reading Stmt := do
  let value ← expressionUnless (.mark .semicolon) bound
  let _ ← expect (.mark .semicolon) .returnEnd
  return .returning keyword value

/-- The alternative of a condition, if `else` follows. -/
def alternative (nested : Position → Reading Stmt) : Reading (Option Stmt) := do
  if ← accepts (.keyword .else) then return some (← nested .statement)
  else return none

/-- A statement under a condition, with an alternative if `else` follows. -/
def conditional (nested : Position → Reading Stmt) (bound : Nat) : Reading Stmt := do
  let _ ← expect (.mark .leftParen) .ifOpening
  let condition ← expression bound
  let _ ← expect (.mark .rightParen) .ifClosing
  let consequent ← nested .statement
  return .conditional condition consequent (← alternative nested)

/-- A statement repeated while a condition holds. -/
def whileLoop (nested : Position → Reading Stmt) (bound : Nat) : Reading Stmt := do
  let _ ← expect (.mark .leftParen) .whileOpening
  let condition ← expression bound
  let _ ← expect (.mark .rightParen) .whileClosing
  return .whileLoop condition (← nested .statement)

/-- The first clause of a `for` loop. -/
def forInitializer (bound : Nat) : Reading (Option Stmt) := do
  if ← accepts (.mark .semicolon) then return none
  else if ← accepts (.keyword .var) then return some (← variableDeclaration bound)
  else return some (← expressionStatement bound)

/-- A statement repeated under the clauses of a `for` loop. -/
def forLoop (nested : Position → Reading Stmt) (bound : Nat) : Reading Stmt := do
  let _ ← expect (.mark .leftParen) .forOpening
  let initializer ← forInitializer bound
  let condition ← expressionUnless (.mark .semicolon) bound
  let _ ← expect (.mark .semicolon) .loopConditionEnd
  let increment ← expressionUnless (.mark .rightParen) bound
  let _ ← expect (.mark .rightParen) .forClosing
  return .forLoop initializer condition increment (← nested .statement)

/-- A statement that declares nothing. -/
def plainStatement (nested : Position → Reading Stmt) (bound : Nat) : Reading Stmt := do
  let token ← peek
  match token.kind with
  | .keyword .for => skip; forLoop nested bound
  | .keyword .if => skip; conditional nested bound
  | .keyword .while => skip; whileLoop nested bound
  | .keyword .return => skip; returnStatement token bound
  | .mark .leftBrace => skip; return .block (← block nested bound)
  | .keyword .print => skip; printStatement bound
  | _ => expressionStatement bound

/-- A declaration, or a statement where no declaration starts. -/
def declaration (nested : Position → Reading Stmt) (bound : Nat) : Reading Stmt := do
  match (← peek).kind with
  | .keyword .class => skip; classDeclaration nested bound
  | .keyword .fun => skip; return .function (← function nested bound .function)
  | .keyword .var => skip; variableDeclaration bound
  | _ => plainStatement nested bound

/-- A statement at a position, within a bound on the tokens left. -/
def statement : Nat → Position → Reading Stmt
  | 0, _ => fail .expression
  | bound + 1, .declaration => declaration (statement bound) (bound + 1)
  | bound + 1, .statement => plainStatement (statement bound) (bound + 1)

/-! ### Whole inputs -/

/-- Every declaration up to the end of the input. -/
def program : Reading (List Stmt) := do
  let bound := (← get).rest.length
  declarationsUntil (pure false) (statement bound .declaration) bound

/-- One expression up to the end of the input. -/
def onlyExpression : Reading Expr := do
  let value ← expression (← get).rest.length
  if ← isAtEnd then return value
  else fail .endOfExpression

/-- Read a program from tokens that end with a closing token. The result is the
program or every syntactic fault in it, together with the next free reference
number. -/
def readProgram (tokens : List Token) (nextReference : Nat) :
    Except (List Diagnostic) (List Stmt) × Nat :=
  match program (.ofTokens tokens nextReference) with
  | .ok statements cursor =>
      match cursor.reported with
      | [] => (.ok statements, cursor.nextReference)
      | reported => (.error reported, cursor.nextReference)
  | .error diagnostic cursor =>
      (.error (cursor.reported ++ [diagnostic]), cursor.nextReference)

/-- Read an expression from tokens that end with a closing token. The result is
the expression or the first syntactic fault, together with the next free
reference number. -/
def readExpression (tokens : List Token) (nextReference : Nat) :
    Except Diagnostic Expr × Nat :=
  match onlyExpression (.ofTokens tokens nextReference) with
  | .ok value cursor => (.ok value, cursor.nextReference)
  | .error diagnostic cursor => (.error diagnostic, cursor.nextReference)

end Lox.Grammar
