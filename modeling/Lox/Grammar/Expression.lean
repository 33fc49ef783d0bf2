import Lox.Grammar.Cursor

/-!
# The grammar of expressions

Each level of precedence reads its operands from the level above it:

    expression  → assignment
    assignment  → ( call "." )? IDENTIFIER "=" assignment | or
    or          → and ( "or" and )*
    and         → equality ( "and" equality )*
    equality    → comparison ( ( "!=" | "==" ) comparison )*
    comparison  → term ( ( ">" | ">=" | "<" | "<=" ) term )*
    term        → factor ( ( "-" | "+" ) factor )*
    factor      → unary ( ( "/" | "*" ) unary )*
    unary       → ( "!" | "-" ) unary | call
    call        → primary ( "(" arguments? ")" | "." IDENTIFIER )*
    primary     → literal | "(" expression ")" | IDENTIFIER | "this" | "super" "." IDENTIFIER

A production takes the reading of a nested expression as an argument, and a
bound on the tokens left. Only `expression` ties the knot. Every nested reading
follows at least one consumed token, so a bound that covers the tokens at the
start is never the reason to stop: where it reaches zero no tokens are left, and
what happens then is what happens at the end of the input.
-/

namespace Lox.Grammar

open Reading

/-- The greatest number of parameters or arguments. -/
def mostArguments : Nat := 255

/-- Items with commas between them up to the last one, after those already read.
There is a fault for one item too many and one for an item that is missing. -/
def separatedAfter {α : Type} (item : Reading α) (tooMany missing : SyntaxFault) :
    Nat → List α → Reading (List α)
  | bound, done => do
      if done.length ≥ mostArguments then fail tooMany
      match bound with
      | 0 => fail missing
      | bound + 1 =>
          let value ← item
          if ← accepts (.mark .comma) then
            separatedAfter item tooMany missing bound (done ++ [value])
          else return done ++ [value]

/-- Items with commas between them, unless the closing parenthesis comes at
once. -/
def separated {α : Type} (item : Reading α) (tooMany missing : SyntaxFault) (bound : Nat) :
    Reading (List α) := do
  if ← sees (.mark .rightParen) then return []
  else separatedAfter item tooMany missing bound []

/-- The arguments of a call, after its opening parenthesis and up to the closing
one. -/
def arguments (nested : Reading Expr) (bound : Nat) : Reading (List Expr × Token) := do
  let values ← separated nested .tooManyArguments .expression bound
  let paren ← expect (.mark .rightParen) .argumentsClosing
  return (values, paren)

/-- A literal, a name, a keyword that stands for a value, or a group. -/
def primary (nested : Reading Expr) : Reading Expr := do
  let token ← peek
  match token.kind with
  | .keyword .false => skip; return .literal (.bool false)
  | .keyword .true => skip; return .literal (.bool true)
  | .keyword .nil => skip; return .literal .nil
  | .number value => skip; return .literal (.number value)
  | .string value => skip; return .literal (.string value)
  | .keyword .super =>
      skip
      let _ ← expect (.mark .dot) .superDot
      let method ← expect .identifier .superMethod
      return .super (← refer token) method
  | .keyword .this => skip; return .this (← refer token)
  | .identifier => skip; return .variable (← refer token)
  | .mark .leftParen =>
      skip
      let inner ← nested
      let _ ← expect (.mark .rightParen) .groupClosing
      return .grouping inner
  | _ => fail .expression

/-- Calls and property reads applied to an expression already read. -/
def callsAfter (nested : Reading Expr) (bound : Nat) : Nat → Expr → Reading Expr
  | 0, callee => return callee
  | left + 1, callee => do
      if ← accepts (.mark .leftParen) then
        let (values, paren) ← arguments nested bound
        callsAfter nested bound left (.call callee paren values)
      else if ← accepts (.mark .dot) then
        let name ← expect .identifier .propertyName
        callsAfter nested bound left (.get callee name)
      else return callee

/-- A primary expression with the calls and property reads that follow it. -/
def call (nested : Reading Expr) (bound : Nat) : Reading Expr := do
  callsAfter nested bound bound (← primary nested)

/-- Whether a token of this kind can stand in front of an operand. -/
def isPrefixOperator (kind : Token.Kind) : Bool :=
  kind = .mark .bang || kind = .mark .minus

/-- Every operator in front of the next operand. -/
def operatorsInFront : Reading (List Token) := do
  let cursor ← get
  set { cursor with rest := cursor.rest.dropWhile fun token => isPrefixOperator token.kind }
  return cursor.rest.takeWhile fun token => isPrefixOperator token.kind

/-- An operand with the operators in front of it, the nearest applied first. -/
def unary (nested : Reading Expr) (bound : Nat) : Reading Expr := do
  let operators ← operatorsInFront
  let operand ← call nested bound
  return operators.foldr .unary operand

/-- Operators of one level applied to a left operand already read, the leftmost
first. -/
def leftAssociativeAfter (operators : List Token.Kind) (build : Expr → Token → Expr → Expr)
    (operand : Reading Expr) : Nat → Expr → Reading Expr
  | 0, left => return left
  | bound + 1, left => do
      match ← acceptWhen operators.contains with
      | none => return left
      | some operator =>
          let right ← operand
          leftAssociativeAfter operators build operand bound (build left operator right)

/-- Operands joined by the operators of one level. -/
def leftAssociative (operators : List Token.Kind) (build : Expr → Token → Expr → Expr)
    (operand : Reading Expr) (bound : Nat) : Reading Expr := do
  leftAssociativeAfter operators build operand bound (← operand)

/-- Products and quotients. -/
def factor (nested : Reading Expr) (bound : Nat) : Reading Expr :=
  leftAssociative [.mark .slash, .mark .star] .binary (unary nested bound) bound

/-- Sums and differences. -/
def term (nested : Reading Expr) (bound : Nat) : Reading Expr :=
  leftAssociative [.mark .minus, .mark .plus] .binary (factor nested bound) bound

/-- Order comparisons. -/
def comparison (nested : Reading Expr) (bound : Nat) : Reading Expr :=
  leftAssociative [.mark .greater, .mark .greaterEqual, .mark .less, .mark .lessEqual] .binary
    (term nested bound) bound

/-- Equality comparisons. -/
def equality (nested : Reading Expr) (bound : Nat) : Reading Expr :=
  leftAssociative [.mark .bangEqual, .mark .equalEqual] .binary (comparison nested bound) bound

/-- Conjunctions. -/
def conjunction (nested : Reading Expr) (bound : Nat) : Reading Expr :=
  leftAssociative [.keyword .and] .logical (equality nested bound) bound

/-- Disjunctions. -/
def disjunction (nested : Reading Expr) (bound : Nat) : Reading Expr :=
  leftAssociative [.keyword .or] .logical (conjunction nested bound) bound

/-- An assignment, or an expression that assigns nothing. The target is read as
an expression first and then has to be a name or a property. -/
def assignment (nested : Reading Expr) (bound : Nat) : Reading Expr := do
  let target ← disjunction nested bound
  match ← accept (.mark .equal) with
  | none => return target
  | some equals =>
      let value ← nested
      match target with
      | .variable reference => return .assign (← refer reference.name) value
      | .get object name => return .set object name value
      | _ => failAt equals .assignmentTarget

/-- An expression within a bound on the tokens left. -/
def expression : Nat → Reading Expr
  | 0 => fail .expression
  | bound + 1 => assignment (expression bound) (bound + 1)

end Lox.Grammar
