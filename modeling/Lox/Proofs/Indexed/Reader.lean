import Lox.Proofs.Grammar.Rules

/-!
# Reading by index

The grammar once more, for a reader that has all tokens in one list and an index into
it. Two things can go wrong here that a cursor has no words for: a token can be looked
up where there is none, and a loop can go on for ever. So every look-up may halt the
reader, and so may the number of steps, which bounds every loop and every nesting.

Nothing keeps the index in range but the conditions under which it is moved. Every
value it has is noted.
-/

namespace Lox.Indexed

open Grammar (Position literal? mostArguments startsStatement)

/-- Why a reader stops before its end. -/
inductive Halt where
  | fault (diagnostic : Diagnostic)
  /-- A token was looked up in front of the list or behind it. -/
  | outOfRange
  /-- The steps ran out before the end was reached. -/
  | outOfSteps

/-- The state of a reader. -/
structure Reader where
  tokens : List Token
  /-- The index of the token that comes next. -/
  index : Nat
  /-- Every value that the index has had, the last one first. -/
  visited : List Nat
  nextReference : Nat
  reported : List Diagnostic

/-- A step of a reader. -/
abbrev Stepping := EStateM Halt Reader

/-- A reader in front of a list of tokens. -/
def Reader.start (tokens : List Token) (nextReference : Nat) : Reader :=
  ⟨tokens, 0, [0], nextReference, []⟩

/-- A reader one token further on. -/
def Reader.moved (reader : Reader) : Reader :=
  { reader with index := reader.index + 1, visited := (reader.index + 1) :: reader.visited }

/-! ## Looking at tokens and passing over them -/

/-- The token at an index. -/
def tokenAt (index : Nat) : Stepping Token := do
  match (← get).tokens[index]? with
  | some token => return token
  | none => throw .outOfRange

/-- The token that comes next. -/
def peek : Stepping Token := do
  tokenAt (← get).index

/-- The token passed over last. -/
def previous : Stepping Token := do
  match (← get).index with
  | 0 => throw .outOfRange
  | index + 1 => tokenAt index

/-- Fail at the token that comes next. -/
def fail {α : Type} (fault : SyntaxFault) : Stepping α := do
  throw (.fault (.syntactic (← peek) fault))

/-- Whether a closing token comes next. -/
def isAtEnd : Stepping Bool := do
  return (← peek).kind = .stop

/-- Pass over a token that is not a closing one. The result is the token passed over
last, whether or not that was now. -/
def advance : Stepping Token := do
  if ← isAtEnd then previous
  else
    modify Reader.moved
    previous

/-- Whether a token of a kind comes next. -/
def check (kind : Token.Kind) : Stepping Bool := do
  if ← isAtEnd then return false
  else return (← peek).kind = kind

/-- Whether a token of one of several kinds comes next. -/
def checkAny : List Token.Kind → Stepping Bool
  | [] => return false
  | kind :: kinds => do
      if ← check kind then return true
      else checkAny kinds

/-- Pass over a token of a kind if it comes next, and say whether it did. -/
def takes (kind : Token.Kind) : Stepping Bool := do
  if ← check kind then
    let _ ← advance
    return true
  else return false

/-- Pass over a token of one of several kinds if it comes next. -/
def takesAny : List Token.Kind → Stepping Bool
  | [] => return false
  | kind :: kinds => do
      if ← takes kind then return true
      else takesAny kinds

/-- Pass over a token of a kind, which has to come next. -/
def consume (kind : Token.Kind) (fault : SyntaxFault) : Stepping Token := do
  if ← check kind then advance
  else fail fault

/-- Give a use of a name a number of its own. -/
def refer (name : Token) : Stepping Reference := do
  let id := (← get).nextReference
  modify fun reader => { reader with nextReference := id + 1 }
  return ⟨name, id⟩

/-! ## Expressions -/

/-- Items with commas between them, after those already read. -/
def itemsAfter {α : Type} (item : Stepping α) (tooMany : SyntaxFault) :
    Nat → List α → Stepping (List α)
  | 0, _ => throw .outOfSteps
  | steps + 1, done => do
      if done.length ≥ mostArguments then fail tooMany
      let value ← item
      if ← takes (.mark .comma) then itemsAfter item tooMany steps (done ++ [value])
      else return done ++ [value]

/-- Items with commas between them, unless the closing parenthesis comes at once. -/
def items {α : Type} (item : Stepping α) (tooMany : SyntaxFault) (steps : Nat) :
    Stepping (List α) := do
  if ← check (.mark .rightParen) then return []
  else itemsAfter item tooMany steps []

/-- A literal, a name, a keyword that stands for a value, or a group. -/
def primary (nested : Stepping Expr) : Stepping Expr := do
  let token ← peek
  match literal? token.kind with
  | some value =>
      let _ ← advance
      return .literal value
  | none =>
      if ← takes (.keyword .super) then
        let keyword ← previous
        let _ ← consume (.mark .dot) .superDot
        let method ← consume .identifier .superMethod
        return .super (← refer keyword) method
      else if ← takes (.keyword .this) then
        let keyword ← previous
        return .this (← refer keyword)
      else if ← takes .identifier then
        let name ← previous
        return .variable (← refer name)
      else if ← takes (.mark .leftParen) then
        let inner ← nested
        let _ ← consume (.mark .rightParen) .groupClosing
        return .grouping inner
      else throw (.fault (.syntactic token .expression))

/-- Calls and property reads applied to an expression already read. -/
def callsAfter (nested : Stepping Expr) (most : Nat) : Nat → Expr → Stepping Expr
  | 0, _ => throw .outOfSteps
  | steps + 1, callee => do
      if ← takes (.mark .leftParen) then
        let values ← items nested .tooManyArguments most
        let paren ← consume (.mark .rightParen) .argumentsClosing
        callsAfter nested most steps (.call callee paren values)
      else if ← takes (.mark .dot) then
        let name ← consume .identifier .propertyName
        callsAfter nested most steps (.get callee name)
      else return callee

/-- An operand with the operators in front of it. -/
def unary (nested : Stepping Expr) (most : Nat) : Nat → Stepping Expr
  | 0 => throw .outOfSteps
  | steps + 1 => do
      if ← takesAny [.mark .bang, .mark .minus] then
        let operator ← previous
        let operand ← unary nested most steps
        return .unary operator operand
      else
        let callee ← primary nested
        callsAfter nested most most callee

/-- Operators of one level applied to a left operand already read. -/
def binaryAfter (operators : List Token.Kind) (operand : Stepping Expr) :
    Nat → Expr → Stepping Expr
  | 0, _ => throw .outOfSteps
  | steps + 1, left => do
      if ← checkAny operators then
        let operator ← advance
        let right ← operand
        binaryAfter operators operand steps (.binary left operator right)
      else return left

/-- Operands joined by the operators of one level. -/
def binary (operators : List Token.Kind) (operand : Stepping Expr) (most : Nat) :
    Stepping Expr := do
  let left ← operand
  binaryAfter operators operand most left

/-- A logical operator applied to a left operand already read. -/
def logicalAfter (kind : Token.Kind) (operand : Stepping Expr) : Nat → Expr → Stepping Expr
  | 0, _ => throw .outOfSteps
  | steps + 1, left => do
      if ← takes kind then
        let operator ← previous
        let right ← operand
        logicalAfter kind operand steps (.logical left operator right)
      else return left

/-- Operands joined by a logical operator. -/
def logical (kind : Token.Kind) (operand : Stepping Expr) (most : Nat) : Stepping Expr := do
  let left ← operand
  logicalAfter kind operand most left

/-- Products and quotients. -/
def factor (nested : Stepping Expr) (most : Nat) : Stepping Expr :=
  binary [.mark .star, .mark .slash] (unary nested most most) most

/-- Sums and differences. -/
def term (nested : Stepping Expr) (most : Nat) : Stepping Expr :=
  binary [.mark .minus, .mark .plus] (factor nested most) most

/-- Order comparisons. -/
def comparison (nested : Stepping Expr) (most : Nat) : Stepping Expr :=
  binary [.mark .greater, .mark .greaterEqual, .mark .less, .mark .lessEqual]
    (term nested most) most

/-- Equality comparisons. -/
def equality (nested : Stepping Expr) (most : Nat) : Stepping Expr :=
  binary [.mark .bangEqual, .mark .equalEqual] (comparison nested most) most

/-- Conjunctions. -/
def conjunction (nested : Stepping Expr) (most : Nat) : Stepping Expr :=
  logical (.keyword .and) (equality nested most) most

/-- Disjunctions. -/
def disjunction (nested : Stepping Expr) (most : Nat) : Stepping Expr :=
  logical (.keyword .or) (conjunction nested most) most

/-- An assignment, or an expression that assigns nothing. -/
def assignment (nested : Stepping Expr) (most : Nat) : Stepping Expr := do
  let target ← disjunction nested most
  if ← takes (.mark .equal) then
    let equals ← previous
    let value ← nested
    match target with
    | .variable reference => return .assign (← refer reference.name) value
    | .get object name => return .set object name value
    | _ => throw (.fault (.syntactic equals .assignmentTarget))
  else return target

/-- An expression within a number of steps. -/
def expression : Nat → Stepping Expr
  | 0 => throw .outOfSteps
  | steps + 1 => assignment (expression steps) (steps + 1)

/-! ## Going on after a fault -/

/-- Pass over tokens up to a boundary between statements. -/
def toBoundary : Nat → Stepping Unit
  | 0 => throw .outOfSteps
  | steps + 1 => do
      if ← isAtEnd then return ()
      else if (← previous).kind = .mark .semicolon then return ()
      else if startsStatement (← peek).kind then return ()
      else
        let _ ← advance
        toBoundary steps

/-- Pass over one token and then on to a boundary between statements. -/
def synchronize (most : Nat) : Stepping Unit := do
  let _ ← advance
  toBoundary most

/-- Read a declaration. A fault is reported, and reading goes on at the next boundary.
Nothing else that halts a reader is recovered from. -/
def recovering (declaration : Stepping Stmt) (most : Nat) : Stepping (Option Stmt) := fun reader =>
  match declaration reader with
  | .ok stmt after => .ok (some stmt) after
  | .error (.fault diagnostic) after =>
      (do synchronize most; return none : Stepping (Option Stmt))
        { after with reported := after.reported ++ [diagnostic] }
  | .error halt after => .error halt after

/-- Declarations one after another, until the end of the input or a condition on the
next token. -/
def declarationsUntil (closing : Stepping Bool) (declaration : Stepping Stmt) (most : Nat) :
    Nat → Stepping (List Stmt)
  | 0 => throw .outOfSteps
  | steps + 1 => do
      if ← closing then return []
      else if ← isAtEnd then return []
      else
        let first ← recovering declaration most
        let others ← declarationsUntil closing declaration most steps
        return first.toList ++ others

/-! ## Statements -/

/-- Declarations up to a closing brace. -/
def block (nested : Position → Stepping Stmt) (most : Nat) : Stepping (List Stmt) := do
  let body ← declarationsUntil (check (.mark .rightBrace)) (nested .declaration) most most
  let _ ← consume (.mark .rightBrace) .blockClosing
  return body

/-- A named function with its parameters and body. -/
def function (nested : Position → Stepping Stmt) (most : Nat) (form : FunctionForm) :
    Stepping FunctionDecl := do
  let name ← consume .identifier (.functionName form)
  let _ ← consume (.mark .leftParen) (.parametersOpening form)
  let parameters ← items (consume .identifier .parameterName) .tooManyParameters most
  let _ ← consume (.mark .rightParen) .parametersClosing
  let _ ← consume (.mark .leftBrace) (.bodyOpening form)
  let body ← block nested most
  return ⟨name, parameters, body⟩

/-- Methods up to a closing brace or the end of the input. -/
def methods (method : Stepping FunctionDecl) : Nat → Stepping (List FunctionDecl)
  | 0 => throw .outOfSteps
  | steps + 1 => do
      if ← check (.mark .rightBrace) then return []
      else if ← isAtEnd then return []
      else
        let first ← method
        let others ← methods method steps
        return first :: others

/-- The superclass of a class, if one is named. -/
def superclass : Stepping (Option Expr) := do
  if ← takes (.mark .less) then
    let name ← consume .identifier .superclassName
    return some (.variable (← refer name))
  else return none

/-- A class with its superclass and methods. -/
def classDeclaration (nested : Position → Stepping Stmt) (most : Nat) : Stepping Stmt := do
  let name ← consume .identifier .className
  let superclass ← superclass
  let _ ← consume (.mark .leftBrace) .classBodyOpening
  let members ← methods (function nested most .method) most
  let _ ← consume (.mark .rightBrace) .classBodyClosing
  return .classDecl name superclass members

/-- An expression, unless a token of the given kind comes next. -/
def expressionUnless (kind : Token.Kind) (most : Nat) : Stepping (Option Expr) := do
  if ← check kind then return none
  else return some (← expression most)

/-- The initial value of a variable, if one is given. -/
def initialValue (most : Nat) : Stepping (Option Expr) := do
  if ← takes (.mark .equal) then return some (← expression most)
  else return none

/-- A variable with its initial value. -/
def variableDeclaration (most : Nat) : Stepping Stmt := do
  let name ← consume .identifier .variableName
  let initializer ← initialValue most
  let _ ← consume (.mark .semicolon) .variableEnd
  return .var name initializer

/-- An expression evaluated for its effects. -/
def expressionStatement (most : Nat) : Stepping Stmt := do
  let value ← expression most
  let _ ← consume (.mark .semicolon) .expressionEnd
  return .expression value

/-- A value to print. -/
def printStatement (most : Nat) : Stepping Stmt := do
  let value ← expression most
  let _ ← consume (.mark .semicolon) .printEnd
  return .print value

/-- A value to return, if any, after its keyword. -/
def returnStatement (most : Nat) : Stepping Stmt := do
  let keyword ← previous
  let value ← expressionUnless (.mark .semicolon) most
  let _ ← consume (.mark .semicolon) .returnEnd
  return .returning keyword value

/-- The alternative of a condition, if `else` follows. -/
def alternative (nested : Position → Stepping Stmt) : Stepping (Option Stmt) := do
  if ← takes (.keyword .else) then return some (← nested .statement)
  else return none

/-- A statement under a condition. -/
def conditional (nested : Position → Stepping Stmt) (most : Nat) : Stepping Stmt := do
  let _ ← consume (.mark .leftParen) .ifOpening
  let condition ← expression most
  let _ ← consume (.mark .rightParen) .ifClosing
  let consequent ← nested .statement
  return .conditional condition consequent (← alternative nested)

/-- A statement repeated while a condition holds. -/
def whileLoop (nested : Position → Stepping Stmt) (most : Nat) : Stepping Stmt := do
  let _ ← consume (.mark .leftParen) .whileOpening
  let condition ← expression most
  let _ ← consume (.mark .rightParen) .whileClosing
  return .whileLoop condition (← nested .statement)

/-- The first clause of a `for` loop. -/
def forInitializer (most : Nat) : Stepping (Option Stmt) := do
  if ← takes (.mark .semicolon) then return none
  else if ← takes (.keyword .var) then return some (← variableDeclaration most)
  else return some (← expressionStatement most)

/-- A statement repeated under the clauses of a `for` loop. -/
def forLoop (nested : Position → Stepping Stmt) (most : Nat) : Stepping Stmt := do
  let _ ← consume (.mark .leftParen) .forOpening
  let initializer ← forInitializer most
  let condition ← expressionUnless (.mark .semicolon) most
  let _ ← consume (.mark .semicolon) .loopConditionEnd
  let increment ← expressionUnless (.mark .rightParen) most
  let _ ← consume (.mark .rightParen) .forClosing
  return .forLoop initializer condition increment (← nested .statement)

/-- A statement that declares nothing. -/
def plainStatement (nested : Position → Stepping Stmt) (most : Nat) : Stepping Stmt := do
  if ← takes (.keyword .for) then forLoop nested most
  else if ← takes (.keyword .if) then conditional nested most
  else if ← takes (.keyword .while) then whileLoop nested most
  else if ← takes (.keyword .return) then returnStatement most
  else if ← takes (.mark .leftBrace) then return .block (← block nested most)
  else if ← takes (.keyword .print) then printStatement most
  else expressionStatement most

/-- A declaration, or a statement where no declaration starts. -/
def declaration (nested : Position → Stepping Stmt) (most : Nat) : Stepping Stmt := do
  if ← takes (.keyword .class) then classDeclaration nested most
  else if ← takes (.keyword .fun) then return .function (← function nested most .function)
  else if ← takes (.keyword .var) then variableDeclaration most
  else plainStatement nested most

/-- A statement at a position, within a number of steps. -/
def statement : Nat → Position → Stepping Stmt
  | 0, _ => throw .outOfSteps
  | steps + 1, .declaration => declaration (statement steps) (steps + 1)
  | steps + 1, .statement => plainStatement (statement steps) (steps + 1)

/-! ## Whole inputs -/

/-- Every declaration up to the end of the input. -/
def program (steps : Nat) : Stepping (List Stmt) :=
  declarationsUntil (pure false) (statement steps .declaration) steps steps

/-- One expression up to the end of the input. -/
def onlyExpression (steps : Nat) : Stepping Expr := do
  let value ← expression steps
  if ← isAtEnd then return value
  else fail .endOfExpression

end Lox.Indexed
