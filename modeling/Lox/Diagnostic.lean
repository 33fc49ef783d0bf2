import Lox.Token.Basic

/-!
# Diagnostics

Everything that can be wrong with a program before it runs. A diagnostic says
what is wrong as a `Fault`, and where as a line and a `Place`; the wording of
each fault is given once, by `Fault.message`.
-/

namespace Lox

/-- The part of the analysis that finds a fault. -/
inductive Stage where
  | lexical
  | syntactic
  | binding
  deriving DecidableEq, Repr, Inhabited

/-- Where on its line a fault lies. -/
inductive Place where
  | nowhere
  | atEnd
  | atLexeme (lexeme : String)
  deriving DecidableEq, Repr, Inhabited

namespace Place

/-- The wording of a place inside a diagnostic. -/
def text : Place → String
  | .nowhere => ""
  | .atEnd => " at end"
  | .atLexeme lexeme => " at '" ++ lexeme ++ "'"

/-- The place of a token. -/
def ofToken (token : Token) : Place :=
  match token.kind with
  | .stop => .atEnd
  | _ => .atLexeme token.lexeme

end Place

/-- The two forms of a named function declaration. -/
inductive FunctionForm where
  | function
  | method
  deriving DecidableEq, Repr, Inhabited

namespace FunctionForm

/-- The word for a form in diagnostics. -/
def word : FunctionForm → String
  | .function => "function"
  | .method => "method"

end FunctionForm

/-- What can be wrong with the characters of a program. -/
inductive LexicalFault where
  | unexpectedCharacter (character : Char)
  | unterminatedString
  deriving DecidableEq, Repr, Inhabited

/-- What can be wrong with the arrangement of tokens. Most faults name the token
that should have come next. -/
inductive SyntaxFault where
  | expression
  | endOfExpression
  | className
  | superclassName
  | classBodyOpening
  | classBodyClosing
  | functionName (form : FunctionForm)
  | parametersOpening (form : FunctionForm)
  | parameterName
  | tooManyParameters
  | parametersClosing
  | bodyOpening (form : FunctionForm)
  | variableName
  | variableEnd
  | forOpening
  | loopConditionEnd
  | forClosing
  | ifOpening
  | ifClosing
  | whileOpening
  | whileClosing
  | printEnd
  | returnEnd
  | expressionEnd
  | blockClosing
  | assignmentTarget
  | tooManyArguments
  | argumentsClosing
  | propertyName
  | superDot
  | superMethod
  | groupClosing
  deriving DecidableEq, Repr, Inhabited

/-- What can be wrong with the use of names and of words that need a context. -/
inductive BindingFault where
  | alreadyDeclared
  | readInOwnInitializer
  | inheritsFromItself
  | returnAtTopLevel
  | valueFromInitializer
  | thisOutsideClass
  | superOutsideClass
  | superWithoutSuperclass
  deriving DecidableEq, Repr, Inhabited

/-- Anything that can be wrong with a program before it runs. -/
inductive Fault where
  | lexical (fault : LexicalFault)
  | syntactic (fault : SyntaxFault)
  | binding (fault : BindingFault)
  /-- A fault found outside this library, in words of its own. -/
  | reported (message : String)
  deriving DecidableEq, Repr, Inhabited

/-- The wording of a lexical fault. -/
def LexicalFault.message : LexicalFault → String
  | .unexpectedCharacter character => "Unexpected character: " ++ String.ofList [character]
  | .unterminatedString => "Unterminated string."

/-- The wording of a syntactic fault. -/
def SyntaxFault.message : SyntaxFault → String
  | .expression => "Expect expression."
  | .endOfExpression => "Expect end of expression."
  | .className => "Expect class name."
  | .superclassName => "Expect superclass name."
  | .classBodyOpening => "Expect '\x7b' before class body."
  | .classBodyClosing => "Expect '\x7d' after class body."
  | .functionName form => "Expect " ++ form.word ++ " name."
  | .parametersOpening form => "Expect '(' after " ++ form.word ++ " name."
  | .parameterName => "Expect parameter name."
  | .tooManyParameters => "Can't have more than 255 parameters."
  | .parametersClosing => "Expect ')' after parameters."
  | .bodyOpening form => "Expect '\x7b' before " ++ form.word ++ " body."
  | .variableName => "Expect variable name."
  | .variableEnd => "Expect ';' after variable declaration."
  | .forOpening => "Expect '(' after 'for'."
  | .loopConditionEnd => "Expect ';' after loop condition."
  | .forClosing => "Expect ')' after for clauses."
  | .ifOpening => "Expect '(' after 'if'."
  | .ifClosing => "Expect ')' after if condition."
  | .whileOpening => "Expect '(' after 'while'."
  | .whileClosing => "Expect ')' after condition."
  | .printEnd => "Expect ';' after value."
  | .returnEnd => "Expect ';' after return value."
  | .expressionEnd => "Expect ';' after expression."
  | .blockClosing => "Expect '\x7d' after block."
  | .assignmentTarget => "Invalid assignment target."
  | .tooManyArguments => "Can't have more than 255 arguments."
  | .argumentsClosing => "Expect ')' after arguments."
  | .propertyName => "Expect property name after '.'."
  | .superDot => "Expect '.' after 'super'."
  | .superMethod => "Expect superclass method name."
  | .groupClosing => "Expect ')' after expression."

/-- The wording of a binding fault. -/
def BindingFault.message : BindingFault → String
  | .alreadyDeclared => "Already a variable with this name in this scope."
  | .readInOwnInitializer => "Can't read local variable in its own initializer."
  | .inheritsFromItself => "A class can't inherit from itself."
  | .returnAtTopLevel => "Can't return from top-level code."
  | .valueFromInitializer => "Can't return a value from an initializer."
  | .thisOutsideClass => "Can't use 'this' outside of a class."
  | .superOutsideClass => "Can't use 'super' outside of a class."
  | .superWithoutSuperclass => "Can't use 'super' in a class with no superclass."

/-- The wording of a fault. -/
def Fault.message : Fault → String
  | .lexical fault => fault.message
  | .syntactic fault => fault.message
  | .binding fault => fault.message
  | .reported message => message

/-- A fault with the stage that found it and the place where it lies. -/
structure Diagnostic where
  stage : Stage
  line : Nat
  place : Place
  fault : Fault
  deriving DecidableEq, Repr, Inhabited

namespace Diagnostic

/-- A fault in the characters of a line. -/
def lexical (line : Nat) (fault : LexicalFault) : Diagnostic :=
  ⟨.lexical, line, .nowhere, .lexical fault⟩

/-- A fault of a stage at a token. -/
def atToken (stage : Stage) (token : Token) (fault : Fault) : Diagnostic :=
  ⟨stage, token.line, .ofToken token, fault⟩

/-- A syntactic fault at a token. -/
def syntactic (token : Token) (fault : SyntaxFault) : Diagnostic :=
  .atToken .syntactic token (.syntactic fault)

/-- A binding fault at a token. -/
def binding (token : Token) (fault : BindingFault) : Diagnostic :=
  .atToken .binding token (.binding fault)

/-- The text shown to the author of a program. -/
def message (diagnostic : Diagnostic) : String :=
  "[line " ++ toString diagnostic.line ++ "] Error" ++ diagnostic.place.text ++ ": " ++
    diagnostic.fault.message

end Diagnostic

end Lox
