import Lox.Token.Basic

/-!
# Faults of a running program

What can go wrong while a program runs, with the line that is to blame. A fault
ends the run.
-/

namespace Lox

/-- A value of the wrong kind, or the wrong number of values. -/
inductive TypeFault where
  | operandNotNumber
  | operandsNotNumbers
  | operandsNotAddable
  | notUnaryOperator
  | notBinaryOperator
  | notCallable
  | argumentCount (expected given : Nat)
  | noProperties
  | noFields
  | superclassNotClass
  /-- A fault found by the host, in words of its own. -/
  | reported (message : String)
  deriving DecidableEq, Repr, Inhabited

/-- The wording of a type fault. -/
def TypeFault.message : TypeFault → String
  | .operandNotNumber => "Operand must be a number."
  | .operandsNotNumbers => "Operands must be numbers."
  | .operandsNotAddable => "Operands must be two numbers or two strings."
  | .notUnaryOperator => "Invalid unary operator."
  | .notBinaryOperator => "Invalid binary operator."
  | .notCallable => "Can only call functions and classes."
  | .argumentCount expected given =>
      "Expected " ++ toString expected ++ " arguments, but got " ++ toString given ++ "."
  | .noProperties => "Only instances have properties."
  | .noFields => "Only instances have fields."
  | .superclassNotClass => "Superclass must be a class."
  | .reported message => message

/-- What ends a run. -/
inductive RuntimeFault where
  | undefinedVariable (name : String) (line : Nat)
  | undefinedProperty (name : String) (line : Nat)
  | type (fault : TypeFault) (line : Nat)
  /-- The output refused what was written, for a reason of its own. -/
  | output (reason : String)
  deriving DecidableEq, Repr, Inhabited

namespace RuntimeFault

/-- A variable that is not bound where a token uses it. -/
def variableAt (token : Token) : RuntimeFault :=
  .undefinedVariable token.lexeme token.line

/-- A property that the object in front of a token does not have. -/
def propertyAt (token : Token) : RuntimeFault :=
  .undefinedProperty token.lexeme token.line

/-- A type fault on the line of a token. -/
def typeAt (token : Token) (fault : TypeFault) : RuntimeFault :=
  .type fault token.line

/-- The line to blame. Output has none. -/
def line? : RuntimeFault → Option Nat
  | .undefinedVariable _ line => some line
  | .undefinedProperty _ line => some line
  | .type _ line => some line
  | .output _ => none

/-- What is wrong, without the line. -/
def summary : RuntimeFault → String
  | .undefinedVariable name _ => "Undefined variable '" ++ name ++ "'."
  | .undefinedProperty name _ => "Undefined property '" ++ name ++ "'."
  | .type fault _ => fault.message
  | .output reason => "Output error: " ++ reason

/-- The text shown to the user of a program. -/
def message (fault : RuntimeFault) : String :=
  match fault.line? with
  | some line => fault.summary ++ "\n[line " ++ toString line ++ "]"
  | none => fault.summary

end RuntimeFault

end Lox
