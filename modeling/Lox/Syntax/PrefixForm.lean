import Lox.Syntax.Basic

/-!
# Expressions in prefix form

An expression is shown fully bracketed, with the operator in front of its
operands, so that its structure can be read without knowing precedences.
-/

namespace Lox

/-- A number in prefix form. A whole number is written out to its last digit and
marked as a fraction, which tells it apart from a name. -/
def Number.prefixText (value : Float) : String :=
  match content value with
  | .finite negative significand exponent =>
      match whole? significand exponent with
      | some whole => signText negative ++ toString whole ++ ".0"
      | none => Layout.plain.render value
  | _ => Layout.plain.render value

/-- A literal in prefix form. Strings are written bare. -/
def Literal.prefixText : Literal → String
  | .nil => "nil"
  | .bool true => "true"
  | .bool false => "false"
  | .number value => Number.prefixText value
  | .string value => value

/-- A head with its parts, separated by spaces and bracketed. -/
def bracketed (head : String) (parts : List String) : String :=
  "(" ++ " ".intercalate (head :: parts) ++ ")"

namespace Expr

mutual

/-- An expression in prefix form. -/
def prefixForm : Expr → String
  | .literal value => value.prefixText
  | .grouping inner => bracketed "group" [prefixForm inner]
  | .unary operator operand => bracketed operator.lexeme [prefixForm operand]
  | .binary left operator right =>
      bracketed operator.lexeme [prefixForm left, prefixForm right]
  | .logical left operator right =>
      bracketed operator.lexeme [prefixForm left, prefixForm right]
  | .variable reference => reference.name.lexeme
  | .assign reference value => bracketed "=" [reference.name.lexeme, prefixForm value]
  | .call callee _ arguments => bracketed "call" (prefixForm callee :: prefixForms arguments)
  | .get object name => bracketed "." [name.lexeme, prefixForm object]
  | .set object name value =>
      bracketed "=" [".", name.lexeme, prefixForm object, prefixForm value]
  | .this _ => "this"
  | .super _ method => bracketed "super" [method.lexeme]

/-- Several expressions in prefix form. -/
def prefixForms : List Expr → List String
  | [] => []
  | first :: rest => prefixForm first :: prefixForms rest

end

end Expr

end Lox
