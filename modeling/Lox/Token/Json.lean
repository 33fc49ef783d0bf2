import Lox.Text.Json
import Lox.Token.Basic

/-!
# Tokens as JSON

A token listing can be asked for as JSON. A kind is its name, or an object with
the name and the value where the token is a literal.
-/

namespace Lox.Token

/-- Numbers in JSON always look like fractions or have an exponent. -/
def jsonLayout : Number.Layout where
  infinity := "null"
  bounds := some (-5, 15)
  wholeMark := ".0"
  mantissaMark := ""
  plus := "+"
  exponentWidth := 1
  tie := .even

/-- The digits of a number in JSON, which has no text for numbers that are not
finite. -/
def jsonDigits (value : Float) : String :=
  match Number.content value with
  | .finite .. => jsonLayout.render value
  | _ => "null"

/-- A kind as JSON. -/
def Kind.toJson : Kind → Json
  | .string text => .object [("STRING", .text text)]
  | .number value => .object [("NUMBER", .number (jsonDigits value))]
  | kind => .text kind.name

/-- A token as JSON. -/
def toJson (token : Token) : Json :=
  .object [
    ("type", token.kind.toJson),
    ("lexeme", .text token.lexeme),
    ("line", .number (toString token.line))]

end Lox.Token
