import Lox.Value.Basic

/-!
# The text of values

What `print` writes for a value. The text comes in pieces, because a text made
of several parts is written part by part and each part may fail on its own.
-/

namespace Lox.Value

/-- Numbers are shown without a fraction where they have none, and with an
exponent where they are very large or very small. -/
def numberLayout : Number.Layout where
  infinity := "Infinity"
  bounds := some (-4, 15)
  wholeMark := ""
  mantissaMark := ".0"
  plus := "+"
  exponentWidth := 2
  tie := .away

/-- The pieces of the text of a value, in order. -/
def pieces : Value → List String
  | .nil => ["nil"]
  | .bool true => ["true"]
  | .bool false => ["false"]
  | .number amount => numberLayout.pieces amount
  | .string text => [text]
  | .native _ => ["<native fn>"]
  | .function closure => ["<fn ", closure.name, ">"]
  | .cls found => [found.name]
  | .object found => [found.cls.name, " instance"]

/-- The text of a value. -/
def text (value : Value) : String :=
  String.join value.pieces

theorem text_number (amount : Float) :
    (number amount).text = numberLayout.render amount :=
  numberLayout.join_pieces amount

end Lox.Value
