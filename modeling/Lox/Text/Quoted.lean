import Lox.Text.Unicode

/-!
# Quoted text

Names and strings are shown to people between double quotes, on one line and
with nothing hidden: a character that has no visible form of its own is written
as its code point. An apostrophe needs no escape between double quotes.
-/

namespace Lox.Quoted

/-- A code point in hexadecimal between braces. -/
def codePoint (character : Char) : List Char :=
  ['\\', 'u', '\x7b'] ++ Nat.toDigits 16 character.toNat ++ ['\x7d']

/-- How one character stands between the quotes. -/
def escape (character : Char) : List Char :=
  match character with
  | '\x00' => ['\\', '0']
  | '\t' => ['\\', 't']
  | '\n' => ['\\', 'n']
  | '\r' => ['\\', 'r']
  | '\\' => ['\\', '\\']
  | '"' => ['\\', '"']
  | _ =>
      if Unicode.isExtending character || !Unicode.isVisible character then
        codePoint character
      else [character]

/-- Text between double quotes. -/
def quote (text : String) : String :=
  String.ofList (['"'] ++ text.toList.flatMap escape ++ ['"'])

end Lox.Quoted
