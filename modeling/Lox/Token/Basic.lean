import Lox.Number.Layout

/-!
# Tokens

A token is a piece of source text with its kind and line. Punctuation and
keywords have a fixed spelling, so their spellings are tables from which both
reading and writing are derived.
-/

namespace Lox

/-- Punctuation and operators. -/
inductive Mark where
  | leftParen | rightParen | leftBrace | rightBrace
  | comma | dot | minus | plus | semicolon | slash | star
  | bang | bangEqual | equal | equalEqual
  | greater | greaterEqual | less | lessEqual
  deriving DecidableEq, Repr, Inhabited

namespace Mark

/-- Every mark. -/
def all : List Mark :=
  [.leftParen, .rightParen, .leftBrace, .rightBrace, .comma, .dot, .minus, .plus, .semicolon,
    .slash, .star, .bang, .bangEqual, .equal, .equalEqual, .greater, .greaterEqual, .less,
    .lessEqual]

/-- The spelling of a mark. -/
def spelling : Mark → List Char
  | .leftParen => ['(']
  | .rightParen => [')']
  | .leftBrace => ['\x7b']
  | .rightBrace => ['\x7d']
  | .comma => [',']
  | .dot => ['.']
  | .minus => ['-']
  | .plus => ['+']
  | .semicolon => [';']
  | .slash => ['/']
  | .star => ['*']
  | .bang => ['!']
  | .bangEqual => ['!', '=']
  | .equal => ['=']
  | .equalEqual => ['=', '=']
  | .greater => ['>']
  | .greaterEqual => ['>', '=']
  | .less => ['<']
  | .lessEqual => ['<', '=']

/-- The name of a mark in listings. -/
def name : Mark → String
  | .leftParen => "LEFT_PAREN"
  | .rightParen => "RIGHT_PAREN"
  | .leftBrace => "LEFT_BRACE"
  | .rightBrace => "RIGHT_BRACE"
  | .comma => "COMMA"
  | .dot => "DOT"
  | .minus => "MINUS"
  | .plus => "PLUS"
  | .semicolon => "SEMICOLON"
  | .slash => "SLASH"
  | .star => "STAR"
  | .bang => "BANG"
  | .bangEqual => "BANG_EQUAL"
  | .equal => "EQUAL"
  | .equalEqual => "EQUAL_EQUAL"
  | .greater => "GREATER"
  | .greaterEqual => "GREATER_EQUAL"
  | .less => "LESS"
  | .lessEqual => "LESS_EQUAL"

/-- The mark with a given spelling. -/
def ofSpelling? (text : List Char) : Option Mark :=
  all.find? fun mark => mark.spelling = text

@[simp] theorem ofSpelling?_spelling (mark : Mark) : ofSpelling? mark.spelling = some mark := by
  cases mark <;> decide

/-- A spelling belongs to one mark only. -/
theorem spelling_of_ofSpelling? {text : List Char} {mark : Mark}
    (found : ofSpelling? text = some mark) : mark.spelling = text := by
  simpa using List.find?_some found

end Mark

/-- Reserved words. -/
inductive Keyword where
  | and | «class» | «else» | false | «for» | «fun» | «if» | nil | or | print | «return» | super
  | this | true | var | «while»
  deriving DecidableEq, Repr, Inhabited

namespace Keyword

/-- Every keyword. -/
def all : List Keyword :=
  [.and, .class, .else, .false, .for, .fun, .if, .nil, .or, .print, .return, .super, .this, .true,
    .var, .while]

theorem mem_all (keyword : Keyword) : keyword ∈ all := by
  cases keyword <;> decide

/-- The spelling of a keyword. -/
def spelling : Keyword → List Char
  | .and => ['a', 'n', 'd']
  | .class => ['c', 'l', 'a', 's', 's']
  | .else => ['e', 'l', 's', 'e']
  | .false => ['f', 'a', 'l', 's', 'e']
  | .for => ['f', 'o', 'r']
  | .fun => ['f', 'u', 'n']
  | .if => ['i', 'f']
  | .nil => ['n', 'i', 'l']
  | .or => ['o', 'r']
  | .print => ['p', 'r', 'i', 'n', 't']
  | .return => ['r', 'e', 't', 'u', 'r', 'n']
  | .super => ['s', 'u', 'p', 'e', 'r']
  | .this => ['t', 'h', 'i', 's']
  | .true => ['t', 'r', 'u', 'e']
  | .var => ['v', 'a', 'r']
  | .while => ['w', 'h', 'i', 'l', 'e']

/-- The name of a keyword in listings. -/
def name : Keyword → String
  | .and => "AND"
  | .class => "CLASS"
  | .else => "ELSE"
  | .false => "FALSE"
  | .for => "FOR"
  | .fun => "FUN"
  | .if => "IF"
  | .nil => "NIL"
  | .or => "OR"
  | .print => "PRINT"
  | .return => "RETURN"
  | .super => "SUPER"
  | .this => "THIS"
  | .true => "TRUE"
  | .var => "VAR"
  | .while => "WHILE"

/-- The keyword with a given spelling. -/
def ofSpelling? (text : List Char) : Option Keyword :=
  all.find? fun keyword => keyword.spelling = text

@[simp] theorem ofSpelling?_spelling (keyword : Keyword) :
    ofSpelling? keyword.spelling = some keyword := by
  cases keyword <;> decide

/-- A spelling belongs to one keyword only. -/
theorem spelling_of_ofSpelling? {text : List Char} {keyword : Keyword}
    (found : ofSpelling? text = some keyword) : keyword.spelling = text := by
  simpa using List.find?_some found

end Keyword

namespace Token

/-- What a token is. Literals carry the value they write. -/
inductive Kind where
  | mark (symbol : Mark)
  | keyword (word : Keyword)
  | identifier
  | string (text : String)
  | number (value : Float)
  /-- The end of the input. -/
  | stop
  deriving DecidableEq, Inhabited

namespace Kind

/-- The name of a kind in listings. -/
def name : Kind → String
  | .mark symbol => symbol.name
  | .keyword word => word.name
  | .identifier => "IDENTIFIER"
  | .string _ => "STRING"
  | .number _ => "NUMBER"
  | .stop => "EOF"

/-- Whether two kinds agree apart from the values that literals carry. -/
def agrees : Kind → Kind → Bool
  | .string _, .string _ => true
  | .number _, .number _ => true
  | one, other => one = other

end Kind

end Token

/-- A token of the source text. -/
structure Token where
  kind : Token.Kind
  /-- The source text of the token, empty at the end of the input. -/
  lexeme : String
  line : Nat
  deriving DecidableEq, Inhabited

namespace Token

/-- The token that closes the input. -/
def atEnd (line : Nat) : Token :=
  ⟨.stop, "", line⟩

/-- Whether two tokens agree in kind, text and line. Values of literals are not
compared, since their text already fixes them. -/
def agrees (one other : Token) : Bool :=
  one.kind.agrees other.kind && one.lexeme = other.lexeme && one.line = other.line

/-- The value of a number token in a listing. Whole numbers of moderate size are
written as integers with a fraction mark, and zero without a sign. -/
def numberText (value : Float) : String :=
  match Number.content value with
  | .finite negative significand exponent =>
      match Number.whole? significand exponent with
      | some whole =>
          if whole < Nat.pow 10 15 then
            Number.signText (negative && whole != 0) ++ toString whole ++ ".0"
          else Number.Layout.plain.render value
      | none => Number.Layout.plain.render value
  | _ => Number.Layout.plain.render value

/-- The value of a token in a listing. -/
def valueText : Kind → String
  | .string text => text
  | .number value => numberText value
  | _ => "null"

/-- The token in a listing: its kind, its text and its value. -/
def listing (token : Token) : String :=
  token.kind.name ++ " " ++ token.lexeme ++ " " ++ valueText token.kind

end Token

end Lox
