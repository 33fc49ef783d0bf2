/-!
# JSON text

The small part of JSON that token listings need: strings, numbers whose text is
already chosen, arrays and objects. A document has two written forms, one on a
single line and one indented by two spaces a level.
-/

namespace Lox

/-- A JSON document. Objects keep their fields in the order given, and a number
is its own text because the digits of a number are chosen elsewhere. -/
inductive Json where
  | text (value : String)
  | number (digits : String)
  | array (items : List Json)
  | object (fields : List (String × Json))

namespace Json

/-- How one character stands inside a JSON string. Only the quote, the backslash
and the controls below the space are escaped. -/
def escape (character : Char) : List Char :=
  match character with
  | '"' => ['\\', '"']
  | '\\' => ['\\', '\\']
  | '\x08' => ['\\', 'b']
  | '\x0c' => ['\\', 'f']
  | '\n' => ['\\', 'n']
  | '\r' => ['\\', 'r']
  | '\t' => ['\\', 't']
  | _ =>
      if character.toNat < 0x20 then
        ['\\', 'u', '0', '0', Nat.digitChar (character.toNat / 16),
          Nat.digitChar (character.toNat % 16)]
      else [character]

/-- A JSON string. -/
def quote (text : String) : String :=
  String.ofList (['"'] ++ text.toList.flatMap escape ++ ['"'])

mutual

/-- The document on a single line without spaces. -/
def compact : Json → String
  | .text value => quote value
  | .number digits => digits
  | .array items => "[" ++ ",".intercalate (compactItems items) ++ "]"
  | .object fields => "\x7b" ++ ",".intercalate (compactFields fields) ++ "\x7d"

/-- The items of an array, each on a single line. -/
def compactItems : List Json → List String
  | [] => []
  | item :: rest => compact item :: compactItems rest

/-- The fields of an object, each on a single line. -/
def compactFields : List (String × Json) → List String
  | [] => []
  | (name, item) :: rest => (quote name ++ ":" ++ compact item) :: compactFields rest

end

/-- The start of a line at a given depth: two spaces a level. -/
def newLine (depth : Nat) : String :=
  String.ofList ('\n' :: List.replicate (2 * depth) ' ')

/-- Enclose parts that stand on lines of their own one level further in. With no
parts the brackets meet. -/
def enclose (opening closing : String) (depth : Nat) (parts : List String) : String :=
  match parts with
  | [] => opening ++ closing
  | parts =>
      opening ++ newLine (depth + 1) ++ ("," ++ newLine (depth + 1)).intercalate parts ++
        newLine depth ++ closing

mutual

/-- The document with every item and field on a line of its own, from a given
depth on. -/
def indented (depth : Nat) : Json → String
  | .text value => quote value
  | .number digits => digits
  | .array items => enclose "[" "]" depth (indentedItems (depth + 1) items)
  | .object fields => enclose "\x7b" "\x7d" depth (indentedFields (depth + 1) fields)

/-- The items of an array at a given depth. -/
def indentedItems (depth : Nat) : List Json → List String
  | [] => []
  | item :: rest => indented depth item :: indentedItems depth rest

/-- The fields of an object at a given depth. -/
def indentedFields (depth : Nat) : List (String × Json) → List String
  | [] => []
  | (name, item) :: rest =>
      (quote name ++ ": " ++ indented depth item) :: indentedFields depth rest

end

/-- The document over several lines. -/
def pretty (document : Json) : String :=
  indented 0 document

end Json

end Lox
