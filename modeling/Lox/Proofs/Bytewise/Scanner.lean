import Lox.Proofs.Number.Numeral
import Lox.Token.Stream

/-!
# Scanning byte by byte

Reading once more, for a scanner that has the bytes of a text and an index into them. It
looks at single bytes, some of which are only parts of characters, and cuts pieces out of the
text, which have to begin and end between two characters. Nothing keeps it in range but the
conditions under which it moves. So every look and every cut may halt it, and so may the
number of steps, which bounds every loop.

Where it stands and what it looks at and cuts out is entered into a log.
-/

namespace Lox.Bytewise

/-- Why a scanner stops before its end. -/
inductive Halt where
  /-- A byte was looked up behind the text, or bytes were taken that are not all in it. -/
  | outOfRange
  /-- A piece of text was cut out through the middle of a character, or its end lies in
  front of its beginning. -/
  | offBoundary
  /-- The steps ran out before the end was reached. -/
  | outOfSteps
  deriving DecidableEq

/-- An entry of the log. -/
inductive Event where
  /-- A lexeme starts at one index, and the byte that comes next has another. -/
  | moved (start current : Nat)
  | looked (index : Nat)
  /-- The bytes from one index up to another one were taken. -/
  | taken (first last : Nat)
  /-- The text from one index up to another one was cut out. -/
  | cut (first last : Nat)
  deriving DecidableEq

/-- Whether an event is in range. The current index has a limit that is not in front of the
end of the text. -/
def Event.Within (source : String) (limit : Nat) : Event → Prop
  | .moved start current => start ≤ current ∧ current ≤ limit
  | .looked index => index < source.utf8ByteSize
  | .taken first last => first ≤ last ∧ last ≤ source.utf8ByteSize
  | .cut first last =>
      first ≤ last ∧ String.Pos.Raw.IsValid source ⟨first⟩ ∧ String.Pos.Raw.IsValid source ⟨last⟩

/-- The state of a scanner. -/
structure Scanner where
  source : String
  /-- The index of the first byte of the current lexeme. -/
  start : Nat
  /-- The index of the byte that comes next. -/
  current : Nat
  line : Nat
  /-- The kind of the lexeme, once it is known. -/
  pending : Option Token.Kind
  log : List Event

/-- A step of a scanner. -/
abbrev Scanning := EStateM Halt Scanner

/-- A scanner in front of a text. -/
def Scanner.ofText (source : String) : Scanner :=
  ⟨source, 0, 0, 1, none, [.moved 0 0]⟩

/-- The bytes of characters. -/
def encoded (text : List Char) : List UInt8 :=
  text.flatMap String.utf8EncodeChar

/-- The character whose code is a byte. -/
def charOf (byte : UInt8) : Char :=
  Char.ofNat byte.toNat

/-! ## Looking and moving -/

/-- Ask for something that the log has no part in. -/
def ask {α : Type} (field : Scanner → α) : Scanning α := do
  return field (← get)

def enter (event : Event) : Scanning Unit :=
  modify fun scanner => { scanner with log := scanner.log ++ [event] }

/-- The byte at an index. -/
def byteAt (index : Nat) : Scanning UInt8 := do
  enter (.looked index)
  match (encoded (← ask (·.source)).toList)[index]? with
  | some byte => return byte
  | none => throw .outOfRange

/-- The bytes from one index up to another one. -/
def bytesBetween (first last : Nat) : Scanning (List UInt8) := do
  enter (.taken first last)
  let bytes := encoded (← ask (·.source)).toList
  if first ≤ last ∧ last ≤ bytes.length then return (bytes.drop first).take (last - first)
  else throw .outOfRange

/-- The text from one index up to another one. -/
def textBetween (first last : Nat) : Scanning (List Char) := do
  enter (.cut first last)
  let source ← ask (·.source)
  if first ≤ last ∧ String.Pos.Raw.isValid source ⟨first⟩ ∧
      String.Pos.Raw.isValid source ⟨last⟩ then
    return (String.Pos.Raw.extract source ⟨first⟩ ⟨last⟩).toList
  else throw .offBoundary

/-- Go on at an index. -/
def moveTo (index : Nat) : Scanning Unit := do
  modify fun scanner => { scanner with current := index }
  enter (.moved (← ask (·.start)) index)

/-- Whether no byte is left. -/
def isAtEnd : Scanning Bool := do
  return decide ((← ask (·.source)).utf8ByteSize ≤ (← ask (·.current)))

/-- The byte that comes next, which is passed over. -/
def advance : Scanning UInt8 := do
  let index ← ask (·.current)
  let byte ← byteAt index
  moveTo (index + 1)
  return byte

/-- The byte that comes next, or zero. -/
def peek : Scanning UInt8 := do
  if ← isAtEnd then return 0
  else byteAt (← ask (·.current))

/-- The byte behind the one that comes next, or zero. -/
def peekNext : Scanning UInt8 := do
  if (← ask (·.source)).utf8ByteSize ≤ (← ask (·.current)) + 1 then return 0
  else byteAt ((← ask (·.current)) + 1)

/-- Pass over a character if it comes next, and say whether it did. -/
def takes (expected : Char) : Scanning Bool := do
  if ← isAtEnd then return false
  else if charOf (← peek) = expected then
    let _ ← advance
    return true
  else return false

/-- Pass over bytes as long as they are allowed. -/
def passWhile (allowed : Char → Bool) : Nat → Scanning Unit
  | 0 => throw .outOfSteps
  | steps + 1 => do
      if allowed (charOf (← peek)) then
        let _ ← advance
        passWhile allowed steps

/-! ## Lexemes -/

/-- The kind of the lexeme is known. -/
def recognise (kind : Token.Kind) : Scanning (Option Diagnostic) := do
  modify fun scanner => { scanner with pending := some kind }
  return none

/-- Marks that no other one continues. -/
def single? (character : Char) : Option Mark :=
  [.leftParen, .rightParen, .leftBrace, .rightBrace, .comma, .dot, .minus, .plus, .semicolon,
    .star].find? fun mark => mark.spelling = [character]

/-- Marks that an equality sign continues to another one, which comes first. -/
def double? (character : Char) : Option (Mark × Mark) :=
  [(.bangEqual, .bang), (.equalEqual, .equal), (.lessEqual, .less),
    (.greaterEqual, .greater)].find? fun marks => marks.2.spelling = [character]

def beginLine : Scanning Unit :=
  modify fun scanner => { scanner with line := scanner.line + 1 }

/-- Go on at the end of the line, or of the text. -/
def passLine : Scanning Unit := do
  let index ← ask (·.current)
  let size := (← ask (·.source)).utf8ByteSize
  match (← bytesBetween index size).findIdx? (fun byte => charOf byte = '\n') with
  | some place => moveTo (index + place)
  | none => moveTo size

/-- What starts with a slash: a comment, or a mark. -/
def slash : Scanning (Option Diagnostic) := do
  if ← takes '/' then
    passLine
    return none
  else recognise (.mark .slash)

/-- Pass over the bytes of a string and count its lines. -/
def passString : Nat → Scanning Unit
  | 0 => throw .outOfSteps
  | steps + 1 => do
      if ← isAtEnd then return ()
      else if charOf (← peek) = '"' then return ()
      else if charOf (← advance) = '\n' then
        beginLine
        passString steps
      else passString steps

/-- What starts with a quote: a string, which has to be closed. -/
def quoted (steps : Nat) : Scanning (Option Diagnostic) := do
  passString steps
  if ← isAtEnd then return some (.lexical (← ask (·.line)) .unterminatedString)
  else
    let _ ← advance
    let body ← textBetween ((← ask (·.start)) + 1) ((← ask (·.current)) - 1)
    recognise (.string (String.ofList body))

/-- Pass over a point and digits behind it, if there are such. -/
def passFraction (steps : Nat) : Scanning Unit := do
  if charOf (← peek) = '.' then
    if Segment.isDigit (charOf (← peekNext)) then
      let _ ← advance
      passWhile Segment.isDigit steps

/-- What starts with a digit. Its text is a numeral. -/
def number (steps : Nat) : Scanning (Option Diagnostic) := do
  passWhile Segment.isDigit steps
  passFraction steps
  let text ← textBetween (← ask (·.start)) (← ask (·.current))
  recognise (.number (((Number.Numeral.ofText? text).map Number.Numeral.value).getD 0))

/-- What starts with a letter: a keyword or a name. -/
def word (steps : Nat) : Scanning (Option Diagnostic) := do
  passWhile Segment.continuesName steps
  let bytes ← bytesBetween (← ask (·.start)) (← ask (·.current))
  match Keyword.ofSpelling? (bytes.map charOf) with
  | some keyword => recognise (.keyword keyword)
  | none => recognise .identifier

/-- What no lexeme starts with. The whole character is passed over. -/
def stray : Scanning (Option Diagnostic) := do
  let start ← ask (·.start)
  let behind ← textBetween start (← ask (·.source)).utf8ByteSize
  let character := behind.head?.getD '\uFFFD'
  moveTo (start + character.utf8Size)
  return some (.lexical (← ask (·.line)) (.unexpectedCharacter character))

/-- Pass over what starts with a character that is not the start of a mark, or only of a
comment or a slash. -/
def unmarked (steps : Nat) (character : Char) : Scanning (Option Diagnostic) := do
  if character = ' ' ∨ character = '\r' ∨ character = '\t' then return none
  else if character = '\n' then
    beginLine
    return none
  else if character = '/' then slash
  else if character = '"' then quoted steps
  else if Segment.isDigit character then number steps
  else if Segment.startsName character then word steps
  else stray

/-- Pass over what starts with a character. -/
def startingWith (steps : Nat) (character : Char) : Scanning (Option Diagnostic) := do
  match single? character, double? character with
  | some mark, _ => recognise (.mark mark)
  | none, some (longer, alone) =>
      if ← takes '=' then recognise (.mark longer) else recognise (.mark alone)
  | none, none => unmarked steps character

/-- Pass over one lexeme, comment or character of layout. The kind of a lexeme is left
pending, and the fault of what is none is the result. -/
def scanToken (steps : Nat) : Scanning (Option Diagnostic) := do
  startingWith steps (charOf (← advance))

/-- Begin a lexeme at the current index. -/
def beginLexeme : Scanning Unit := do
  modify fun scanner => { scanner with start := scanner.current, pending := none }
  enter (.moved (← ask (·.start)) (← ask (·.current)))

/-- Give the fault that was found, or the token of the kind that is pending. Without either,
what was passed over was layout, and there has to be another round. -/
def give (another : Scanning (Option Item)) : Option Diagnostic → Scanning (Option Item)
  | some diagnostic => return some (.fault diagnostic)
  | none => do
      match ← ask (·.pending) with
      | some kind =>
          let lexeme ← textBetween (← ask (·.start)) (← ask (·.current))
          return some (.token ⟨kind, String.ofList lexeme, ← ask (·.line)⟩)
      | none => another

/-- The next token or fault, in so many rounds of a loop. The closing token moves the index
behind the end of the text, and from then on there is nothing more. -/
def nextIn (steps : Nat) : Nat → Scanning (Option Item)
  | 0 => throw .outOfSteps
  | rounds + 1 => do
      let index ← ask (·.current)
      let size := (← ask (·.source)).utf8ByteSize
      if index ≤ size then
        if index = size then
          moveTo (index + 1)
          return some (.token (.atEnd (← ask (·.line))))
        else
          beginLexeme
          give (nextIn steps rounds) (← scanToken steps)
      else return none

/-- The next token or fault. -/
def next (steps : Nat) : Scanning (Option Item) :=
  nextIn steps steps

/-- The answers to several calls for the next token or fault, in order. -/
def calls (steps : Nat) : Nat → Scanning (List (Option Item))
  | 0 => return []
  | more + 1 => do
      let answer ← next steps
      return answer :: (← calls steps more)

end Lox.Bytewise
