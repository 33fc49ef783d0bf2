import Lox.Diagnostic
import Lox.Syntax.Basic

/-!
# Reading tokens one at a time

The grammar reads a list of tokens from the front. A `Cursor` holds what is left
of it, the numbers still free for references, and the faults reported so far.
A production that fails keeps the cursor where it stopped, because reading goes
on from there after a fault.

The closing token is kept apart from the others: it can be looked at for ever
but never consumed, so nothing ever lies behind it.
-/

namespace Lox

/-- The state of reading. -/
structure Cursor where
  /-- The tokens not read yet, without the closing one. -/
  rest : List Token
  /-- The closing token. -/
  stop : Token
  /-- The next free reference number. -/
  nextReference : Nat
  /-- The faults reported so far, in the order found. -/
  reported : List Diagnostic
  deriving Inhabited

/-- A step of reading: it yields a result or fails with a diagnostic, and moves
the cursor either way. -/
abbrev Reading := EStateM Diagnostic Cursor

namespace Cursor

/-- The tokens in front of the first closing token, and that token. A list that
is never closed gets a closing token on the line of its last token. -/
def split : List Token → List Token × Token
  | [] => ([], .atEnd 1)
  | token :: rest =>
      match token.kind, rest with
      | .stop, _ => ([], token)
      | _, [] => ([token], .atEnd token.line)
      | _, rest =>
          let (front, stop) := split rest
          (token :: front, stop)

/-- The cursor in front of a list of tokens. -/
def ofTokens (tokens : List Token) (nextReference : Nat) : Cursor :=
  let (rest, stop) := split tokens
  ⟨rest, stop, nextReference, []⟩

/-- The token that comes next. -/
def peek (cursor : Cursor) : Token :=
  cursor.rest.headD cursor.stop

end Cursor

namespace Reading

/-- Fail at a token. -/
def failAt {α : Type} (token : Token) (fault : SyntaxFault) : Reading α :=
  throw (.syntactic token fault)

/-- The token that comes next, without consuming it. -/
def peek : Reading Token := do
  return (← get).peek

/-- Fail at the token that comes next. -/
def fail {α : Type} (fault : SyntaxFault) : Reading α := do
  failAt (← peek) fault

/-- Whether only the closing token is left. -/
def isAtEnd : Reading Bool := do
  return (← get).rest.isEmpty

/-- Whether a token of the given kind comes next. -/
def sees (kind : Token.Kind) : Reading Bool := do
  match (← get).rest with
  | [] => return false
  | token :: _ => return token.kind = kind

/-- Pass over the token that comes next. The closing token stays. -/
def skip : Reading Unit :=
  modify fun cursor => { cursor with rest := cursor.rest.tail }

/-- Consume the token that comes next if its kind is wanted. -/
def acceptWhen (wanted : Token.Kind → Bool) : Reading (Option Token) := do
  match (← get).rest with
  | [] => return none
  | token :: rest =>
      if wanted token.kind then
        modify fun cursor => { cursor with rest := rest }
        return some token
      else return none

/-- Consume a token of the given kind if it comes next. -/
def accept (kind : Token.Kind) : Reading (Option Token) :=
  acceptWhen fun found => found = kind

/-- Consume a token of the given kind if it comes next, and say whether it
did. -/
def accepts (kind : Token.Kind) : Reading Bool := do
  return (← accept kind).isSome

/-- Consume a token of the given kind, which has to come next. -/
def expect (kind : Token.Kind) (fault : SyntaxFault) : Reading Token := do
  match ← accept kind with
  | some token => return token
  | none => fail fault

/-- Give a use of a name a number of its own. -/
def refer (name : Token) : Reading Reference := do
  let id := (← get).nextReference
  modify fun cursor => { cursor with nextReference := id + 1 }
  return ⟨name, id⟩

end Reading

end Lox
