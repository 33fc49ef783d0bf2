import Lox.Diagnostic
import Lox.Token.Segment

/-!
# Token streams

Reading a text gives tokens and lexical faults in the order of the text, and one
closing token after all of them. The line of an item is one more than the number
of line feeds up to the end of its own text, so a string over several lines
stands on the line of its closing quote.
-/

namespace Lox

/-- What one step of reading yields. -/
inductive Item where
  | token (token : Token)
  | fault (diagnostic : Diagnostic)
  deriving DecidableEq, Inhabited

namespace Item

/-- The line of an item. -/
def line : Item → Nat
  | .token found => found.line
  | .fault diagnostic => diagnostic.line

/-- The token of an item, if it is one. -/
def token? : Item → Option Token
  | .token found => some found
  | .fault _ => none

/-- The fault of an item, if it is one. -/
def fault? : Item → Option Diagnostic
  | .token _ => none
  | .fault diagnostic => some diagnostic

end Item

namespace Segment

/-- The number of line feeds in a segment. -/
def lineFeeds (segment : Segment) : Nat :=
  segment.text.count '\n'

/-- What a segment that ends on a given line yields. Layout yields nothing. -/
def item? (line : Nat) : Segment → Option Item
  | .blank _ => none
  | .comment _ => none
  | .lexeme kind text => some (.token ⟨kind, String.ofList text, line⟩)
  | .stray character => some (.fault (.lexical line (.unexpectedCharacter character)))
  | .openString _ => some (.fault (.lexical line .unterminatedString))

/-- The items of a list of segments that starts on a given line. -/
def items : Nat → List Segment → List Item
  | line, [] => [.token (.atEnd line)]
  | line, segment :: rest =>
      let line := line + segment.lineFeeds
      (segment.item? line).toList ++ items line rest

end Segment

/-- A text that is read item by item. -/
structure TokenStream where
  /-- The segments not read yet. -/
  pending : List Segment
  /-- The line reached so far. -/
  line : Nat
  /-- Whether the closing token has been read. -/
  isEnded : Bool
  deriving Inhabited

namespace TokenStream

/-- The stream of a text, before anything is read. -/
def ofText (source : String) : TokenStream :=
  ⟨Segment.ofText source.toList, 1, false⟩

/-- Read on from a line to the next item, passing over layout. -/
def advance : Nat → List Segment → Item × TokenStream
  | line, [] => (.token (.atEnd line), ⟨[], line, true⟩)
  | line, segment :: rest =>
      let line := line + segment.lineFeeds
      match segment.item? line with
      | some item => (item, ⟨rest, line, false⟩)
      | none => advance line rest

/-- The next item with the stream after it. A stream that has ended stays
ended. -/
def next? (stream : TokenStream) : Option (Item × TokenStream) :=
  if stream.isEnded then none else some (advance stream.line stream.pending)

/-- Everything that is still to be read. -/
def items (stream : TokenStream) : List Item :=
  if stream.isEnded then [] else Segment.items stream.line stream.pending

theorem items_eq_cons_advance (line : Nat) (pending : List Segment) :
    Segment.items line pending = (advance line pending).1 :: (advance line pending).2.items := by
  induction pending generalizing line with
  | nil => rfl
  | cons segment rest ih =>
      simp only [Segment.items, advance]
      split
      · next item equal => simp [equal, items]
      · next equal => simpa [equal] using ih _

/-- Reading item by item yields the items of the stream. -/
theorem items_of_next? {stream after : TokenStream} {item : Item}
    (read : stream.next? = some (item, after)) : stream.items = item :: after.items := by
  unfold next? at read
  split at read
  · simp at read
  · next unfinished =>
      injection read with read
      have step := items_eq_cons_advance stream.line stream.pending
      rw [read] at step
      rw [← step, items, if_neg unfinished]

/-- A stream has nothing left exactly when it has ended. -/
theorem next?_eq_none_iff (stream : TokenStream) : stream.next? = none ↔ stream.items = [] := by
  unfold next? items
  split
  · simp
  · simp [items_eq_cons_advance]

end TokenStream

/-- The tokens of a text, the closing one included, and its lexical faults. -/
def scan (source : String) : List Token × List Diagnostic :=
  let items := (TokenStream.ofText source).items
  (items.filterMap Item.token?, items.filterMap Item.fault?)

end Lox
