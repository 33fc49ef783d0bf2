/-!
# Output

Where `print` writes to. A sink takes text piece by piece and may refuse a piece
or a flush. Of a piece that it refuses it may have taken the front before, as a
disk does that becomes full. Whether it refuses depends on nothing but the text
it has accepted so far and the piece that it is offered.
-/

namespace Lox

/-- A piece of text is refused, though not always all of it. -/
structure Refusal where
  reason : String
  /-- How many characters of the piece are taken before the rest is refused. -/
  taken : Nat

/-- What is taken of a refused piece. -/
def Refusal.front (refusal : Refusal) (piece : String) : String :=
  String.ofList (piece.toList.take refusal.taken)

/-- When a sink refuses, and with which words. -/
structure SinkPolicy where
  /-- Whether the next piece is refused, given the text accepted so far. -/
  refusesWrite : (accepted piece : String) → Option Refusal
  /-- Whether a flush is refused, given the text accepted so far. -/
  refusesFlush : String → Option String
  deriving Inhabited

namespace SinkPolicy

/-- Nothing is ever refused. -/
def unlimited : SinkPolicy := ⟨fun _ _ => none, fun _ => none⟩

/-- Every piece is refused once a number of line ends has been accepted. -/
def closingAfter (lines : Nat) (policy : SinkPolicy) : SinkPolicy :=
  { policy with
    refusesWrite := fun accepted _ =>
      if lines ≤ accepted.toList.count '\n' then some ⟨"sink closed", 0⟩ else none }

/-- Every flush is refused. -/
def failingFlush (policy : SinkPolicy) : SinkPolicy :=
  { policy with refusesFlush := fun _ => some "flush failed" }

end SinkPolicy

/-- A sink with the text it has accepted. -/
structure Sink where
  policy : SinkPolicy
  accepted : String
  deriving Inhabited

namespace Sink

/-- A sink that has accepted nothing yet. -/
def ofPolicy (policy : SinkPolicy) : Sink := ⟨policy, ""⟩

/-- Offer a piece of text, which is taken or refused for a reason. An empty
piece is never refused, because nothing has to be written for it. -/
def write (sink : Sink) (piece : String) : Option String × Sink :=
  if piece.isEmpty then (none, sink)
  else
    match sink.policy.refusesWrite sink.accepted piece with
    | some refusal =>
        (some refusal.reason, { sink with accepted := sink.accepted ++ refusal.front piece })
    | none => (none, { sink with accepted := sink.accepted ++ piece })

/-- Offer pieces of text in order, up to the first that is refused. Its rest is
not offered again. -/
def writeAll (sink : Sink) : List String → Option String × Sink
  | [] => (none, sink)
  | piece :: rest =>
      match sink.write piece with
      | (none, sink) => sink.writeAll rest
      | (some reason, sink) => (some reason, sink)

/-- Ask for everything accepted to be passed on. -/
def flush (sink : Sink) : Option String :=
  sink.policy.refusesFlush sink.accepted

end Sink

end Lox
