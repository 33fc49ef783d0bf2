import Lox.Binding.Analysis
import Lox.Evaluation.Evaluate
import Lox.Failure
import Lox.Grammar.Statement
import Lox.Token.Stream

/-!
# Sessions

A session runs one text after another on the same machine, so that what one text
declares is there for the next. A text that fails leaves the session ready for
more.

Reading, binding and running are separate steps. A text is run only if both
steps before it found nothing wrong, so a faulty text has no effect on the
store and prints nothing.
-/

namespace Lox

/-- A machine together with the reference numbers not yet given out. -/
structure Session where
  machine : Machine
  nextReference : Nat

/-- One step of a session: it yields a result or fails, and leaves a session
behind in both cases. -/
abbrev Interaction := EStateM Failure Session

/-- The program that a text holds, or every lexical and syntactic fault in it,
and the next free reference number. -/
def readProgram (source : String) (nextReference : Nat) : Except Failure (List Stmt) × Nat :=
  let (tokens, lexical) := scan source
  let (result, nextReference) := Grammar.readProgram tokens nextReference
  match lexical, result with
  | [], .ok program => (.ok program, nextReference)
  | lexical, .ok _ => (.error (.ofDiagnostics lexical), nextReference)
  | lexical, .error syntactic =>
      (.error (.ofDiagnostics (lexical ++ syntactic)), nextReference)

/-- The expression that a text holds, or what is wrong with it, and the next
free reference number. Where there are lexical faults they alone are told. -/
def readExpression (source : String) (nextReference : Nat) : Except Failure Expr × Nat :=
  let (tokens, lexical) := scan source
  let (result, nextReference) := Grammar.readExpression tokens nextReference
  match lexical with
  | [] => (result.mapError .diagnostic, nextReference)
  | lexical => (.error (.ofDiagnostics lexical), nextReference)

namespace Session

/-- A session in which nothing has run yet. -/
def start (host : Host) (policy : SinkPolicy) : Session :=
  ⟨.start host policy, 0⟩

/-- Everything printed so far. -/
def output (session : Session) : String :=
  session.machine.sink.accepted

/-- Let a step read a text, giving it the reference numbers it needs. -/
def reading {α : Type} (read : Nat → Except Failure α × Nat) : Interaction α := do
  let session ← get
  let (result, nextReference) := read session.nextReference
  set { session with nextReference := nextReference }
  match result with
  | .ok value => return value
  | .error failure => throw failure

/-- Let a step run on the machine. -/
def running {α : Type} (run : Run α) : Interaction α := fun session =>
  match run session.machine with
  | .ok value machine => .ok value { session with machine := machine }
  | .error halt machine => .error (.ofHalt halt) { session with machine := machine }

/-- Bind the names of a program. The distances stay noted also where there are
faults. -/
def bind (program : List Stmt) : Interaction Unit := do
  let session ← get
  let (faults, distances) := bindProgram program session.machine.distances
  set { session with machine := { session.machine with distances := distances } }
  match faults with
  | [] => return ()
  | faults => throw (.ofDiagnostics faults)

/-- Read a text and bind its names without running it. -/
def check (source : String) : Interaction Unit := do
  let program ← reading (readProgram source)
  bind program

/-- Read a text and run it without binding its names, which leaves every name to
the globals. -/
def runUnbound (steps : Nat) (source : String) : Interaction Unit := do
  let program ← reading (readProgram source)
  running (interpret steps program)

/-- Read a text, bind its names and run it. -/
def run (steps : Nat) (source : String) : Interaction Unit := do
  let program ← reading (readProgram source)
  bind program
  running (interpret steps program)

/-- Read an expression and evaluate it with every name left to the globals. -/
def evaluate (steps : Nat) (source : String) : Interaction Value := do
  let expression ← reading (readExpression source)
  running (Lox.evaluate steps expression)

end Session

end Lox
