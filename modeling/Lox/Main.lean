import Lox.CommandLine
import Std.Time.DateTime.Timestamp

/-!
# The program

The outer layer of the command line: it reads arguments, files and typed lines,
hands them to the library and writes the answers.
-/

namespace Lox

/-- More steps than a run can take in practice. -/
def unlimitedSteps : Nat := Nat.pow 10 18

/-- A host whose clock was read before the run and moves on by a millisecond for
every thousand host calls, so that a program waiting for a time to come does not
wait for ever. -/
def hostAt (milliseconds : Nat) : Host := fun function calls _ =>
  if function = clock then .ok (.number (milliseconds + calls / 1000).toFloat)
  else .error ("No such host function: " ++ function.name)

/-- A host whose clock shows the time since the start of 1970. -/
def hostNow : IO Host := do
  let now ← Std.Time.Timestamp.now
  return hostAt now.toMillisecondsSinceUnixEpoch.val.toNat

/-- The cause behind a failed read. A folder is told from a name that goes on
behind a file by the system's number for it. -/
def faultOf : IO.Error → FileFault
  | .noFileOrDirectory .. => .missing
  | .inappropriateType _ 21 _ => .folder
  | .inappropriateType .. => .behindFile
  | .invalidArgument .. => .tooLong
  | .permissionDenied .. => .denied
  | other => .other (toString other)

/-- Read a file whole. -/
def readFile (name : String) : IO (Except FileFault (List UInt8)) := do
  try
    let content ← IO.FS.readBinFile name
    return .ok content.data.toList
  catch error => return .error (faultOf error)

/-- Write an answer to the two output channels. -/
def emit (answer : Transcript) : IO Unit := do
  let output ← IO.getStdout
  let errors ← IO.getStderr
  output.putStr answer.output
  output.flush
  errors.putStr answer.errors

/-- The file that a command names. -/
def Command.fileName? : Command → Option String
  | .tokenize _ file => file
  | .parse file => file
  | .evaluate file => file
  | .run file => file
  | .interactive => none

/-- Read the bytes of one line, its line feed included. -/
partial def readLine (input : IO.FS.Stream) (bytes : List UInt8) : IO (List UInt8) := do
  let next ← input.read 1
  match next.data.toList with
  | [] => return bytes.reverse
  | byte :: _ =>
      if byte = 10 then return (byte :: bytes).reverse
      else readLine input (byte :: bytes)

/-- Answer typed lines as they come. -/
partial def converse (session : Session) : IO UInt32 := do
  emit (.success Command.prompt)
  let line ← readLine (← IO.getStdin) []
  if line.isEmpty then
    emit Command.farewell
    return 0
  match Utf8.decode line with
  | .error _ =>
      emit Command.unreadableLine
      return 1
  | .ok text =>
      let machine := { session.machine with host := ← hostNow }
      let (answer, session) :=
        Command.respond unlimitedSteps text { session with machine := machine }
      emit answer
      converse session

end Lox

open Lox in
/-- Answer the command that the arguments ask for. -/
def main (arguments : List String) : IO UInt32 := do
  match Command.ofArguments? arguments with
  | none =>
      (← IO.getStderr).putStr
        "Usage: tokenize [--json] | parse | evaluate | run | repl, with a file name\n"
      return 2
  | some .interactive => converse (.start (← hostNow) .unlimited)
  | some command =>
      let content ←
        match command.fileName? with
        | none => pure (.error .missing)
        | some name => readFile name
      let world : World := ⟨fun _ => content, ← hostNow, unlimitedSteps⟩
      let answer := command.answer world []
      emit answer
      return answer.code.toUInt32
