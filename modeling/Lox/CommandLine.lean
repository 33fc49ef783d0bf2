import Lox.Folder
import Lox.Session
import Lox.Syntax.PrefixForm
import Lox.Text.Quoted
import Lox.Token.Json

/-!
# The command line

What each command answers, as text for the two output channels and an exit code.
The answers are functions of the input: of the bytes that a file name leads to,
or of the lines typed into an interactive session.
-/

namespace Lox

/-- A command with the file it works on, if one was named. -/
inductive Command where
  | tokenize (asJson : Bool) (file : Option String)
  | parse (file : Option String)
  | evaluate (file : Option String)
  | run (file : Option String)
  /-- An interactive session, one line after another. -/
  | interactive
  deriving DecidableEq, Repr, Inhabited

/-- What a command writes and the code its process exits with. -/
structure Transcript where
  output : String
  errors : String
  code : Nat
  deriving DecidableEq, Repr, Inhabited

/-- What commands need from the world around them. -/
structure World where
  /-- The bytes that a file name leads to, or why there are none. -/
  file : String → Except FileFault (List UInt8)
  host : Host
  /-- The steps that one run may take. -/
  steps : Nat

namespace Command

/-- Whether a word before the mark `--` asks for an option. A lone dash is a
name. -/
def isOption (word : String) : Bool :=
  word.startsWith "-" && word != "-"

/-- The file named after a command, if any. More than one is a mistake, and so
are an empty name and an option that the command does not know. -/
def file? (words plain : List String) : Option (Option String) :=
  if words.any isOption then none
  else
    match words ++ plain with
    | [] => some none
    | [name] => if name = "" then none else some (some name)
    | _ => none

/-- The command that arguments ask for. Words after the mark `--` are plain even
where they look like options. Asking for a log changes nothing else and may
stand anywhere before the mark. -/
def ofArguments? (arguments : List String) : Option Command :=
  let marked := arguments.takeWhile (· != "--")
  let plain := (arguments.dropWhile (· != "--")).drop 1
  match marked.filter (· != "--log") with
  | "tokenize" :: rest =>
      (file? (rest.filter (· != "--json")) plain).map (.tokenize (rest.contains "--json"))
  | "parse" :: rest => (file? rest plain).map .parse
  | "evaluate" :: rest => (file? rest plain).map .evaluate
  | "run" :: rest => (file? rest plain).map .run
  | ["repl"] => if plain.isEmpty then some .interactive else none
  | _ => none

end Command

namespace Transcript

/-- A command that succeeds. -/
def success (output : String) : Transcript := ⟨output, "", 0⟩

/-- A command that ends with a failure after writing some output. -/
def ofFailure (failure : Failure) (output : String) : Transcript :=
  ⟨output, failure.message ++ "\n", failure.exitCode⟩

/-- The answer where a file is needed and none was named. -/
def noFile : Transcript :=
  .success "No input filepath was provided. Exiting...\n"

end Transcript

/-- The text in a file, or why it cannot be read. -/
def World.source (world : World) (name : String) : Except Failure String :=
  let quoted := Quoted.quote name
  match world.file name with
  | .error fault => .error (.input (fault.message quoted))
  | .ok bytes =>
      match Utf8.decode bytes with
      | .ok text => .ok text
      | .error defect => .error (.input (quoted ++ " is not valid UTF-8: " ++ defect.message))

namespace Command

/-- Text on a line of its own. -/
def asLine (text : String) : String :=
  text ++ "\n"

/-- A session that prints without limits. -/
def session (world : World) : Session :=
  .start world.host .unlimited

/-- All tokens of a text, with its lexical faults told apart. -/
def tokenizeText (asJson : Bool) (source : String) : Transcript :=
  let (tokens, faults) := scan source
  let output :=
    if asJson then asLine (Json.array (tokens.map Token.toJson)).pretty
    else String.join (tokens.map fun token => asLine token.listing)
  let errors := String.join (faults.map fun fault => asLine fault.message)
  ⟨output, errors, if faults.isEmpty then 0 else 65⟩

/-- The expression in a text, in prefix form. -/
def parseText (source : String) : Transcript :=
  match (readExpression source 0).1 with
  | .ok expression => .success (asLine expression.prefixForm)
  | .error failure => .ofFailure failure ""

/-- What evaluation printed, followed by the value of the expression in a
text. -/
def evaluateText (world : World) (source : String) : Transcript :=
  match Session.evaluate world.steps source (session world) with
  | .ok value after => .success (after.output ++ asLine value.text)
  | .error failure after => .ofFailure failure after.output

/-- What the program in a text prints. -/
def runText (world : World) (source : String) : Transcript :=
  match Session.run world.steps source (session world) with
  | .ok _ after => .success after.output
  | .error failure after => .ofFailure failure after.output

/-- The answer to a command on a file. -/
def onFile (world : World) (file : Option String) (answer : String → Transcript) :
    Transcript :=
  match file with
  | none => .noFile
  | some name =>
      match world.source name with
      | .ok source => answer source
      | .error failure => .ofFailure failure ""

/-! ### Interactive sessions -/

/-- What is written in front of each line typed. -/
def prompt : String := "> "

/-- What is written when the lines end. -/
def farewell : Transcript := .success "\n"

/-- The answer to a line that is not text, which ends the session. -/
def unreadableLine : Transcript :=
  ⟨"", "Error: Failed to read from stdin\n\nCaused by:\n    " ++
    "stream did not contain valid UTF-8\n", 1⟩

/-- The text printed between two states of a session. -/
def printedBetween (before after : Session) : String :=
  String.ofList (after.output.toList.drop before.output.length)

/-- Run one line. The answer is what it printed and what was wrong with it. -/
def respond (steps : Nat) (line : String) (before : Session) : Transcript × Session :=
  match Session.run steps line before with
  | .ok _ after => (.success (printedBetween before after), after)
  | .error failure after => (.ofFailure failure (printedBetween before after), after)

/-- The lines of an input, each with its line feed. The last one may lack it. -/
def linesOf : List UInt8 → List (List UInt8)
  | [] => []
  | byte :: rest =>
      if byte = 10 then [byte] :: linesOf rest
      else
        match linesOf rest with
        | [] => [[byte]]
        | line :: lines => (byte :: line) :: lines

/-- Answer line after line. Failures are told and the session goes on. -/
def respondAll (steps : Nat) : List (List UInt8) → Session → Transcript
  | [], _ => { farewell with output := prompt ++ farewell.output }
  | line :: rest, session =>
      match Utf8.decode line with
      | .error _ => { unreadableLine with output := prompt }
      | .ok text =>
          let (answer, session) := respond steps text session
          let others := respondAll steps rest session
          ⟨prompt ++ answer.output ++ others.output, answer.errors ++ others.errors, others.code⟩

/-- The answer to a command, given everything that will be typed. -/
def answer (world : World) (input : List UInt8) : Command → Transcript
  | .tokenize asJson file => onFile world file (tokenizeText asJson)
  | .parse file => onFile world file parseText
  | .evaluate file => onFile world file (evaluateText world)
  | .run file => onFile world file (runText world)
  | .interactive => respondAll world.steps (linesOf input) (session world)

end Command

end Lox
