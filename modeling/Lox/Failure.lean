import Lox.Diagnostic
import Lox.Evaluation.Machine
import Lox.Text.Utf8

/-!
# Failures

Everything that can keep a program from finishing, from unreadable input to a
fault while it runs, with its text and its process exit code.
-/

namespace Lox

/-- What keeps a program from finishing. -/
inductive Failure where
  /-- One fault in the program text. -/
  | diagnostic (diagnostic : Diagnostic)
  /-- All faults that one look at the program text found. -/
  | batch (failures : List Failure)
  /-- A fault of the running program. -/
  | runtime (fault : RuntimeFault)
  /-- Input that cannot be read, for the reason given. -/
  | input (reason : String)
  /-- Input that is not text. -/
  | encoding (defect : Utf8.Defect)
  /-- The steps allowed were used up before the program finished. -/
  | outOfSteps
  deriving Inhabited

namespace Failure

/-- All faults that one look at the program text found. -/
def ofDiagnostics (diagnostics : List Diagnostic) : Failure :=
  .batch (diagnostics.map .diagnostic)

/-- Why evaluation stopped, as a failure. -/
def ofHalt : Halt → Failure
  | .fault fault => .runtime fault
  | .outOfSteps => .outOfSteps

mutual

/-- The text shown for a failure. -/
def message : Failure → String
  | .diagnostic found => found.message
  | .batch failures => "\n".intercalate (messages failures)
  | .runtime fault => fault.message
  | .input reason => reason
  | .encoding defect => defect.message
  | .outOfSteps => "The steps allowed were used up."

/-- The texts shown for several failures. -/
def messages : List Failure → List String
  | [] => []
  | first :: rest => message first :: messages rest

end

/-- The exit code of a process that ends with a failure: 65 for a program that
is wrong, 70 for one that fails while it runs, 74 for input that cannot be
read. -/
def exitCode : Failure → Nat
  | .diagnostic _ => 65
  | .batch _ => 65
  | .runtime _ => 70
  | .outOfSteps => 70
  | .input _ => 74
  | .encoding _ => 74

end Failure

end Lox
