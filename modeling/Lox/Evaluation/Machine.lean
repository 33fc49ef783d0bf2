import Lox.Binding.Distance
import Lox.Evaluation.Fault
import Lox.Evaluation.Sink
import Lox.Store
import Lox.Value.Text

/-!
# The state of a running program

A `Machine` is everything that evaluation reads and changes. A step of
evaluation is a `Run`: it yields a result or halts, and leaves a machine behind
in both cases, since what happened before a fault stays done.

Running out of steps is kept apart from faults. It says nothing about the
program, only that more steps are needed to know what it does.
-/

namespace Lox

/-- What a host supplies for its functions: for a function, the number of host
calls made before this one, and the arguments, a result or the words of a
fault. -/
abbrev Host := Native → Nat → List Value → Except String Value

/-- Everything that evaluation reads and changes. -/
structure Machine where
  store : Store
  /-- The scopes around the point of evaluation. -/
  environment : Environment
  /-- The distances of all references to local names. -/
  distances : Distances
  /-- The next free identity for a function or class. -/
  nextIdentity : Nat
  /-- The number of calls made to host functions. -/
  hostCalls : Nat
  sink : Sink
  host : Host

/-- Why evaluation stops. -/
inductive Halt where
  | fault (fault : RuntimeFault)
  /-- The steps allowed were used up. -/
  | outOfSteps
  deriving DecidableEq, Repr, Inhabited

/-- A step of evaluation. -/
abbrev Run := EStateM Halt Machine

/-- How a statement ends: by going on to the next one, or by leaving the
function around it with a value. -/
inductive Flow where
  | normal
  | returned (value : Value)
  deriving Inhabited

/-- The scope of all globals, which is the outermost one of every
environment. -/
def globalScope : ScopeRef := ⟨0⟩

/-- The environment outside of all local scopes. -/
def globalEnvironment : Environment := [globalScope]

/-- Outside of all local scopes a name has its global value. -/
theorem lookup?_globalEnvironment (store : Store) (name : String) :
    globalEnvironment.lookup? store name = (store.scope globalScope).get? name := by
  unfold globalEnvironment Environment.lookup?
  rw [List.findSome?_cons]
  cases (store.scope globalScope).get? name <;> rfl

/-- Outside of all local scopes a name is bound in the global scope if at all. -/
theorem binder?_globalEnvironment (store : Store) (name : String) :
    globalEnvironment.binder? store name =
      if (store.scope globalScope).contains name then some globalScope else none := by
  unfold globalEnvironment Environment.binder?
  rw [List.find?_cons]
  cases (store.scope globalScope).contains name <;> rfl

/-- The host function that tells the time in milliseconds. -/
def clock : Native := ⟨"clock", 0⟩

namespace Machine

/-- A machine on which nothing has run yet. The one global is the clock. -/
def start (host : Host) (policy : SinkPolicy) : Machine where
  store := ⟨#[Bindings.empty.set clock.name (.native clock)], #[]⟩
  environment := globalEnvironment
  distances := .empty
  nextIdentity := 0
  hostCalls := 0
  sink := .ofPolicy policy
  host := host

end Machine

namespace Run

variable {α : Type}

/-- Halt with a fault. -/
def fail (fault : RuntimeFault) : Run α :=
  throw (.fault fault)

/-- Go on with a result, or halt with a fault where there is none. -/
def orFail (result : Option α) (fault : RuntimeFault) : Run α :=
  match result with
  | some value => pure value
  | none => fail fault

/-- Change the store. -/
def modifyStore (change : Store → Store) : Run Unit :=
  modify fun machine => { machine with store := change machine.store }

/-- An identity that nothing has yet. -/
def newIdentity : Run Nat :=
  modifyGet fun machine =>
    (machine.nextIdentity, { machine with nextIdentity := machine.nextIdentity + 1 })

/-- A new scope with given bindings inside an environment. -/
def newScope (outer : Environment) (bindings : Bindings Value) : Run Environment :=
  modifyGet fun machine =>
    let (reference, store) := machine.store.addScope bindings
    (reference :: outer, { machine with store := store })

/-- A new instance of a class. -/
def newInstance (cls : Class) : Run Instance :=
  modifyGet fun machine =>
    let (reference, store) := machine.store.addInstance
    (⟨reference, cls⟩, { machine with store := store })

/-- Run a step in another environment. However the step ends, the environment
afterwards is the one before. -/
def within (environment : Environment) (step : Run α) : Run α := fun machine =>
  match step { machine with environment := environment } with
  | .ok value after => .ok value { after with environment := machine.environment }
  | .error halt after => .error halt { after with environment := machine.environment }

/-- Bind a name in the innermost scope. -/
def define (name : String) (value : Value) : Run Unit :=
  modify fun machine =>
    match machine.environment with
    | [] => machine
    | scope :: _ => { machine with store := machine.store.define scope name value }

/-- The value of a reference: of a local name in the scope at its distance, of
any other name among the globals. -/
def read (reference : Reference) : Run Value := do
  let machine ← get
  let found :=
    match machine.distances.get? reference.id with
    | some distance =>
        machine.environment.lookupAt? machine.store distance reference.name.lexeme
    | none => globalEnvironment.lookup? machine.store reference.name.lexeme
  orFail found (.variableAt reference.name)

/-- The scope that a reference assigns to: for a local name the scope at its
distance, for any other name the globals if they have it. -/
def target? (reference : Reference) (machine : Machine) : Option ScopeRef :=
  match machine.distances.get? reference.id with
  | some distance => machine.environment.scopeAt? distance
  | none => globalEnvironment.binder? machine.store reference.name.lexeme

/-- Give what a reference names a new value. -/
def write (reference : Reference) (value : Value) : Run Unit := do
  let scope ← orFail (target? reference (← get)) (.variableAt reference.name)
  modifyStore fun store => store.define scope reference.name.lexeme value

/-- Write the text of a value on a line of its own. -/
def print (value : Value) : Run Unit := fun machine =>
  match machine.sink.writeAll (value.pieces ++ ["\n"]) with
  | (none, sink) => .ok () { machine with sink := sink }
  | (some reason, sink) => .error (.fault (.output reason)) { machine with sink := sink }

/-- Pass on everything written. -/
def flush : Run Unit := do
  match (← get).sink.flush with
  | none => return ()
  | some reason => fail (.output reason)

/-- Call a host function. Its faults are blamed on a line of the program. -/
def callHost (function : Native) (arguments : List Value) (line : Nat) : Run Value := do
  let machine ← get
  set { machine with hostCalls := machine.hostCalls + 1 }
  match machine.host function machine.hostCalls arguments with
  | .ok value => return value
  | .error message => fail (.type (.reported message) line)

end Run

end Lox
