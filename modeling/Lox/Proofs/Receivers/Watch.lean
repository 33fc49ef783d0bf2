import Lox.Evaluation.Evaluate
import Mathlib.Logic.Function.Basic

/-!
# Watching for receivers

A second evaluator that goes through a program as `evaluate`, `execute` and
`invoke` do and keeps track of receivers on the way, without any regard to
scopes. The receiver of code is what the method around it is bound to. A method
gets its receiver when it is bound to an object. Any other function has that of
the code that declares it. What the machine does is not touched by this, it is
only noted down next to it wherever a receiver makes a difference.
-/

namespace Lox

/-! ## Receivers -/

/-- What a method is bound to: an object, and the class that the superclass of the
method's own class was found to be when that class was declared. -/
structure Receiver where
  object : Instance
  superclass : Option Class

/-- Where a receiver makes a difference: where `this` is read, where a method of the
superclass is asked for, and where a call of an initializer ends. -/
inductive Sight where
  | this (reference : Reference)
  | super (reference : Reference) (method : Token)
  | initialized (closure : Closure) (flow : Flow)

/-- A sight with the receiver of the code around it and the machine at that
point. -/
structure Sighting where
  sight : Sight
  receiver : Option Receiver
  machine : Machine

/-- A machine with everything noted down about receivers. -/
structure Watch where
  machine : Machine
  /-- The receivers of functions, by the identity of the function. -/
  receivers : Nat → Option Receiver
  /-- The superclasses of the classes that methods are declared in, by the identity
  of the method. -/
  superclasses : Nat → Option Class
  sightings : List Sighting

/-- A watched step of evaluation. -/
abbrev Watching := EStateM Halt Watch

namespace Watching

variable {α : Type}

/-! ## Single steps -/

/-- A step of the machine that needs no watching. -/
def lift (step : Run α) : Watching α := fun watch =>
  match step watch.machine with
  | .ok value machine => .ok value { watch with machine := machine }
  | .error halt machine => .error halt { watch with machine := machine }

/-- Note the receiver of a function. -/
def attach (closure : Closure) (receiver : Option Receiver) : Watching Unit :=
  modify fun watch =>
    { watch with receivers := Function.update watch.receivers closure.identity receiver }

/-- Note the superclass of the class that a method is declared in. -/
def inherit (method : Closure) (superclass : Option Class) : Watching Unit :=
  modify fun watch =>
    { watch with superclasses := Function.update watch.superclasses method.identity superclass }

/-- Note a sight. -/
def see (receiver : Option Receiver) (sight : Sight) : Watching Unit :=
  modify fun watch =>
    { watch with sightings := watch.sightings ++ [⟨sight, receiver, watch.machine⟩] }

/-- Run a step in another environment, and go back to the one before. -/
def within (environment : Environment) (step : Watching α) : Watching α := fun watch =>
  let leave (after : Watch) : Watch :=
    { after with machine := { after.machine with environment := watch.machine.environment } }
  match step { watch with machine := { watch.machine with environment := environment } } with
  | .ok value after => .ok value (leave after)
  | .error halt after => .error halt (leave after)

/-! ## Functions and classes -/

/-- A function declared by code with a receiver. -/
def declare (receiver : Option Receiver) (declaration : FunctionDecl) (isInitializer : Bool) :
    Watching Closure := do
  let closure ← lift (Closure.declare declaration isInitializer)
  attach closure receiver
  return closure

/-- A method bound to an object, which is its receiver from then on. -/
def bind (method : Closure) (object : Instance) : Watching Closure := do
  let bound ← lift (method.bind object)
  attach bound (some ⟨object, (← get).superclasses method.identity⟩)
  return bound

/-- The result of a call whose body has ended. -/
def result (receiver : Option Receiver) (closure : Closure) (flow : Flow) : Watching Value := do
  if closure.isInitializer then see receiver (.initialized closure flow)
  lift (closure.result flow)

/-- The value of a property. -/
def property (object : Instance) (name : Token) : Watching Value := do
  match ((← get).machine.store.fieldsOf object.reference).get? name.lexeme with
  | some value => return value
  | none =>
      let method ← lift (Run.orFail (object.cls.method? name.lexeme) (.propertyAt name))
      return .function (← bind method object)

/-- A method of the superclass. -/
def superMethod (reference : Reference) (method : Token) : Watching Value := do
  let machine := (← get).machine
  let keyword := reference.name
  let distance ← lift (Run.orFail (machine.distances.get? reference.id) (.variableAt keyword))
  match machine.environment.lookupAt? machine.store distance "super" with
  | some (.cls superclass) =>
      let receiver :=
        match distance with
        | 0 => none
        | distance + 1 => machine.environment.lookupAt? machine.store distance "this"
      match receiver with
      | some (.object object) =>
          let found ← lift (Run.orFail (superclass.method? method.lexeme) (.propertyAt method))
          return .function (← bind found object)
      | _ => lift (Run.fail (.undefinedVariable "this" keyword.line))
  | _ => lift (Run.fail (.variableAt keyword))

/-- A method of a class with a given superclass. -/
def declareMethod (superclass : Option Class) (declaration : FunctionDecl) : Watching Closure := do
  let isInitializer := declaration.name.lexeme = Class.initializerName
  let method ← lift (Closure.declare declaration isInitializer)
  inherit method superclass
  return method

/-- The methods of a class with a given superclass. -/
def declareMethods (superclass : Option Class) :
    List FunctionDecl → Bindings Closure → Watching (Bindings Closure)
  | [], methods => return methods
  | declaration :: rest, methods => do
      let method ← declareMethod superclass declaration
      declareMethods superclass rest (methods.set declaration.name.lexeme method)

/-- Declare a class whose superclass is known. -/
def declareClass (name : Token) (superclass : Option Class) (methods : List FunctionDecl) :
    Watching Unit := do
  lift (Run.define name.lexeme .nil)
  let inner ← lift (methodEnvironment (← get).machine.environment superclass)
  let members ← within inner (declareMethods superclass methods .empty)
  let identity ← lift Run.newIdentity
  lift (Run.define name.lexeme (.cls (.extend ⟨identity, name.lexeme, members⟩ superclass)))

/-! ## Lists -/

/-- Run statements in order, up to the first that leaves the function. -/
def sequence (execute : Stmt → Watching Flow) : List Stmt → Watching Flow
  | [] => return .normal
  | first :: rest => do
      match ← execute first with
      | .returned value => return .returned value
      | .normal => sequence execute rest

/-- Whether a loop goes on. -/
def goesOn (evaluate : Expr → Watching Value) : Option Expr → Watching Bool
  | none => return true
  | some condition => return (← evaluate condition).isTruthy

/-- Evaluate expressions from left to right. -/
def collect (evaluate : Expr → Watching Value) : List Expr → Watching (List Value)
  | [] => return []
  | first :: rest => do
      let value ← evaluate first
      let values ← collect evaluate rest
      return value :: values

/-! ## Evaluation -/

mutual

/-- Evaluate an expression in code with a receiver. -/
def evaluate : Nat → Option Receiver → Expr → Watching Value
  | 0, _, _ => throw .outOfSteps
  | steps + 1, receiver, expression =>
      match expression with
      | .literal literal => return literal.value
      | .grouping inner => evaluate steps receiver inner
      | .unary operator operand => do
          let value ← evaluate steps receiver operand
          lift (Run.ofOperator operator (value.unary operator.kind))
      | .binary left operator right => do
          let one ← evaluate steps receiver left
          let other ← evaluate steps receiver right
          lift (Run.ofOperator operator (one.binary operator.kind other))
      | .logical left operator right => do
          let one ← evaluate steps receiver left
          if one.decides operator.kind then return one else evaluate steps receiver right
      | .variable reference => lift (Run.read reference)
      | .assign reference value => do
          let value ← evaluate steps receiver value
          lift (Run.write reference value)
          return value
      | .call callee paren arguments => do
          let function ← evaluate steps receiver callee
          let values ← collect (evaluate steps receiver) arguments
          match function.callable? with
          | none => lift (Run.fail (.typeAt paren .notCallable))
          | some callable =>
              if values.length = callable.arity then invoke steps callable values paren.line
              else lift (Run.fail (.typeAt paren (.argumentCount callable.arity values.length)))
      | .get object name => do
          match ← evaluate steps receiver object with
          | .object found => property found name
          | _ => lift (Run.fail (.typeAt name .noProperties))
      | .set object name value => do
          match ← evaluate steps receiver object with
          | .object found =>
              let value ← evaluate steps receiver value
              lift (found.setProperty name value)
              return value
          | _ => lift (Run.fail (.typeAt name .noFields))
      | .this reference => do
          see receiver (.this reference)
          lift (Run.read reference)
      | .super reference method => do
          see receiver (.super reference method)
          superMethod reference method

/-- Execute a statement in code with a receiver. -/
def execute : Nat → Option Receiver → Stmt → Watching Flow
  | 0, _, _ => throw .outOfSteps
  | steps + 1, receiver, statement =>
      match statement with
      | .expression value => do
          let _ ← evaluate steps receiver value
          return .normal
      | .print value => do
          let result ← evaluate steps receiver value
          lift (Run.print result)
          return .normal
      | .var name none => do
          lift (Run.define name.lexeme .nil)
          return .normal
      | .var name (some initializer) => do
          let value ← evaluate steps receiver initializer
          lift (Run.define name.lexeme value)
          return .normal
      | .block body => do
          let inner ← lift (Run.newScope (← get).machine.environment .empty)
          within inner (sequence (execute steps receiver) body)
      | .conditional condition consequent alternative => do
          if (← evaluate steps receiver condition).isTruthy then execute steps receiver consequent
          else
            match alternative with
            | some statement => execute steps receiver statement
            | none => return .normal
      | .whileLoop condition body => do
          if (← evaluate steps receiver condition).isTruthy then
            match ← execute steps receiver body with
            | .returned value => return .returned value
            | .normal => execute steps receiver (.whileLoop condition body)
          else return .normal
      | .forLoop (some initializer) condition increment body => do
          let _ ← execute steps receiver initializer
          execute steps receiver (.forLoop none condition increment body)
      | .forLoop none condition increment body => do
          if ← goesOn (evaluate steps receiver) condition then
            match ← execute steps receiver body with
            | .returned value => return .returned value
            | .normal =>
                match increment with
                | none => execute steps receiver (.forLoop none condition increment body)
                | some step =>
                    let _ ← evaluate steps receiver step
                    execute steps receiver (.forLoop none condition increment body)
          else return .normal
      | .function declaration => do
          let closure ← declare receiver declaration false
          lift (Run.define declaration.name.lexeme (.function closure))
          return .normal
      | .returning _ none => return .returned .nil
      | .returning _ (some value) => do
          return .returned (← evaluate steps receiver value)
      | .classDecl name none methods => do
          declareClass name none methods
          return .normal
      | .classDecl name (some superclass) methods => do
          let value ← evaluate steps receiver superclass
          let found ← lift (superclassOf name superclass value)
          declareClass name (some found) methods
          return .normal

/-- Call something with arguments. The body of a function runs with the receiver
of the function. -/
def invoke : Nat → Callable → List Value → Nat → Watching Value
  | 0, _, _, _ => throw .outOfSteps
  | steps + 1, callable, arguments, line =>
      match callable with
      | .native function => lift (Run.callHost function arguments line)
      | .function closure => do
          let receiver := (← get).receivers closure.identity
          let inner ← lift
            (Run.newScope closure.environment (closure.parameterBindings arguments))
          let flow ← within inner (sequence (execute steps receiver) closure.declaration.body)
          result receiver closure flow
      | .cls found => do
          let object ← lift (Run.newInstance found)
          match found.initializer? with
          | none => return .object object
          | some initializer =>
              let bound ← bind initializer object
              let _ ← invoke steps (.function bound) arguments line
              return .object object

end

/-- Run a program. Outside of all functions there is no receiver. -/
def interpret (steps : Nat) : List Stmt → Watching Unit
  | [] => lift Run.flush
  | first :: rest => do
      let _ ← execute steps none first
      interpret steps rest

end Watching

/-! ## What sights should show -/

/-- A sight shows what its receiver says: `this` is the object, a method of the
superclass is the first of its name from the superclass on, bound to the object,
and an initializer yields the object. A missing method is the only fault. -/
def Sighting.Right (sighting : Sighting) : Prop :=
  ∃ receiver, sighting.receiver = some receiver ∧
    match sighting.sight with
    | .this reference =>
        Run.read reference sighting.machine = .ok (.object receiver.object) sighting.machine
    | .super reference method =>
        ∃ superclass, receiver.superclass = some superclass ∧
          superMethod reference method sighting.machine =
            (do
              let found ← Run.orFail (superclass.method? method.lexeme) (.propertyAt method)
              return .function (← found.bind receiver.object) : Run Value) sighting.machine
    | .initialized closure flow =>
        closure.result flow sighting.machine = .ok (.object receiver.object) sighting.machine

end Lox
