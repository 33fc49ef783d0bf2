import Lox.Evaluation.Operators

/-!
# Evaluation

Expressions, statements and calls. All three recurse on a number of steps, which
bounds the depth of nesting and the length of loops and has no other meaning:
with more steps a finished evaluation gives the same result.

A `return` leaves the statements around it as a `Flow` and becomes the result of
the call that it ends. Faults leave everything up to the start of the run.
-/

namespace Lox

/-- Run statements in order, up to the first that leaves the function. -/
def Flow.sequence (execute : Stmt → Run Flow) : List Stmt → Run Flow
  | [] => return .normal
  | first :: rest => do
      match ← execute first with
      | .returned value => return .returned value
      | .normal => sequence execute rest

/-- Whether a loop goes on. Without a condition it always does. -/
def Run.goesOn (evaluate : Expr → Run Value) : Option Expr → Run Bool
  | none => return true
  | some condition => return (← evaluate condition).isTruthy

/-- Evaluate expressions from left to right. -/
def Run.collect (evaluate : Expr → Run Value) : List Expr → Run (List Value)
  | [] => return []
  | first :: rest => do
      let value ← evaluate first
      let values ← collect evaluate rest
      return value :: values

namespace Closure

/-- A function declared here and now. -/
def declare (declaration : FunctionDecl) (isInitializer : Bool) : Run Closure := do
  let identity ← Run.newIdentity
  return ⟨identity, declaration, (← get).environment, isInitializer⟩

/-- A method bound to an object: a function of its own, in a new scope that
holds `this`. -/
def bind (method : Closure) (object : Instance) : Run Closure := do
  let environment ← Run.newScope method.environment (Bindings.empty.set "this" (.object object))
  let identity ← Run.newIdentity
  return { method with identity := identity, environment := environment }

/-- The scope in which a body runs: each parameter bound to the argument at its
place. Arguments past the last parameter are dropped and parameters past the
last argument stay unbound. -/
def parameterBindings (closure : Closure) (arguments : List Value) : Bindings Value :=
  (closure.declaration.parameters.zip arguments).foldl
    (fun bindings entry => bindings.set entry.1.lexeme entry.2) .empty

/-- The result of a call whose body has ended. An initializer yields the object
it is bound to, whatever its body returned. -/
def result (closure : Closure) (flow : Flow) : Run Value := do
  if closure.isInitializer then
    Run.orFail (closure.environment.lookupAt? (← get).store 0 "this")
      (.undefinedVariable "this" closure.declaration.name.line)
  else
    match flow with
    | .returned value => return value
    | .normal => return .nil

end Closure

namespace Instance

/-- The value of a property: a field, or else a method bound to the object. -/
def property (object : Instance) (name : Token) : Run Value := do
  match ((← get).store.fieldsOf object.reference).get? name.lexeme with
  | some value => return value
  | none =>
      let method ← Run.orFail (object.cls.method? name.lexeme) (.propertyAt name)
      return .function (← method.bind object)

/-- Store a value in a field. -/
def setProperty (object : Instance) (name : Token) (value : Value) : Run Unit :=
  Run.modifyStore fun store => store.setField object.reference name.lexeme value

end Instance

/-- A method of the superclass, bound to the object of the running method. The
scope of `this` lies directly inside the scope of `super`. -/
def superMethod (reference : Reference) (method : Token) : Run Value := do
  let machine ← get
  let keyword := reference.name
  let distance ← Run.orFail (machine.distances.get? reference.id) (.variableAt keyword)
  match machine.environment.lookupAt? machine.store distance "super" with
  | some (.cls superclass) =>
      let receiver :=
        match distance with
        | 0 => none
        | distance + 1 => machine.environment.lookupAt? machine.store distance "this"
      match receiver with
      | some (.object object) =>
          let found ← Run.orFail (superclass.method? method.lexeme) (.propertyAt method)
          return .function (← found.bind object)
      | _ => Run.fail (.undefinedVariable "this" keyword.line)
  | _ => Run.fail (.variableAt keyword)

/-- A value as the superclass of a class. -/
def superclassOf (name : Token) (superclass : Expr) (value : Value) : Run Class :=
  match value with
  | .cls found => pure found
  | _ => Run.fail (.type .superclassNotClass (superclass.line?.getD name.line))

/-- The methods of a class, declared here and now. Of several with one name the
last counts. -/
def declareMethods : List FunctionDecl → Bindings Closure → Run (Bindings Closure)
  | [], methods => return methods
  | declaration :: rest, methods => do
      let name := declaration.name.lexeme
      let method ← Closure.declare declaration (name = Class.initializerName)
      declareMethods rest (methods.set name method)

/-- The environment in which methods are declared. Those of a subclass have a
scope of their own that holds `super`. -/
def methodEnvironment (outer : Environment) : Option Class → Run Environment
  | none => pure outer
  | some superclass => Run.newScope outer (Bindings.empty.set "super" (.cls superclass))

/-- Declare a class whose superclass is known. Its name is bound before its
methods are declared and stands for the class afterwards. -/
def declareClass (name : Token) (superclass : Option Class) (methods : List FunctionDecl) :
    Run Unit := do
  Run.define name.lexeme .nil
  let inner ← methodEnvironment (← get).environment superclass
  let members ← Run.within inner (declareMethods methods .empty)
  let identity ← Run.newIdentity
  Run.define name.lexeme (.cls (.extend ⟨identity, name.lexeme, members⟩ superclass))

mutual

/-- Evaluate an expression within a number of steps. -/
def evaluate : Nat → Expr → Run Value
  | 0, _ => throw .outOfSteps
  | steps + 1, expression =>
      match expression with
      | .literal literal => return literal.value
      | .grouping inner => evaluate steps inner
      | .unary operator operand => do
          let value ← evaluate steps operand
          Run.ofOperator operator (value.unary operator.kind)
      | .binary left operator right => do
          let one ← evaluate steps left
          let other ← evaluate steps right
          Run.ofOperator operator (one.binary operator.kind other)
      | .logical left operator right => do
          let one ← evaluate steps left
          if one.decides operator.kind then return one else evaluate steps right
      | .variable reference => Run.read reference
      | .assign reference value => do
          let value ← evaluate steps value
          Run.write reference value
          return value
      | .call callee paren arguments => do
          let function ← evaluate steps callee
          let values ← Run.collect (evaluate steps) arguments
          match function.callable? with
          | none => Run.fail (.typeAt paren .notCallable)
          | some callable =>
              if values.length = callable.arity then invoke steps callable values paren.line
              else Run.fail (.typeAt paren (.argumentCount callable.arity values.length))
      | .get object name => do
          match ← evaluate steps object with
          | .object found => found.property name
          | _ => Run.fail (.typeAt name .noProperties)
      | .set object name value => do
          match ← evaluate steps object with
          | .object found =>
              let value ← evaluate steps value
              found.setProperty name value
              return value
          | _ => Run.fail (.typeAt name .noFields)
      | .this reference => Run.read reference
      | .super reference method => superMethod reference method

/-- Execute a statement within a number of steps. -/
def execute : Nat → Stmt → Run Flow
  | 0, _ => throw .outOfSteps
  | steps + 1, statement =>
      match statement with
      | .expression value => do
          let _ ← evaluate steps value
          return .normal
      | .print value => do
          Run.print (← evaluate steps value)
          return .normal
      | .var name none => do
          Run.define name.lexeme .nil
          return .normal
      | .var name (some initializer) => do
          Run.define name.lexeme (← evaluate steps initializer)
          return .normal
      | .block body => do
          let inner ← Run.newScope (← get).environment .empty
          Run.within inner (Flow.sequence (execute steps) body)
      | .conditional condition consequent alternative => do
          if (← evaluate steps condition).isTruthy then execute steps consequent
          else
            match alternative with
            | some statement => execute steps statement
            | none => return .normal
      | .whileLoop condition body => do
          if (← evaluate steps condition).isTruthy then
            match ← execute steps body with
            | .returned value => return .returned value
            | .normal => execute steps (.whileLoop condition body)
          else return .normal
      | .forLoop (some initializer) condition increment body => do
          let _ ← execute steps initializer
          execute steps (.forLoop none condition increment body)
      | .forLoop none condition increment body => do
          if ← Run.goesOn (evaluate steps) condition then
            match ← execute steps body with
            | .returned value => return .returned value
            | .normal =>
                match increment with
                | none => execute steps (.forLoop none condition increment body)
                | some step =>
                    let _ ← evaluate steps step
                    execute steps (.forLoop none condition increment body)
          else return .normal
      | .function declaration => do
          let closure ← Closure.declare declaration false
          Run.define declaration.name.lexeme (.function closure)
          return .normal
      | .returning _ none => return .returned .nil
      | .returning _ (some value) => do
          return .returned (← evaluate steps value)
      | .classDecl name none methods => do
          declareClass name none methods
          return .normal
      | .classDecl name (some superclass) methods => do
          let found ← superclassOf name superclass (← evaluate steps superclass)
          declareClass name (some found) methods
          return .normal

/-- Call something with arguments within a number of steps. The number of
arguments is not checked here. Faults of host functions are blamed on the line
given. -/
def invoke : Nat → Callable → List Value → Nat → Run Value
  | 0, _, _, _ => throw .outOfSteps
  | steps + 1, callable, arguments, line =>
      match callable with
      | .native function => Run.callHost function arguments line
      | .function closure => do
          let inner ← Run.newScope closure.environment (closure.parameterBindings arguments)
          let flow ← Run.within inner
            (Flow.sequence (execute steps) closure.declaration.body)
          closure.result flow
      | .cls found => do
          let object ← Run.newInstance found
          match found.initializer? with
          | none => return .object object
          | some initializer =>
              let bound ← initializer.bind object
              let _ ← invoke steps (.function bound) arguments line
              return .object object

end

/-- Run a program within a number of steps. A `return` outside of all functions
ends nothing but its own statement. Output is passed on after the last
statement. -/
def interpret (steps : Nat) : List Stmt → Run Unit
  | [] => Run.flush
  | first :: rest => do
      let _ ← execute steps first
      interpret steps rest

end Lox
