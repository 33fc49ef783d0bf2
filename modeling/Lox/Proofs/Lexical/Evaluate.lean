import Lox.Evaluation.Evaluate

/-!
# Lexical scoping, evaluated directly

An evaluator with neither distances nor chains of scopes. Every declaration of a
local name makes a fresh cell and extends a map from names to cells, which is
never changed but only extended. A function captures the map of the point where
it is declared. Names that are not in the map are looked up among the globals
when they are used.

The values are those of any other run, but no function has an environment in it.
What a function captures is kept beside the values, by its identity.
-/

namespace Lox.Lexical

/-- The local names at a point of a program, each with its cell. Outside of all
blocks and functions there are none, and what is declared is global. -/
abbrev Names := Option (Bindings Nat)

namespace Names

/-- The cell of a name, if the name is local. -/
def cell? (names : Names) (name : String) : Option Nat :=
  names.bind fun cells => cells.get? name

/-- The names in a block or function before it declares any of its own. -/
def enter (names : Names) : Names :=
  some (names.getD .empty)

/-- Names with one more, or with one that hides another. -/
def extend (names : Names) (name : String) (cell : Nat) : Names :=
  some ((names.getD .empty).set name cell)

@[simp] theorem cell?_none (name : String) : cell? none name = none := rfl

@[simp] theorem cell?_enter (names : Names) (name : String) :
    names.enter.cell? name = names.cell? name := by
  cases names <;> rfl

end Names

/-- Everything that evaluation reads and changes. -/
structure State where
  /-- The values of local names. -/
  cells : Array Value
  globals : Bindings Value
  fields : Array (Bindings Value)
  /-- What every function captured, by identity. Classes have a place here too,
  as they take their identities from the same supply. -/
  captured : Array Names
  hostCalls : Nat
  sink : Sink
  host : Host

namespace State

/-- Nothing has run yet. -/
def start (host : Host) (policy : SinkPolicy) : State where
  cells := #[]
  globals := Bindings.empty.set clock.name (.native clock)
  fields := #[]
  captured := #[]
  hostCalls := 0
  sink := .ofPolicy policy
  host := host

/-- The fields of an instance. -/
def fieldsOf (state : State) (reference : InstanceRef) : Bindings Value :=
  state.fields[reference.index]?.getD .empty

/-- What a function captured. -/
def namesOf (state : State) (closure : Closure) : Names :=
  state.captured[closure.identity]?.getD none

end State

/-- A step of evaluation. -/
abbrev Action := EStateM Halt State

/-! ## Steps -/

variable {α : Type}

/-- Halt with a fault. -/
def fail (fault : RuntimeFault) : Action α :=
  throw (.fault fault)

/-- Go on with a result, or halt with a fault where there is none. -/
def orFail (result : Option α) (fault : RuntimeFault) : Action α :=
  match result with
  | some value => pure value
  | none => fail fault

/-- The result of an operator, with its fault blamed on the operator. -/
def ofOperator (operator : Token) (result : Except TypeFault Value) : Action Value :=
  match result with
  | .ok value => pure value
  | .error fault => fail (.typeAt operator fault)

/-- A fresh cell that holds a value. -/
def newCell (value : Value) : Action Nat :=
  modifyGet fun state => (state.cells.size, { state with cells := state.cells.push value })

/-- Give a cell a new value. -/
def setCell (cell : Nat) (value : Value) : Action Unit :=
  modify fun state => { state with cells := state.cells.setIfInBounds cell value }

/-- An identity that nothing has yet, for something that captures names. -/
def capture (names : Names) : Action Nat :=
  modifyGet fun state =>
    (state.captured.size, { state with captured := state.captured.push names })

/-- A new instance of a class. -/
def newInstance (cls : Class) : Action Instance :=
  modifyGet fun state =>
    (⟨⟨state.fields.size⟩, cls⟩, { state with fields := state.fields.push .empty })

/-- Declare a name. A local one gets a fresh cell, without a value of its own as
yet. -/
def declare (names : Names) (name : String) : Action Names :=
  match names with
  | none => return none
  | some cells => do
      let cell ← newCell .nil
      return Names.extend (some cells) name cell

/-- Give a declared name its value. -/
def define (names : Names) (name : String) (value : Value) : Action Unit :=
  match names.cell? name with
  | some cell => setCell cell value
  | none => modify fun state => { state with globals := state.globals.set name value }

/-- The value of a name that is used. -/
def read (names : Names) (reference : Reference) : Action Value := do
  let state ← get
  let found :=
    match names.cell? reference.name.lexeme with
    | some cell => state.cells[cell]?
    | none => state.globals.get? reference.name.lexeme
  orFail found (.variableAt reference.name)

/-- Give a name that is used a new value. A global must be there already. -/
def write (names : Names) (reference : Reference) (value : Value) : Action Unit :=
  match names.cell? reference.name.lexeme with
  | some cell => setCell cell value
  | none => do
      if (← get).globals.contains reference.name.lexeme then
        modify fun state =>
          { state with globals := state.globals.set reference.name.lexeme value }
      else fail (.variableAt reference.name)

/-- Write the text of a value on a line of its own. -/
def print (value : Value) : Action Unit := fun state =>
  match state.sink.writeAll (value.pieces ++ ["\n"]) with
  | (none, sink) => .ok () { state with sink := sink }
  | (some reason, sink) => .error (.fault (.output reason)) { state with sink := sink }

/-- Pass on everything written. -/
def flush : Action Unit := do
  match (← get).sink.flush with
  | none => return ()
  | some reason => fail (.output reason)

/-- Call a host function. Its faults are blamed on a line of the program. -/
def callHost (function : Native) (arguments : List Value) (line : Nat) : Action Value := do
  let state ← get
  set { state with hostCalls := state.hostCalls + 1 }
  match state.host function state.hostCalls arguments with
  | .ok value => return value
  | .error message => fail (.type (.reported message) line)

/-! ## Functions and classes -/

/-- A function declared here and now. -/
def function (names : Names) (declaration : FunctionDecl) (isInitializer : Bool) :
    Action Closure := do
  let identity ← capture names
  return ⟨identity, declaration, [], isInitializer⟩

/-- A method bound to an object: a function of its own that captures `this` too. -/
def bindMethod (method : Closure) (object : Instance) : Action Closure := do
  let names := (← get).namesOf method
  let cell ← newCell (.object object)
  let identity ← capture (names.extend "this" cell)
  return { method with identity := identity }

/-- Parameters, each in a fresh cell that holds its argument. -/
def bindParameters : List (Token × Value) → Names → Action Names
  | [], names => return names
  | (name, value) :: rest, names => do
      let cell ← newCell value
      bindParameters rest (names.extend name.lexeme cell)

/-- The value of a name that a function has captured. -/
def capturedValue? (state : State) (closure : Closure) (name : String) : Option Value :=
  ((state.namesOf closure).cell? name).bind fun cell => state.cells[cell]?

/-- The result of a call whose body has ended. An initializer yields the object
it is bound to. -/
def result (closure : Closure) (flow : Flow) : Action Value := do
  if closure.isInitializer then
    orFail (capturedValue? (← get) closure "this")
      (.undefinedVariable "this" closure.declaration.name.line)
  else
    match flow with
    | .returned value => return value
    | .normal => return .nil

/-- The value of a property: a field, or else a method bound to the object. -/
def property (object : Instance) (name : Token) : Action Value := do
  match ((← get).fieldsOf object.reference).get? name.lexeme with
  | some value => return value
  | none =>
      let method ← orFail (object.cls.method? name.lexeme) (.propertyAt name)
      return .function (← bindMethod method object)

/-- Store a value in a field. -/
def setProperty (object : Instance) (name : Token) (value : Value) : Action Unit :=
  modify fun state =>
    { state with
      fields := state.fields.modify object.reference.index fun bindings =>
        bindings.set name.lexeme value }

/-- A method of the superclass, bound to the object of the running method. -/
def superMethod (names : Names) (reference : Reference) (method : Token) : Action Value := do
  let state ← get
  let keyword := reference.name
  let cell ← orFail (names.cell? "super") (.variableAt keyword)
  match state.cells[cell]? with
  | some (.cls superclass) =>
      match (names.cell? "this").bind fun cell => state.cells[cell]? with
      | some (.object object) =>
          let found ← orFail (superclass.method? method.lexeme) (.propertyAt method)
          return .function (← bindMethod found object)
      | _ => fail (.undefinedVariable "this" keyword.line)
  | _ => fail (.variableAt keyword)

/-- A value as the superclass of a class. -/
def superclassOf (name : Token) (superclass : Expr) (value : Value) : Action Class :=
  match value with
  | .cls found => pure found
  | _ => fail (.type .superclassNotClass (superclass.line?.getD name.line))

/-- The methods of a class, each capturing the same names. -/
def declareMethods (names : Names) :
    List FunctionDecl → Bindings Closure → Action (Bindings Closure)
  | [], methods => return methods
  | declaration :: rest, methods => do
      let name := declaration.name.lexeme
      let method ← function names declaration (name = Class.initializerName)
      declareMethods names rest (methods.set name method)

/-- The names that methods capture. Those of a subclass have `super` among
them. -/
def methodNames (names : Names) : Option Class → Action Names
  | none => pure names
  | some superclass => do
      let cell ← newCell (.cls superclass)
      return names.extend "super" cell

/-- Give a declared name a class whose superclass is known. -/
def defineClass (names : Names) (name : Token) (superclass : Option Class)
    (methods : List FunctionDecl) : Action Unit := do
  define names name.lexeme .nil
  let inner ← methodNames names superclass
  let members ← declareMethods inner methods .empty
  let identity ← capture inner
  define names name.lexeme (.cls (.extend ⟨identity, name.lexeme, members⟩ superclass))

/-! ## Lists and loops -/

/-- Run statements in order, each with the names that those before it declared. -/
def sequence (execute : Names → Stmt → Action (Flow × Names)) :
    Names → List Stmt → Action (Flow × Names)
  | names, [] => return (.normal, names)
  | names, first :: rest => do
      match ← execute names first with
      | (.returned value, names) => return (.returned value, names)
      | (.normal, names) => sequence execute names rest

/-- Whether a loop goes on. Without a condition it always does. -/
def goesOn (evaluate : Expr → Action Value) : Option Expr → Action Bool
  | none => return true
  | some condition => return (← evaluate condition).isTruthy

/-- Evaluate expressions from left to right. -/
def collect (evaluate : Expr → Action Value) : List Expr → Action (List Value)
  | [] => return []
  | first :: rest => do
      let value ← evaluate first
      let values ← collect evaluate rest
      return value :: values

/-! ## Evaluation -/

mutual

/-- Evaluate an expression within a number of steps. -/
def evaluate : Nat → Names → Expr → Action Value
  | 0, _, _ => throw .outOfSteps
  | steps + 1, names, expression =>
      match expression with
      | .literal literal => return literal.value
      | .grouping inner => evaluate steps names inner
      | .unary operator operand => do
          let value ← evaluate steps names operand
          ofOperator operator (value.unary operator.kind)
      | .binary left operator right => do
          let one ← evaluate steps names left
          let other ← evaluate steps names right
          ofOperator operator (one.binary operator.kind other)
      | .logical left operator right => do
          let one ← evaluate steps names left
          if one.decides operator.kind then return one else evaluate steps names right
      | .variable reference => read names reference
      | .assign reference value => do
          let value ← evaluate steps names value
          write names reference value
          return value
      | .call callee paren arguments => do
          let function ← evaluate steps names callee
          let values ← collect (evaluate steps names) arguments
          match function.callable? with
          | none => fail (.typeAt paren .notCallable)
          | some callable =>
              if values.length = callable.arity then invoke steps callable values paren.line
              else fail (.typeAt paren (.argumentCount callable.arity values.length))
      | .get object name => do
          match ← evaluate steps names object with
          | .object found => property found name
          | _ => fail (.typeAt name .noProperties)
      | .set object name value => do
          match ← evaluate steps names object with
          | .object found =>
              let value ← evaluate steps names value
              setProperty found name value
              return value
          | _ => fail (.typeAt name .noFields)
      | .this reference => read names reference
      | .super reference method => superMethod names reference method

/-- Execute a statement within a number of steps. The names afterwards are those
for the statements behind it. -/
def execute : Nat → Names → Stmt → Action (Flow × Names)
  | 0, _, _ => throw .outOfSteps
  | steps + 1, names, statement =>
      match statement with
      | .expression value => do
          let _ ← evaluate steps names value
          return (.normal, names)
      | .print value => do
          print (← evaluate steps names value)
          return (.normal, names)
      | .var name none => do
          let names ← declare names name.lexeme
          define names name.lexeme .nil
          return (.normal, names)
      | .var name (some initializer) => do
          let names ← declare names name.lexeme
          define names name.lexeme (← evaluate steps names initializer)
          return (.normal, names)
      | .block body => do
          let (flow, _) ← sequence (execute steps) names.enter body
          return (flow, names)
      | .conditional condition consequent alternative => do
          if (← evaluate steps names condition).isTruthy then
            let (flow, _) ← execute steps names consequent
            return (flow, names)
          else
            match alternative with
            | some statement =>
                let (flow, _) ← execute steps names statement
                return (flow, names)
            | none => return (.normal, names)
      | .whileLoop condition body => do
          if (← evaluate steps names condition).isTruthy then
            match ← execute steps names body with
            | (.returned value, _) => return (.returned value, names)
            | (.normal, _) => execute steps names (.whileLoop condition body)
          else return (.normal, names)
      | .forLoop (some initializer) condition increment body => do
          let (_, names) ← execute steps names initializer
          execute steps names (.forLoop none condition increment body)
      | .forLoop none condition increment body => do
          if ← goesOn (evaluate steps names) condition then
            match ← execute steps names body with
            | (.returned value, _) => return (.returned value, names)
            | (.normal, _) =>
                match increment with
                | none => execute steps names (.forLoop none condition increment body)
                | some step =>
                    let _ ← evaluate steps names step
                    execute steps names (.forLoop none condition increment body)
          else return (.normal, names)
      | .function declaration => do
          let names ← declare names declaration.name.lexeme
          let closure ← function names declaration false
          define names declaration.name.lexeme (.function closure)
          return (.normal, names)
      | .returning _ none => return (.returned .nil, names)
      | .returning _ (some value) => do
          return (.returned (← evaluate steps names value), names)
      | .classDecl name none methods => do
          let names ← declare names name.lexeme
          defineClass names name none methods
          return (.normal, names)
      | .classDecl name (some superclass) methods => do
          let names ← declare names name.lexeme
          let found ← superclassOf name superclass (← evaluate steps names superclass)
          defineClass names name (some found) methods
          return (.normal, names)

/-- Call something with arguments within a number of steps. -/
def invoke : Nat → Callable → List Value → Nat → Action Value
  | 0, _, _, _ => throw .outOfSteps
  | steps + 1, callable, arguments, line =>
      match callable with
      | .native function => callHost function arguments line
      | .function closure => do
          let names := ((← get).namesOf closure).enter
          let names ← bindParameters (closure.declaration.parameters.zip arguments) names
          let (flow, _) ← sequence (execute steps) names closure.declaration.body
          result closure flow
      | .cls found => do
          let object ← newInstance found
          match found.initializer? with
          | none => return .object object
          | some initializer =>
              let bound ← bindMethod initializer object
              let _ ← invoke steps (.function bound) arguments line
              return .object object

end

/-- Run a program within a number of steps. -/
def interpret (steps : Nat) : List Stmt → Action Unit
  | [] => flush
  | first :: rest => do
      let _ ← execute steps none first
      interpret steps rest

end Lox.Lexical
