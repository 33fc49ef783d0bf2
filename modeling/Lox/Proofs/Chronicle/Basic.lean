import Lox.Evaluation.Evaluate

/-!
# Chronicles

An evaluator that goes through a program as `evaluate`, `execute` and `invoke` do and
writes down what happens: every state that the machine comes to, every function, class
and instance that comes into being, every method that is bound to an object, and every
value that is stored in a property. What the machine does is not touched by this.

So the history of a run can be spoken about. What came into being in the past is all
that a value can refer to, and the last value stored in a property is the one that is
read there.
-/

namespace Lox

/-! ## What happens -/

/-- Something that happens in a run. -/
inductive Occurrence where
  /-- The machine is in a state. -/
  | moment (machine : Machine)
  /-- A function is declared. -/
  | function (closure : Closure)
  /-- A class is declared with methods of its own. -/
  | declared (cls : Class) (methods : List FunctionDecl)
  /-- An instance comes into being. -/
  | created (object : Instance)
  /-- A method is bound to an object, which makes a function of its own. -/
  | bound (closure : Closure) (object : Instance)
  /-- A value is stored in a property of an object. -/
  | stored (object : Instance) (name : String) (value : Value)

/-- A machine with everything that has happened before. -/
structure Chronicle where
  machine : Machine
  past : List Occurrence

namespace Chronicle

/-- The next state of the machine. -/
def proceed (chronicle : Chronicle) (machine : Machine) : Chronicle :=
  ⟨machine, chronicle.past ++ [.moment machine]⟩

/-- Something that happens without a change of the machine. -/
def add (chronicle : Chronicle) (occurrence : Occurrence) : Chronicle :=
  { chronicle with past := chronicle.past ++ [occurrence] }

/-- Everything that has happened, up to the present state. -/
def history (chronicle : Chronicle) : List Occurrence :=
  chronicle.past ++ [.moment chronicle.machine]

/-- The present is the last moment. -/
theorem history_eq (chronicle : Chronicle) :
    chronicle.history = chronicle.past ++ .moment chronicle.machine :: [] := rfl

end Chronicle

/-- A step of evaluation that is written down. -/
abbrev Chronicling := EStateM Halt Chronicle

namespace Chronicling

variable {α : Type}

/-! ## Single steps -/

/-- A step of the machine, after which it is in its next state. -/
def lift (step : Run α) : Chronicling α := fun chronicle =>
  match step chronicle.machine with
  | .ok value machine => .ok value (chronicle.proceed machine)
  | .error halt machine => .error halt (chronicle.proceed machine)

/-- Write down that something happens. -/
def note (occurrence : Occurrence) : Chronicling Unit :=
  modify fun chronicle => chronicle.add occurrence

/-- Run a step in another environment, and go back to the one before. -/
def within (environment : Environment) (step : Chronicling α) : Chronicling α := fun chronicle =>
  let leave (after : Chronicle) : Chronicle :=
    after.proceed { after.machine with environment := chronicle.machine.environment }
  match step (chronicle.proceed { chronicle.machine with environment := environment }) with
  | .ok value after => .ok value (leave after)
  | .error halt after => .error halt (leave after)

/-! ## Functions, classes and instances -/

/-- Declare a function. -/
def declare (declaration : FunctionDecl) : Chronicling Closure := do
  let closure ← lift (Closure.declare declaration false)
  note (.function closure)
  return closure

/-- Bind a method to an object. -/
def bind (method : Closure) (object : Instance) : Chronicling Closure := do
  let bound ← lift (method.bind object)
  note (.bound bound object)
  return bound

/-- Make an instance of a class. -/
def create (cls : Class) : Chronicling Instance := do
  let object ← lift (Run.newInstance cls)
  note (.created object)
  return object

/-- The value of a property. -/
def property (object : Instance) (name : Token) : Chronicling Value := do
  match ((← get).machine.store.fieldsOf object.reference).get? name.lexeme with
  | some value => return value
  | none =>
      let method ← lift (Run.orFail (object.cls.method? name.lexeme) (.propertyAt name))
      return .function (← bind method object)

/-- Store a value in a property. -/
def setProperty (object : Instance) (name : Token) (value : Value) : Chronicling Unit := do
  note (.stored object name.lexeme value)
  lift (object.setProperty name value)

/-- A method of the superclass. -/
def superMethod (reference : Reference) (method : Token) : Chronicling Value := do
  let machine := (← get).machine
  let keyword := reference.name
  let distance ← lift (Run.orFail (machine.distances.get? reference.id) (.variableAt keyword))
  match machine.environment.lookupAt? machine.store distance "super" with
  | some (.cls superclass) =>
      let receiver :=
        match distance with
        | 0 => none
        | distance + 1 => machine.environment.lookupAt? machine.store distance "this"
      match receiver with
      | some (.object object) =>
          let found ← lift (Run.orFail (superclass.method? method.lexeme) (.propertyAt method))
          return .function (← bind found object)
      | _ => lift (Run.fail (.undefinedVariable "this" keyword.line))
  | _ => lift (Run.fail (.variableAt keyword))

/-- Declare a class whose superclass is known. -/
def declareClass (name : Token) (superclass : Option Class) (methods : List FunctionDecl) :
    Chronicling Unit := do
  lift (Run.define name.lexeme .nil)
  let inner ← lift (methodEnvironment (← get).machine.environment superclass)
  let members ← lift (Run.within inner (declareMethods methods .empty))
  let identity ← lift Run.newIdentity
  let cls := Class.extend ⟨identity, name.lexeme, members⟩ superclass
  note (.declared cls methods)
  lift (Run.define name.lexeme (.cls cls))

/-! ## Lists -/

/-- Run statements in order, up to the first that leaves the function. -/
def sequence (execute : Stmt → Chronicling Flow) : List Stmt → Chronicling Flow
  | [] => return .normal
  | first :: rest => do
      match ← execute first with
      | .returned value => return .returned value
      | .normal => sequence execute rest

/-- Whether a loop goes on. -/
def goesOn (evaluate : Expr → Chronicling Value) : Option Expr → Chronicling Bool
  | none => return true
  | some condition => return (← evaluate condition).isTruthy

/-- Evaluate expressions from left to right. -/
def collect (evaluate : Expr → Chronicling Value) : List Expr → Chronicling (List Value)
  | [] => return []
  | first :: rest => do
      let value ← evaluate first
      let values ← collect evaluate rest
      return value :: values

/-! ## Evaluation -/

mutual

/-- Evaluate an expression. -/
def evaluate : Nat → Expr → Chronicling Value
  | 0, _ => throw .outOfSteps
  | steps + 1, expression =>
      match expression with
      | .literal literal => return literal.value
      | .grouping inner => evaluate steps inner
      | .unary operator operand => do
          let value ← evaluate steps operand
          lift (Run.ofOperator operator (value.unary operator.kind))
      | .binary left operator right => do
          let one ← evaluate steps left
          let other ← evaluate steps right
          lift (Run.ofOperator operator (one.binary operator.kind other))
      | .logical left operator right => do
          let one ← evaluate steps left
          if one.decides operator.kind then return one else evaluate steps right
      | .variable reference => lift (Run.read reference)
      | .assign reference value => do
          let value ← evaluate steps value
          lift (Run.write reference value)
          return value
      | .call callee paren arguments => do
          let function ← evaluate steps callee
          let values ← collect (evaluate steps) arguments
          match function.callable? with
          | none => lift (Run.fail (.typeAt paren .notCallable))
          | some callable =>
              if values.length = callable.arity then invoke steps callable values paren.line
              else lift (Run.fail (.typeAt paren (.argumentCount callable.arity values.length)))
      | .get object name => do
          match ← evaluate steps object with
          | .object found => property found name
          | _ => lift (Run.fail (.typeAt name .noProperties))
      | .set object name value => do
          match ← evaluate steps object with
          | .object found =>
              let value ← evaluate steps value
              setProperty found name value
              return value
          | _ => lift (Run.fail (.typeAt name .noFields))
      | .this reference => lift (Run.read reference)
      | .super reference method => superMethod reference method

/-- Execute a statement. -/
def execute : Nat → Stmt → Chronicling Flow
  | 0, _ => throw .outOfSteps
  | steps + 1, statement =>
      match statement with
      | .expression value => do
          let _ ← evaluate steps value
          return .normal
      | .print value => do
          let result ← evaluate steps value
          lift (Run.print result)
          return .normal
      | .var name none => do
          lift (Run.define name.lexeme .nil)
          return .normal
      | .var name (some initializer) => do
          let value ← evaluate steps initializer
          lift (Run.define name.lexeme value)
          return .normal
      | .block body => do
          let inner ← lift (Run.newScope (← get).machine.environment .empty)
          within inner (sequence (execute steps) body)
      | .conditional condition consequent alternative => do
          if (← evaluate steps condition).isTruthy then execute steps consequent
          else
            match alternative with
            | some statement => execute steps statement
            | none => return .normal
      | .whileLoop condition body => do
          if (← evaluate steps condition).isTruthy then
            match ← execute steps body with
            | .returned value => return .returned value
            | .normal => execute steps (.whileLoop condition body)
          else return .normal
      | .forLoop (some initializer) condition increment body => do
          let _ ← execute steps initializer
          execute steps (.forLoop none condition increment body)
      | .forLoop none condition increment body => do
          if ← goesOn (evaluate steps) condition then
            match ← execute steps body with
            | .returned value => return .returned value
            | .normal =>
                match increment with
                | none => execute steps (.forLoop none condition increment body)
                | some step =>
                    let _ ← evaluate steps step
                    execute steps (.forLoop none condition increment body)
          else return .normal
      | .function declaration => do
          let closure ← declare declaration
          lift (Run.define declaration.name.lexeme (.function closure))
          return .normal
      | .returning _ none => return .returned .nil
      | .returning _ (some value) => do
          return .returned (← evaluate steps value)
      | .classDecl name none methods => do
          declareClass name none methods
          return .normal
      | .classDecl name (some superclass) methods => do
          let value ← evaluate steps superclass
          let found ← lift (superclassOf name superclass value)
          declareClass name (some found) methods
          return .normal

/-- Call something with arguments. -/
def invoke : Nat → Callable → List Value → Nat → Chronicling Value
  | 0, _, _, _ => throw .outOfSteps
  | steps + 1, callable, arguments, line =>
      match callable with
      | .native function => lift (Run.callHost function arguments line)
      | .function closure => do
          let inner ← lift
            (Run.newScope closure.environment (closure.parameterBindings arguments))
          let flow ← within inner (sequence (execute steps) closure.declaration.body)
          lift (closure.result flow)
      | .cls found => do
          let object ← create found
          match found.initializer? with
          | none => return .object object
          | some initializer =>
              let bound ← bind initializer object
              let _ ← invoke steps (.function bound) arguments line
              return .object object

end

/-- Run a program. -/
def interpret (steps : Nat) : List Stmt → Chronicling Unit
  | [] => lift Run.flush
  | first :: rest => do
      let _ ← execute steps first
      interpret steps rest

end Chronicling

/-! ## Looking back -/

/-- Of several methods with one name the last. -/
def FunctionDecl.lastNamed? (methods : List FunctionDecl) (name : String) : Option FunctionDecl :=
  methods.reverse.find? fun method => method.name.lexeme = name

theorem FunctionDecl.name_of_lastNamed? {methods : List FunctionDecl} {name : String}
    {declaration : FunctionDecl} (last : lastNamed? methods name = some declaration) :
    declaration.name.lexeme = name := by
  have named := List.find?_some last
  exact of_decide_eq_true named

/-- A function, class or instance that has come into being in the past, or a value of
another kind. -/
def Value.Arisen (past : List Occurrence) : Value → Prop
  | .function closure => .function closure ∈ past ∨ ∃ object, .bound closure object ∈ past
  | .cls found => ∃ methods, .declared found methods ∈ past
  | .object found => .created found ∈ past
  | .nil | .bool _ | .number _ | .string _ | .native _ => True

namespace Occurrence

/-- The value that an occurrence stores in a given property. -/
def storedIn? (reference : InstanceRef) (name : String) : Occurrence → Option Value
  | .stored object other value =>
      if object.reference = reference ∧ other = name then some value else none
  | _ => none

/-- The value stored last in a property. -/
def lastStored (past : List Occurrence) (reference : InstanceRef) (name : String) : Option Value :=
  past.reverse.findSome? (storedIn? reference name)

theorem lastStored_append (past later : List Occurrence) (reference : InstanceRef)
    (name : String) :
    lastStored (past ++ later) reference name =
      (lastStored later reference name).or (lastStored past reference name) := by
  unfold lastStored
  rw [List.reverse_append, List.findSome?_append]

theorem lastStored_concat (past : List Occurrence) (occurrence : Occurrence)
    (reference : InstanceRef) (name : String) :
    lastStored (past ++ [occurrence]) reference name =
      (occurrence.storedIn? reference name).or (lastStored past reference name) := by
  rw [lastStored_append]
  congr 1
  exact List.findSome?_singleton

end Occurrence

end Lox
