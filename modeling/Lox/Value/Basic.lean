import Lox.Bindings
import Lox.Syntax.Basic

/-!
# Values

What expressions evaluate to. Functions, classes and instances have an identity
of their own: two of them are equal only if they are the same one.

A class is kept together with everything it inherits from, so that looking up a
method needs no store. What changes over time, the contents of scopes and the
fields of instances, is kept in a store and only referred to from here.
-/

namespace Lox

/-- A scope in the store. -/
structure ScopeRef where
  index : Nat
  deriving DecidableEq, Repr, Inhabited

/-- The fields of an instance in the store. -/
structure InstanceRef where
  index : Nat
  deriving DecidableEq, Repr, Inhabited

/-- The scopes around a point of a running program, the innermost first. -/
abbrev Environment := List ScopeRef

/-- A function supplied by the host. Its name tells it apart from others. -/
structure Native where
  name : String
  arity : Nat
  deriving DecidableEq, Repr, Inhabited

/-- A declared function with the scopes around its declaration. -/
structure Closure where
  /-- Tells this function apart from all others. -/
  identity : Nat
  declaration : FunctionDecl
  environment : Environment
  /-- Whether calling it yields the instance it is bound to. -/
  isInitializer : Bool
  deriving Inhabited

namespace Closure

/-- The declared name. -/
def name (closure : Closure) : String :=
  closure.declaration.name.lexeme

/-- The number of declared parameters. -/
def arity (closure : Closure) : Nat :=
  closure.declaration.parameters.length

end Closure

/-- A class without what it inherits. -/
structure ClassLayer where
  /-- Tells this class apart from all others. -/
  identity : Nat
  name : String
  methods : Bindings Closure
  deriving Inhabited

/-- A class with the classes it inherits from, the nearest first. -/
structure Class where
  own : ClassLayer
  inherited : List ClassLayer
  deriving Inhabited

namespace Class

/-- The name of a class. -/
def name (cls : Class) : String :=
  cls.own.name

/-- The class and all those it inherits from, the nearest first. -/
def chain (cls : Class) : List ClassLayer :=
  cls.own :: cls.inherited

/-- The class that a class inherits from directly. -/
def superclass? (cls : Class) : Option Class :=
  match cls.inherited with
  | [] => none
  | own :: inherited => some ⟨own, inherited⟩

/-- A class that inherits from another one, or from none. -/
def extend (own : ClassLayer) : Option Class → Class
  | none => ⟨own, []⟩
  | some superclass => ⟨own, superclass.chain⟩

/-- A method of the nearest class that has one of that name. -/
def method? (cls : Class) (name : String) : Option Closure :=
  cls.chain.findSome? fun layer => layer.methods.get? name

/-- The name of the method that runs on every new instance. -/
def initializerName : String := "init"

/-- The method that runs on every new instance. -/
def initializer? (cls : Class) : Option Closure :=
  cls.method? initializerName

/-- A class takes as many arguments as its initializer. -/
def arity (cls : Class) : Nat :=
  match cls.initializer? with
  | some initializer => initializer.arity
  | none => 0

theorem superclass?_extend (own : ClassLayer) (superclass : Option Class) :
    (extend own superclass).superclass? = superclass := by
  cases superclass <;> rfl

/-- Looking up a method tries the class first and then what it inherits. -/
theorem method?_eq (cls : Class) (name : String) :
    cls.method? name =
      (cls.own.methods.get? name).or (cls.superclass?.bind (·.method? name)) := by
  obtain ⟨own, inherited⟩ := cls
  simp only [method?, chain, List.findSome?_cons]
  cases own.methods.get? name with
  | some method => rfl
  | none => cases inherited <;> rfl

end Class

/-- An object with a class and fields. -/
structure Instance where
  reference : InstanceRef
  cls : Class
  deriving Inhabited

/-- What expressions evaluate to. -/
inductive Value where
  | nil
  | bool (value : Bool)
  | number (value : Float)
  | string (value : String)
  | native (host : Native)
  | function (closure : Closure)
  | cls (cls : Class)
  | object (object : Instance)
  deriving Inhabited

/-- What can be called. -/
inductive Callable where
  | native (host : Native)
  | function (closure : Closure)
  | cls (cls : Class)
  deriving Inhabited

namespace Callable

/-- The number of arguments a callable expects. -/
def arity : Callable → Nat
  | .native host => host.arity
  | .function closure => closure.arity
  | .cls found => found.arity

end Callable

/-- The value of a literal. -/
def Literal.value : Literal → Value
  | .nil => .nil
  | .bool flag => .bool flag
  | .number amount => .number amount
  | .string text => .string text

namespace Value

/-- Whether a value counts as true in a condition. Only `nil` and `false` do
not. -/
def isTruthy : Value → Bool
  | .nil => false
  | .bool flag => flag
  | _ => true

/-- Whether two values are equal. Numbers compare as numbers, so a value that is
not a number differs from itself. Objects are equal only if they are the same
one. -/
def equals : Value → Value → Bool
  | .nil, .nil => true
  | .bool one, .bool other => one == other
  | .number one, .number other => one == other
  | .string one, .string other => one == other
  | .native one, .native other => one.name == other.name
  | .function one, .function other => one.identity == other.identity
  | .cls one, .cls other => one.own.identity == other.own.identity
  | .object one, .object other => one.reference == other.reference
  | _, _ => false

/-- A value as something to call, if it can be. -/
def callable? : Value → Option Callable
  | .native host => some (.native host)
  | .function closure => some (.function closure)
  | .cls found => some (.cls found)
  | _ => none

end Value

end Lox
