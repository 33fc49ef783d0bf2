import Lox.Binding.Distance
import Lox.Bindings
import Lox.Diagnostic
import Lox.Syntax.Basic

/-!
# Static binding

Before a program runs, every use of a name is bound to a declaration: the
nearest scope outward that declares the name, as a distance in scopes. Names
declared in no scope are left to the globals. On the way the rules about where
a name may be declared and where `return`, `this` and `super` may stand are
checked. A fault does not end the analysis.

Scopes open exactly where running the program opens one: at blocks, at function
bodies together with their parameters, at classes for `this`, and around
subclasses for `super`.
-/

namespace Lox

/-- How far a declaration in a scope has got. -/
inductive Readiness where
  /-- Declared, with the initial value still being read. -/
  | pending
  | ready
  deriving DecidableEq, Repr, Inhabited

/-- The body that encloses a statement, as far as `return` is concerned. -/
inductive Body where
  | program
  | function
  | method
  | initializer
  deriving DecidableEq, Repr, Inhabited

/-- The class that encloses an expression, as far as `this` and `super` are
concerned. -/
inductive Enclosure where
  | none
  | baseClass
  | subclass
  deriving DecidableEq, Repr, Inhabited

/-- What is known at a point of a program, and what has been found up to it. -/
structure Analysis where
  /-- The scopes around the point, the innermost first. The globals are not
  among them. -/
  scopes : List (Bindings Readiness)
  body : Body
  enclosure : Enclosure
  /-- The faults found so far, in the order of the program. -/
  faults : List Diagnostic
  /-- The distances noted so far. -/
  distances : Distances
  deriving Inhabited

namespace Analysis

/-- The start of a program, with the distances noted for earlier ones. -/
def start (distances : Distances) : Analysis :=
  ⟨[], .program, .none, [], distances⟩

/-- The name of the method that runs on every new instance. -/
def initializerName : String := "init"

/-- The body of a method with the given name. -/
def methodBody (name : String) : Body :=
  if name = initializerName then .initializer else .method

/-- Report a fault at a token. -/
def report (token : Token) (fault : BindingFault) (analysis : Analysis) : Analysis :=
  { analysis with faults := analysis.faults ++ [.binding token fault] }

/-- Open a scope with no names in it. -/
def openScope (analysis : Analysis) : Analysis :=
  { analysis with scopes := .empty :: analysis.scopes }

/-- Close the innermost scope. -/
def closeScope (analysis : Analysis) : Analysis :=
  { analysis with scopes := analysis.scopes.tail }

/-- Go on inside another body. -/
def withBody (body : Body) (analysis : Analysis) : Analysis :=
  { analysis with body := body }

/-- Go on inside another class. -/
def withEnclosure (enclosure : Enclosure) (analysis : Analysis) : Analysis :=
  { analysis with enclosure := enclosure }

/-- Put a name into the innermost scope as ready for use. Outside of all scopes
the name is a global, and globals are not tracked. -/
def define (name : String) (analysis : Analysis) : Analysis :=
  match analysis.scopes with
  | [] => analysis
  | scope :: outer => { analysis with scopes := scope.set name .ready :: outer }

/-- Put a name into the innermost scope as not yet ready. A name that is already
there stays as it is and is a fault. -/
def declare (name : Token) (analysis : Analysis) : Analysis :=
  match analysis.scopes with
  | [] => analysis
  | scope :: outer =>
      if scope.contains name.lexeme then analysis.report name .alreadyDeclared
      else { analysis with scopes := scope.set name.lexeme .pending :: outer }

/-- Declare a name and make it ready at once. -/
def introduce (name : Token) (analysis : Analysis) : Analysis :=
  (analysis.declare name).define name.lexeme

/-- Bind a use of a name to the nearest scope that has it. Where none has it the
use is left to the globals. -/
def bind (reference : Reference) (analysis : Analysis) : Analysis :=
  match analysis.scopes.findIdx? (·.contains reference.name.lexeme) with
  | some distance =>
      { analysis with distances := analysis.distances.note reference.id distance }
  | none => analysis

/-- Whether a name is being given its initial value in the innermost scope. -/
def isPending (name : String) (analysis : Analysis) : Bool :=
  match analysis.scopes with
  | [] => false
  | scope :: _ => scope.get? name = some .pending

/-- Bind a variable, which must not be read while its own initial value is being
computed. -/
def bindVariable (reference : Reference) (analysis : Analysis) : Analysis :=
  if analysis.isPending reference.name.lexeme then
    analysis.report reference.name .readInOwnInitializer
  else analysis.bind reference

/-- Bind `this`, which needs a class around it. -/
def bindThis (reference : Reference) (analysis : Analysis) : Analysis :=
  match analysis.enclosure with
  | .none => analysis.report reference.name .thisOutsideClass
  | _ => analysis.bind reference

/-- Bind `super`, which needs a subclass around it. -/
def bindSuper (reference : Reference) (analysis : Analysis) : Analysis :=
  match analysis.enclosure with
  | .none => analysis.report reference.name .superOutsideClass
  | .baseClass => analysis.report reference.name .superWithoutSuperclass
  | .subclass => analysis.bind reference

/-- Check that a `return` may stand here. -/
def checkReturn (keyword : Token) (hasValue : Bool) (analysis : Analysis) : Analysis :=
  match analysis.body with
  | .program => analysis.report keyword .returnAtTopLevel
  | .initializer =>
      if hasValue then analysis.report keyword .valueFromInitializer else analysis
  | _ => analysis

/-- Check that a class does not name itself as its superclass. -/
def checkSuperclass (name : Token) (superclass : Expr) (analysis : Analysis) : Analysis :=
  match superclass with
  | .variable reference =>
      if reference.name.lexeme = name.lexeme then
        analysis.report reference.name .inheritsFromItself
      else analysis
  | _ => analysis

mutual

/-- Analyse an expression. Values come before the targets they are stored
in. -/
def expr : Expr → Analysis → Analysis
  | .literal _, analysis => analysis
  | .grouping inner, analysis => expr inner analysis
  | .unary _ operand, analysis => expr operand analysis
  | .binary left _ right, analysis => expr right (expr left analysis)
  | .logical left _ right, analysis => expr right (expr left analysis)
  | .variable reference, analysis => analysis.bindVariable reference
  | .assign reference value, analysis => (expr value analysis).bind reference
  | .call callee _ arguments, analysis => exprs arguments (expr callee analysis)
  | .get object _, analysis => expr object analysis
  | .set object _ value, analysis => expr object (expr value analysis)
  | .this reference, analysis => analysis.bindThis reference
  | .super reference _, analysis => analysis.bindSuper reference

/-- Analyse expressions in order. -/
def exprs : List Expr → Analysis → Analysis
  | [], analysis => analysis
  | first :: rest, analysis => exprs rest (expr first analysis)

end

/-- Analyse an expression where there is one. -/
def optionalExpr : Option Expr → Analysis → Analysis
  | none, analysis => analysis
  | some value, analysis => expr value analysis

/-- The part of a class in front of its methods: its name, its superclass, and
the scopes that hold `super` and `this`. -/
def enterClass (name : Token) (superclass : Option Expr) (analysis : Analysis) : Analysis :=
  let declared := (analysis.withEnclosure .baseClass).introduce name
  let inherited :=
    match superclass with
    | none => declared
    | some superclass =>
        let checked := (declared.checkSuperclass name superclass).withEnclosure .subclass
        ((expr superclass checked).openScope).define "super"
  inherited.openScope.define "this"

/-- Close the scopes that a class opened and return to the class around it. -/
def leaveClass (superclass : Option Expr) (enclosure : Enclosure) (analysis : Analysis) :
    Analysis :=
  let left := analysis.closeScope
  (match superclass with
    | none => left
    | some _ => left.closeScope).withEnclosure enclosure

mutual

/-- Analyse a statement. -/
def stmt : Stmt → Analysis → Analysis
  | .expression value, analysis => expr value analysis
  | .print value, analysis => expr value analysis
  | .var name initializer, analysis =>
      (optionalExpr initializer (analysis.declare name)).define name.lexeme
  | .block body, analysis => (stmts body analysis.openScope).closeScope
  | .conditional condition consequent alternative, analysis =>
      optionalStmt alternative (stmt consequent (expr condition analysis))
  | .whileLoop condition body, analysis => stmt body (expr condition analysis)
  | .forLoop initializer condition increment body, analysis =>
      stmt body (optionalExpr increment (optionalExpr condition
        (optionalStmt initializer analysis)))
  | .function declaration, analysis =>
      functionBody declaration .function (analysis.introduce declaration.name)
  | .returning keyword value, analysis =>
      optionalExpr value (analysis.checkReturn keyword value.isSome)
  | .classDecl name superclass methods, analysis =>
      (methodBodies methods (analysis.enterClass name superclass)).leaveClass superclass
        analysis.enclosure

/-- Analyse statements in order. -/
def stmts : List Stmt → Analysis → Analysis
  | [], analysis => analysis
  | first :: rest, analysis => stmts rest (stmt first analysis)

/-- Analyse a statement where there is one. -/
def optionalStmt : Option Stmt → Analysis → Analysis
  | none, analysis => analysis
  | some statement, analysis => stmt statement analysis

/-- Analyse a function body in one scope with its parameters. -/
def functionBody : FunctionDecl → Body → Analysis → Analysis
  | ⟨_, parameters, statements⟩, body, analysis =>
      let entered := parameters.foldl (fun analysis name => analysis.introduce name)
        (analysis.withBody body).openScope
      ((stmts statements entered).closeScope).withBody analysis.body

/-- Analyse the methods of a class in order. -/
def methodBodies : List FunctionDecl → Analysis → Analysis
  | [], analysis => analysis
  | first :: rest, analysis =>
      methodBodies rest (functionBody first (methodBody first.name.lexeme) analysis)

end

end Analysis

/-- Bind every use of a name in a program. The distances are those given with
the new ones added, also where there are faults. -/
def bindProgram (program : List Stmt) (distances : Distances) :
    List Diagnostic × Distances :=
  let analysis := Analysis.stmts program (.start distances)
  (analysis.faults, analysis.distances)

end Lox
