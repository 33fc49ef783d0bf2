import Lox.Syntax.Basic

/-!
# Where names and declarations stand

What the grammar grants about a tree beyond its shape. Declarations stand in
lists of statements only, never alone under a condition or in a loop. A
superclass is a name. The names `this` and `super` are never declared, so they
always mean what a class binds them to.
-/

namespace Lox

/-- A name that is not bound by classes alone. -/
def IsOrdinaryName (name : String) : Prop :=
  name ≠ "this" ∧ name ≠ "super"

/-- A name that a program can declare. -/
def Token.IsOrdinary (name : Token) : Prop :=
  IsOrdinaryName name.lexeme

/-- Whether a statement declares a name, apart from a loop with a variable of its
own. -/
def Stmt.isDeclaration : Stmt → Bool
  | .var _ _ | .function _ | .classDecl _ _ _ => true
  | _ => false

mutual

/-- The names in an expression stand where they may. -/
def Expr.Placed : Expr → Prop
  | .literal _ | .variable _ => True
  | .grouping inner => inner.Placed
  | .unary _ operand => operand.Placed
  | .binary left _ right => left.Placed ∧ right.Placed
  | .logical left _ right => left.Placed ∧ right.Placed
  | .assign reference value => reference.name.IsOrdinary ∧ value.Placed
  | .call callee _ arguments => callee.Placed ∧ Expr.ListPlaced arguments
  | .get object _ => object.Placed
  | .set object _ value => object.Placed ∧ value.Placed
  | .this reference => reference.name.lexeme = "this"
  | .super reference _ => reference.name.lexeme = "super"

/-- The names in several expressions stand where they may. -/
def Expr.ListPlaced : List Expr → Prop
  | [] => True
  | first :: rest => first.Placed ∧ Expr.ListPlaced rest

end

attribute [simp] Expr.Placed Expr.ListPlaced

/-- The names in an expression that may be absent stand where they may. -/
def Expr.OptionPlaced : Option Expr → Prop
  | none => True
  | some value => value.Placed

/-- A superclass, where there is one, is a name. -/
def Expr.IsSuperclass : Option Expr → Prop
  | none => True
  | some value => ∃ reference, value = .variable reference

mutual

/-- The names and declarations in a statement stand where they may. -/
def Stmt.Placed : Stmt → Prop
  | .expression value => value.Placed
  | .print value => value.Placed
  | .var name initializer => name.IsOrdinary ∧ Expr.OptionPlaced initializer
  | .block body => Stmt.ListPlaced body
  | .conditional condition consequent alternative =>
      condition.Placed ∧ (consequent.isDeclaration = false ∧ consequent.Placed) ∧
        Stmt.OptionPlaced alternative
  | .whileLoop condition body =>
      condition.Placed ∧ body.isDeclaration = false ∧ body.Placed
  | .forLoop initializer condition increment body =>
      Stmt.ClausePlaced initializer ∧ Expr.OptionPlaced condition ∧
        Expr.OptionPlaced increment ∧ body.isDeclaration = false ∧ body.Placed
  | .function declaration => declaration.Placed
  | .returning _ value => Expr.OptionPlaced value
  | .classDecl name superclass methods =>
      name.IsOrdinary ∧ Expr.IsSuperclass superclass ∧ FunctionDecl.ListPlaced methods

/-- The names and declarations in several statements stand where they may. -/
def Stmt.ListPlaced : List Stmt → Prop
  | [] => True
  | first :: rest => first.Placed ∧ Stmt.ListPlaced rest

/-- An alternative, where there is one, declares nothing. -/
def Stmt.OptionPlaced : Option Stmt → Prop
  | none => True
  | some statement => statement.isDeclaration = false ∧ statement.Placed

/-- The first clause of a loop, where there is one, is a variable or an
expression. -/
def Stmt.ClausePlaced : Option Stmt → Prop
  | none => True
  | some statement =>
      ((∃ name initializer, statement = .var name initializer) ∨
        ∃ value, statement = .expression value) ∧ statement.Placed

/-- The names and declarations in a function stand where they may. -/
def FunctionDecl.Placed : FunctionDecl → Prop
  | ⟨name, parameters, body⟩ =>
      name.IsOrdinary ∧ (∀ parameter ∈ parameters, parameter.IsOrdinary) ∧ Stmt.ListPlaced body

/-- The names and declarations in several functions stand where they may. -/
def FunctionDecl.ListPlaced : List FunctionDecl → Prop
  | [] => True
  | first :: rest => first.Placed ∧ FunctionDecl.ListPlaced rest

end

attribute [simp] Stmt.Placed Stmt.ListPlaced Stmt.OptionPlaced Stmt.ClausePlaced
  FunctionDecl.Placed FunctionDecl.ListPlaced

theorem Expr.listPlaced_iff {values : List Expr} :
    Expr.ListPlaced values ↔ ∀ value ∈ values, value.Placed := by
  induction values with
  | nil => simp
  | cons first rest ih => simp [ih]

theorem Stmt.listPlaced_iff {statements : List Stmt} :
    Stmt.ListPlaced statements ↔ ∀ statement ∈ statements, statement.Placed := by
  induction statements with
  | nil => simp
  | cons first rest ih => simp [ih]

theorem FunctionDecl.listPlaced_iff {declarations : List FunctionDecl} :
    FunctionDecl.ListPlaced declarations ↔ ∀ declaration ∈ declarations, declaration.Placed := by
  induction declarations with
  | nil => simp
  | cons first rest ih => simp [ih]

end Lox
