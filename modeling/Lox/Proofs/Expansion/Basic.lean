import Lox.Proofs.Binding.Visits

/-!
# Expanded loops

A `for` loop that stands in a list of statements is expanded: its first clause stands
there in its place, with a `while` loop behind it that has the body and the increment in
a block. That block is a scope which the program does not have otherwise, so that names
from outside are farther away in it. How many such scopes there are around a point is
kept with the relation between the program and the expanded one.
-/

namespace Lox

/-! ## Scopes in between -/

/-- For each scope around a point, the innermost first and that of the globals last, how
many scopes the expanded program has directly inside of it that hold nothing. -/
abbrev Padding := List Nat

namespace Padding

/-- Behind the opening of another such scope. -/
def deepen : Padding → Padding
  | [] => [1]
  | first :: outer => (first + 1) :: outer

/-- The distance in the expanded program of the scope at a distance. -/
def shift : Padding → Nat → Nat
  | [], distance => distance
  | first :: _, 0 => first
  | first :: outer, distance + 1 => shift outer distance + 1 + first

/-- The scopes around the bodies of methods: one for `this`, and one for `super` if the
class inherits. -/
def inside {α : Type} (superclass : Option α) (padding : Padding) : Padding :=
  match superclass with
  | none => 0 :: padding
  | some _ => 0 :: 0 :: padding

@[simp] theorem shift_zero (padding : Padding) : shift (0 :: padding) 0 = 0 := rfl

@[simp] theorem shift_succ (padding : Padding) (distance : Nat) :
    shift (0 :: padding) (distance + 1) = padding.shift distance + 1 := rfl

@[simp] theorem shift_deepen (padding : Padding) (distance : Nat) :
    padding.deepen.shift distance = padding.shift distance + 1 := by
  cases padding with
  | nil => cases distance <;> rfl
  | cons first outer => cases distance <;> rfl

/-- Where there are no scopes in between, distances are the same. -/
theorem shift_replicate (depth distance : Nat) :
    shift (List.replicate depth 0) distance = distance := by
  induction depth generalizing distance with
  | zero => rfl
  | succ depth ih =>
      cases distance with
      | zero => rfl
      | succ distance => rw [List.replicate_succ, shift_succ, ih]

end Padding

/-! ## Trees -/

/-- A `while` loop with the parts of a `for` loop. Without a condition it goes on for
ever. -/
def Stmt.whileOf (condition increment : Option Expr) (body : Stmt) : Stmt :=
  .whileLoop (condition.getD (.literal (.bool true)))
    (.block (body :: (increment.map Stmt.expression).toList))

/-- What is asked of the parts of a program: of expressions and of declarations, in front
of the scopes around them, and of the first clauses that are moved out of their loops. -/
structure Padding.Rule where
  expression : Padding → Expr → Prop
  declaration : Padding → Prop
  clause : Stmt → Prop

/-- Nothing is asked. -/
def Padding.anywhere : Padding.Rule :=
  ⟨fun _ _ => True, fun _ => True, fun _ => True⟩

mutual

/-- Loops are expanded in a statement. Expressions stay as they are. -/
inductive Stmt.Expands (rule : Padding.Rule) : Padding → Stmt → Stmt → Prop where
  | expression {padding : Padding} {value : Expr} (asked : rule.expression padding value) :
      Stmt.Expands rule padding (.expression value) (.expression value)
  | print {padding : Padding} {value : Expr} (asked : rule.expression padding value) :
      Stmt.Expands rule padding (.print value) (.print value)
  | var {padding : Padding} {name : Token} {initializer : Option Expr}
      (level : rule.declaration padding)
      (asked : ∀ value ∈ initializer, rule.expression padding value) :
      Stmt.Expands rule padding (.var name initializer) (.var name initializer)
  | block {padding : Padding} {body body' : List Stmt}
      (parts : Stmt.ListExpands rule (0 :: padding) body body') :
      Stmt.Expands rule padding (.block body) (.block body')
  | conditional {padding : Padding} {condition : Expr} {consequent consequent' : Stmt}
      {alternative alternative' : Option Stmt} (asked : rule.expression padding condition)
      (second : Stmt.Expands rule padding consequent consequent')
      (third : Stmt.OptionExpands rule padding alternative alternative') :
      Stmt.Expands rule padding (.conditional condition consequent alternative)
        (.conditional condition consequent' alternative')
  | whileLoop {padding : Padding} {condition : Expr} {body body' : Stmt}
      (asked : rule.expression padding condition) (second : Stmt.Expands rule padding body body') :
      Stmt.Expands rule padding (.whileLoop condition body) (.whileLoop condition body')
  | forLoop {padding : Padding} {initializer initializer' : Option Stmt}
      {condition increment : Option Expr} {body body' : Stmt}
      (first : Stmt.OptionExpands rule padding initializer initializer')
      (asked : ∀ value ∈ condition, rule.expression padding value)
      (askedThen : ∀ value ∈ increment, rule.expression padding value)
      (fourth : Stmt.Expands rule padding body body') :
      Stmt.Expands rule padding (.forLoop initializer condition increment body)
        (.forLoop initializer' condition increment body')
  | function {padding : Padding} {declaration declaration' : FunctionDecl}
      (level : rule.declaration padding)
      (parts : FunctionDecl.Expands rule padding declaration declaration') :
      Stmt.Expands rule padding (.function declaration) (.function declaration')
  | returning {padding : Padding} {keyword : Token} {value : Option Expr}
      (asked : ∀ returned ∈ value, rule.expression padding returned) :
      Stmt.Expands rule padding (.returning keyword value) (.returning keyword value)
  | classDecl {padding : Padding} {name : Token} {superclass : Option Expr}
      {methods methods' : List FunctionDecl} (level : rule.declaration padding)
      (asked : ∀ value ∈ superclass, rule.expression padding value)
      (parts : FunctionDecl.ListExpands rule (padding.inside superclass) methods methods') :
      Stmt.Expands rule padding (.classDecl name superclass methods)
        (.classDecl name superclass methods')

/-- Loops are expanded in statements, or stand among them and are expanded themselves. A
loop is only expanded if no variable is declared by a loop in its body outside of all
blocks. -/
inductive Stmt.ListExpands (rule : Padding.Rule) :
    Padding → List Stmt → List Stmt → Prop where
  | nil {padding : Padding} : Stmt.ListExpands rule padding [] []
  | cons {padding : Padding} {first first' : Stmt} {rest rest' : List Stmt}
      (head : Stmt.Expands rule padding first first')
      (tail : Stmt.ListExpands rule padding rest rest') :
      Stmt.ListExpands rule padding (first :: rest) (first' :: rest')
  | loop {padding : Padding} {initializer : Option Stmt} {condition increment : Option Expr}
      {body body' : Stmt} {rest rest' : List Stmt}
      (moved : ∀ clause ∈ initializer, rule.clause clause)
      (first : ∀ clause ∈ initializer, Stmt.Expands rule padding clause clause)
      (asked : ∀ value ∈ condition, rule.expression padding value)
      (askedThen : ∀ value ∈ increment, rule.expression padding.deepen value)
      (bare : body.hasBareVariable = false)
      (fourth : Stmt.Expands rule padding.deepen body body')
      (tail : Stmt.ListExpands rule padding rest rest') :
      Stmt.ListExpands rule padding (.forLoop initializer condition increment body :: rest)
        (initializer.toList ++ Stmt.whileOf condition increment body' :: rest')

/-- Loops are expanded in a statement, if there is one. -/
inductive Stmt.OptionExpands (rule : Padding.Rule) :
    Padding → Option Stmt → Option Stmt → Prop where
  | none {padding : Padding} : Stmt.OptionExpands rule padding none none
  | some {padding : Padding} {statement statement' : Stmt}
      (parts : Stmt.Expands rule padding statement statement') :
      Stmt.OptionExpands rule padding (some statement) (some statement')

/-- Loops are expanded in the body of a function. -/
inductive FunctionDecl.Expands (rule : Padding.Rule) :
    Padding → FunctionDecl → FunctionDecl → Prop where
  | intro {padding : Padding} {name : Token} {parameters : List Token} {body body' : List Stmt}
      (parts : Stmt.ListExpands rule (0 :: padding) body body') :
      FunctionDecl.Expands rule padding ⟨name, parameters, body⟩ ⟨name, parameters, body'⟩

/-- Loops are expanded in the bodies of functions. -/
inductive FunctionDecl.ListExpands (rule : Padding.Rule) :
    Padding → List FunctionDecl → List FunctionDecl → Prop where
  | nil {padding : Padding} : FunctionDecl.ListExpands rule padding [] []
  | cons {padding : Padding} {first first' : FunctionDecl} {rest rest' : List FunctionDecl}
      (head : FunctionDecl.Expands rule padding first first')
      (tail : FunctionDecl.ListExpands rule padding rest rest') :
      FunctionDecl.ListExpands rule padding (first :: rest) (first' :: rest')

end

variable {rule : Padding.Rule} {padding : Padding}

/-! ## What stays the same -/

theorem FunctionDecl.Expands.name {declaration declaration' : FunctionDecl}
    (expands : declaration.Expands rule padding declaration') :
    declaration'.name = declaration.name := by
  cases expands
  rfl

theorem FunctionDecl.Expands.parameters {declaration declaration' : FunctionDecl}
    (expands : declaration.Expands rule padding declaration') :
    declaration'.parameters = declaration.parameters := by
  cases expands
  rfl

theorem Stmt.Expands.isDeclaration {statement statement' : Stmt}
    (expands : statement.Expands rule padding statement') :
    statement'.isDeclaration = statement.isDeclaration := by
  cases expands <;> rfl

mutual

/-- Loops may be expanded in statements, but what the statements declare is the same. -/
theorem Stmt.Expands.declares {padding : Padding} {statement statement' : Stmt} :
    statement.Expands rule padding statement' → statement'.declares = statement.declares
  | .expression _ => rfl
  | .print _ => rfl
  | .var _ _ => rfl
  | .block _ => rfl
  | .conditional _ second third => by
      rw [Stmt.declares, Stmt.declares, second.declares, third.declares]
  | .whileLoop _ second => by
      rw [Stmt.declares, Stmt.declares, second.declares]
  | .forLoop first _ _ fourth => by
      rw [Stmt.declares, Stmt.declares, first.declares, fourth.declares]
  | .function _ parts => by
      rw [Stmt.declares, Stmt.declares, parts.name]
  | .returning _ => rfl
  | .classDecl _ _ _ => rfl

theorem Stmt.OptionExpands.declares {padding : Padding} {statement statement' : Option Stmt} :
    Stmt.OptionExpands rule padding statement statement' →
      Stmt.optionDeclares statement' = Stmt.optionDeclares statement
  | .none => rfl
  | .some parts => parts.declares

end

theorem Stmt.listPlaced_append {front back : List Stmt} :
    Stmt.ListPlaced (front ++ back) ↔ Stmt.ListPlaced front ∧ Stmt.ListPlaced back := by
  simp [Stmt.listPlaced_iff, or_imp, forall_and]

theorem Stmt.listPlaced_clause {clause : Option Stmt} (placed : Stmt.ClausePlaced clause) :
    Stmt.ListPlaced clause.toList := by
  cases clause with
  | none => trivial
  | some statement => exact ⟨placed.2, trivial⟩

theorem Stmt.placed_whileOf {condition increment : Option Expr} {body : Stmt}
    (asked : Expr.OptionPlaced condition) (askedThen : Expr.OptionPlaced increment)
    (within : body.Placed) : (Stmt.whileOf condition increment body).Placed := by
  refine ⟨?_, rfl, within, ?_⟩
  · cases condition with
    | none => trivial
    | some value => exact asked
  · cases increment with
    | none => trivial
    | some value => exact ⟨askedThen, trivial⟩

mutual

/-- Where names and declarations may stand, they may stand in the expanded program. -/
theorem Stmt.Expands.placed {padding : Padding} {statement statement' : Stmt} :
    statement.Expands rule padding statement' → statement.Placed → statement'.Placed
  | .expression _, placed => placed
  | .print _, placed => placed
  | .var _ _, placed => placed
  | .block parts, placed => parts.placed placed
  | .conditional _ second third, placed =>
      ⟨placed.1, ⟨second.isDeclaration.trans placed.2.1.1, second.placed placed.2.1.2⟩,
        third.placed placed.2.2⟩
  | .whileLoop _ second, placed =>
      ⟨placed.1, second.isDeclaration.trans placed.2.1, second.placed placed.2.2⟩
  | .forLoop first _ _ fourth, placed =>
      ⟨first.clausePlaced placed.1, placed.2.1, placed.2.2.1,
        fourth.isDeclaration.trans placed.2.2.2.1, fourth.placed placed.2.2.2.2⟩
  | .function _ parts, placed => parts.placed placed
  | .returning _, placed => placed
  | .classDecl _ _ parts, placed => ⟨placed.1, placed.2.1, parts.placed placed.2.2⟩

theorem Stmt.ListExpands.placed {padding : Padding} {body body' : List Stmt} :
    Stmt.ListExpands rule padding body body' → Stmt.ListPlaced body → Stmt.ListPlaced body'
  | .nil, _ => trivial
  | .cons head tail, placed => ⟨head.placed placed.1, tail.placed placed.2⟩
  | .loop _ _ _ _ _ fourth tail, ⟨⟨clause, condition, increment, _, within⟩, rest⟩ =>
      Stmt.listPlaced_append.mpr ⟨Stmt.listPlaced_clause clause,
        Stmt.placed_whileOf condition increment (fourth.placed within), tail.placed rest⟩

theorem Stmt.OptionExpands.placed {padding : Padding} {statement statement' : Option Stmt} :
    Stmt.OptionExpands rule padding statement statement' → Stmt.OptionPlaced statement →
      Stmt.OptionPlaced statement'
  | .none, _ => trivial
  | .some parts, placed => ⟨parts.isDeclaration.trans placed.1, parts.placed placed.2⟩

theorem Stmt.OptionExpands.clausePlaced {padding : Padding} {clause clause' : Option Stmt} :
    Stmt.OptionExpands rule padding clause clause' → Stmt.ClausePlaced clause →
      Stmt.ClausePlaced clause'
  | .none, _ => trivial
  | .some parts, placed => by
      refine ⟨?_, parts.placed placed.2⟩
      rcases placed.1 with ⟨name, initializer, rfl⟩ | ⟨value, rfl⟩
      · cases parts
        exact .inl ⟨name, initializer, rfl⟩
      · cases parts
        exact .inr ⟨value, rfl⟩

theorem FunctionDecl.Expands.placed {padding : Padding} {declaration declaration' : FunctionDecl} :
    declaration.Expands rule padding declaration' → declaration.Placed → declaration'.Placed
  | .intro parts, placed => ⟨placed.1, placed.2.1, parts.placed placed.2.2⟩

theorem FunctionDecl.ListExpands.placed {padding : Padding} {methods methods' : List FunctionDecl} :
    FunctionDecl.ListExpands rule padding methods methods' → FunctionDecl.ListPlaced methods →
      FunctionDecl.ListPlaced methods'
  | .nil, _ => trivial
  | .cons head tail, placed => ⟨head.placed placed.1, tail.placed placed.2⟩

end

end Lox
