import Lox.Syntax.Basic
import Mathlib.Data.List.Nodup

/-!
# Reference numbers of a tree

The numbers that tell the uses of names apart, in the order in which they are
given out while a tree is read, and the tree with all of them forgotten. What a
text says fixes a tree up to these numbers.
-/

namespace Lox

/-! ## The numbers in a tree -/

mutual

/-- The reference numbers of an expression. A target gets its number after the
value stored in it. -/
def Expr.numbers : Expr → List Nat
  | .literal _ => []
  | .grouping inner => inner.numbers
  | .unary _ operand => operand.numbers
  | .binary left _ right => left.numbers ++ right.numbers
  | .logical left _ right => left.numbers ++ right.numbers
  | .variable reference => [reference.id]
  | .assign reference value => value.numbers ++ [reference.id]
  | .call callee _ arguments => callee.numbers ++ Expr.listNumbers arguments
  | .get object _ => object.numbers
  | .set object _ value => object.numbers ++ value.numbers
  | .this reference => [reference.id]
  | .super reference _ => [reference.id]

/-- The reference numbers of several expressions. -/
def Expr.listNumbers : List Expr → List Nat
  | [] => []
  | first :: rest => first.numbers ++ Expr.listNumbers rest

end

attribute [simp] Expr.numbers Expr.listNumbers

/-- The reference numbers of an expression that may be absent. -/
def Expr.optionNumbers : Option Expr → List Nat
  | none => []
  | some value => value.numbers

mutual

/-- The reference numbers of a statement. -/
def Stmt.numbers : Stmt → List Nat
  | .expression value => value.numbers
  | .print value => value.numbers
  | .var _ initializer => Expr.optionNumbers initializer
  | .block body => Stmt.listNumbers body
  | .conditional condition consequent alternative =>
      condition.numbers ++ consequent.numbers ++ Stmt.optionNumbers alternative
  | .whileLoop condition body => condition.numbers ++ body.numbers
  | .forLoop initializer condition increment body =>
      Stmt.optionNumbers initializer ++ Expr.optionNumbers condition ++
        Expr.optionNumbers increment ++ body.numbers
  | .function declaration => declaration.numbers
  | .returning _ value => Expr.optionNumbers value
  | .classDecl _ superclass methods =>
      Expr.optionNumbers superclass ++ FunctionDecl.listNumbers methods

/-- The reference numbers of several statements. -/
def Stmt.listNumbers : List Stmt → List Nat
  | [] => []
  | first :: rest => first.numbers ++ Stmt.listNumbers rest

/-- The reference numbers of a statement that may be absent. -/
def Stmt.optionNumbers : Option Stmt → List Nat
  | none => []
  | some statement => statement.numbers

/-- The reference numbers of a function. -/
def FunctionDecl.numbers : FunctionDecl → List Nat
  | ⟨_, _, body⟩ => Stmt.listNumbers body

/-- The reference numbers of several functions. -/
def FunctionDecl.listNumbers : List FunctionDecl → List Nat
  | [] => []
  | first :: rest => first.numbers ++ FunctionDecl.listNumbers rest

end

attribute [simp] Stmt.numbers Stmt.listNumbers Stmt.optionNumbers FunctionDecl.numbers
  FunctionDecl.listNumbers

theorem Expr.listNumbers_eq_flatMap (values : List Expr) :
    Expr.listNumbers values = values.flatMap Expr.numbers := by
  induction values with
  | nil => rfl
  | cons first rest ih => simp [ih]

/-! ## Trees without numbers -/

/-- A use of a name without its number. -/
def Reference.unnumbered (reference : Reference) : Reference :=
  { reference with id := 0 }

mutual

/-- An expression without reference numbers. -/
def Expr.unnumbered : Expr → Expr
  | .literal value => .literal value
  | .grouping inner => .grouping inner.unnumbered
  | .unary operator operand => .unary operator operand.unnumbered
  | .binary left operator right => .binary left.unnumbered operator right.unnumbered
  | .logical left operator right => .logical left.unnumbered operator right.unnumbered
  | .variable reference => .variable reference.unnumbered
  | .assign reference value => .assign reference.unnumbered value.unnumbered
  | .call callee paren arguments =>
      .call callee.unnumbered paren (Expr.listUnnumbered arguments)
  | .get object name => .get object.unnumbered name
  | .set object name value => .set object.unnumbered name value.unnumbered
  | .this reference => .this reference.unnumbered
  | .super reference method => .super reference.unnumbered method

/-- Expressions without reference numbers. -/
def Expr.listUnnumbered : List Expr → List Expr
  | [] => []
  | first :: rest => first.unnumbered :: Expr.listUnnumbered rest

end

attribute [simp] Expr.unnumbered Expr.listUnnumbered

mutual

/-- A statement without reference numbers. -/
def Stmt.unnumbered : Stmt → Stmt
  | .expression value => .expression value.unnumbered
  | .print value => .print value.unnumbered
  | .var name initializer => .var name (initializer.map Expr.unnumbered)
  | .block body => .block (Stmt.listUnnumbered body)
  | .conditional condition consequent alternative =>
      .conditional condition.unnumbered consequent.unnumbered (Stmt.optionUnnumbered alternative)
  | .whileLoop condition body => .whileLoop condition.unnumbered body.unnumbered
  | .forLoop initializer condition increment body =>
      .forLoop (Stmt.optionUnnumbered initializer) (condition.map Expr.unnumbered)
        (increment.map Expr.unnumbered) body.unnumbered
  | .function declaration => .function declaration.unnumbered
  | .returning keyword value => .returning keyword (value.map Expr.unnumbered)
  | .classDecl name superclass methods =>
      .classDecl name (superclass.map Expr.unnumbered) (FunctionDecl.listUnnumbered methods)

/-- Statements without reference numbers. -/
def Stmt.listUnnumbered : List Stmt → List Stmt
  | [] => []
  | first :: rest => first.unnumbered :: Stmt.listUnnumbered rest

/-- A statement that may be absent, without reference numbers. -/
def Stmt.optionUnnumbered : Option Stmt → Option Stmt
  | none => none
  | some statement => some statement.unnumbered

/-- A function without reference numbers. -/
def FunctionDecl.unnumbered : FunctionDecl → FunctionDecl
  | ⟨name, parameters, body⟩ => ⟨name, parameters, Stmt.listUnnumbered body⟩

/-- Functions without reference numbers. -/
def FunctionDecl.listUnnumbered : List FunctionDecl → List FunctionDecl
  | [] => []
  | first :: rest => first.unnumbered :: FunctionDecl.listUnnumbered rest

end

attribute [simp] Stmt.unnumbered Stmt.listUnnumbered Stmt.optionUnnumbered
  FunctionDecl.unnumbered FunctionDecl.listUnnumbered

theorem Expr.listUnnumbered_eq_map (values : List Expr) :
    Expr.listUnnumbered values = values.map Expr.unnumbered := by
  induction values with
  | nil => rfl
  | cons first rest ih => simp [ih]

/-! ## Numbers given out by a supply -/

/-- Numbers that a supply has given out while it went from one state to another:
each at most once, and none that was given out before or will be later. -/
structure Fresh (low high : Nat) (numbers : List Nat) : Prop where
  le : low ≤ high
  nodup : numbers.Nodup
  range : ∀ number ∈ numbers, low ≤ number ∧ number < high

namespace Fresh

variable {low middle high : Nat} {numbers front back : List Nat}

theorem nil (le : low ≤ high) : Fresh low high [] :=
  ⟨le, .nil, by simp⟩

theorem single (low : Nat) : Fresh low (low + 1) [low] :=
  ⟨Nat.le_succ low, List.nodup_singleton low, by simp⟩

/-- Numbers given out one after another are all different. -/
theorem append (first : Fresh low middle front) (second : Fresh middle high back) :
    Fresh low high (front ++ back) := by
  refine ⟨Nat.le_trans first.le second.le, ?_, ?_⟩
  · apply List.Nodup.append first.nodup second.nodup
    intro number inFront inBack
    have below := (first.range number inFront).2
    have above := (second.range number inBack).1
    omega
  · intro number membership
    rcases List.mem_append.mp membership with inFront | inBack
    · obtain ⟨above, below⟩ := first.range number inFront
      exact ⟨above, Nat.lt_of_lt_of_le below second.le⟩
    · obtain ⟨above, below⟩ := second.range number inBack
      exact ⟨Nat.le_trans first.le above, below⟩

/-- A supply may have given out other numbers before. -/
theorem after (le : low ≤ middle) (given : Fresh middle high numbers) :
    Fresh low high numbers := by
  simpa using (nil le).append given

end Fresh

end Lox
