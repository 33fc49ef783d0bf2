import Lox.Proofs.Binding.Visits

/-!
# What the analysis guarantees about names

Loops that declare a variable stand in lists of statements, so that whatever a
part of a statement declares, no other part leaves it out.
-/

namespace Lox

open Analysis

/-! ## Loops in lists -/

/-- A loop with a variable of its own. -/
def Stmt.isDeclaringLoop : Stmt → Bool
  | .forLoop (some (.var _ _)) _ _ _ => true
  | _ => false

mutual

/-- Every loop with a variable of its own stands directly in a list of
statements. -/
def Stmt.Orderly : Stmt → Prop
  | .expression _ | .print _ | .var _ _ | .returning _ _ => True
  | .block body => Stmt.ListOrderly body
  | .conditional _ consequent alternative =>
      (consequent.isDeclaringLoop = false ∧ consequent.Orderly) ∧ Stmt.OptionOrderly alternative
  | .whileLoop _ body => body.isDeclaringLoop = false ∧ body.Orderly
  | .forLoop _ _ _ body => body.isDeclaringLoop = false ∧ body.Orderly
  | .function declaration => declaration.Orderly
  | .classDecl _ _ methods => FunctionDecl.ListOrderly methods

/-- Every loop in statements of a list stands in that list or in one inside. -/
def Stmt.ListOrderly : List Stmt → Prop
  | [] => True
  | first :: rest => first.Orderly ∧ Stmt.ListOrderly rest

/-- An alternative, where there is one, is no loop with a variable of its own. -/
def Stmt.OptionOrderly : Option Stmt → Prop
  | none => True
  | some statement => statement.isDeclaringLoop = false ∧ statement.Orderly

/-- Every loop in a function stands in a list. -/
def FunctionDecl.Orderly : FunctionDecl → Prop
  | ⟨_, _, body⟩ => Stmt.ListOrderly body

/-- Every loop in several functions stands in a list. -/
def FunctionDecl.ListOrderly : List FunctionDecl → Prop
  | [] => True
  | first :: rest => first.Orderly ∧ FunctionDecl.ListOrderly rest

end

mutual

/-- Whether loops stand in lists can be decided. -/
def Stmt.decideOrderly : (statement : Stmt) → Decidable statement.Orderly
  | .expression _ | .print _ | .var _ _ | .returning _ _ => .isTrue trivial
  | .block body => Stmt.decideListOrderly body
  | .conditional _ consequent alternative =>
      have := consequent.decideOrderly
      have := Stmt.decideOptionOrderly alternative
      inferInstanceAs
        (Decidable ((_ = false ∧ consequent.Orderly) ∧ Stmt.OptionOrderly alternative))
  | .whileLoop _ body =>
      have := body.decideOrderly
      inferInstanceAs (Decidable (_ = false ∧ body.Orderly))
  | .forLoop _ _ _ body =>
      have := body.decideOrderly
      inferInstanceAs (Decidable (_ = false ∧ body.Orderly))
  | .function declaration => declaration.decideOrderly
  | .classDecl _ _ methods => FunctionDecl.decideListOrderly methods

def Stmt.decideListOrderly : (statements : List Stmt) → Decidable (Stmt.ListOrderly statements)
  | [] => .isTrue trivial
  | first :: rest =>
      have := first.decideOrderly
      have := Stmt.decideListOrderly rest
      inferInstanceAs (Decidable (first.Orderly ∧ Stmt.ListOrderly rest))

def Stmt.decideOptionOrderly : (statement : Option Stmt) → Decidable (Stmt.OptionOrderly statement)
  | none => .isTrue trivial
  | some statement =>
      have := statement.decideOrderly
      inferInstanceAs (Decidable (_ = false ∧ statement.Orderly))

def FunctionDecl.decideOrderly : (declaration : FunctionDecl) → Decidable declaration.Orderly
  | ⟨_, _, body⟩ => Stmt.decideListOrderly body

def FunctionDecl.decideListOrderly :
    (declarations : List FunctionDecl) → Decidable (FunctionDecl.ListOrderly declarations)
  | [] => .isTrue trivial
  | first :: rest =>
      have := first.decideOrderly
      have := FunctionDecl.decideListOrderly rest
      inferInstanceAs (Decidable (first.Orderly ∧ FunctionDecl.ListOrderly rest))

end

instance (statements : List Stmt) : Decidable (Stmt.ListOrderly statements) :=
  Stmt.decideListOrderly statements

theorem Stmt.listOrderly_iff {statements : List Stmt} :
    Stmt.ListOrderly statements ↔ ∀ statement ∈ statements, statement.Orderly := by
  induction statements with
  | nil => simp [Stmt.ListOrderly]
  | cons first rest ih => simp [Stmt.ListOrderly, ih]

theorem FunctionDecl.listOrderly_iff {declarations : List FunctionDecl} :
    FunctionDecl.ListOrderly declarations ↔
      ∀ declaration ∈ declarations, declaration.Orderly := by
  induction declarations with
  | nil => simp [FunctionDecl.ListOrderly]
  | cons first rest ih => simp [FunctionDecl.ListOrderly, ih]

theorem FunctionDecl.Orderly.body {declaration : FunctionDecl} (orderly : declaration.Orderly) :
    Stmt.ListOrderly declaration.body := by
  obtain ⟨_, _, _⟩ := declaration
  exact orderly

/-- Where loops stand in lists, a loop with a variable of its own is outside of all blocks
of a statement only if the statement is that loop. -/
theorem Stmt.hasBareVariable_of_orderly (statement : Stmt) (orderly : statement.Orderly)
    (loopless : statement.isDeclaringLoop = false) : statement.hasBareVariable = false := by
  cases statement with
  | conditional _ consequent alternative =>
      rw [hasBareVariable, consequent.hasBareVariable_of_orderly orderly.1.2 orderly.1.1,
        Bool.false_or]
      cases alternative with
      | none => rfl
      | some other => exact other.hasBareVariable_of_orderly orderly.2.2 orderly.2.1
  | whileLoop _ body => exact body.hasBareVariable_of_orderly orderly.2 orderly.1
  | forLoop initializer _ _ body =>
      have inside := body.hasBareVariable_of_orderly orderly.2 orderly.1
      cases initializer with
      | none => exact inside
      | some clause =>
          cases clause with
          | var _ _ => cases loopless
          | _ => exact inside
  | _ => rfl

/-- A part of a statement that is no declaration and no such loop declares
nothing. -/
theorem Stmt.declares_of_bare (statement : Stmt) (placed : statement.Placed)
    (orderly : statement.Orderly) (plain : statement.isDeclaration = false)
    (loopless : statement.isDeclaringLoop = false) : statement.declares = [] :=
  statement.declares_of_not_bare placed plain
    (statement.hasBareVariable_of_orderly orderly loopless)

/-- Loops in an expression or statement stand in lists. -/
def Node.Orderly : Node → Prop
  | .expr _ => True
  | .stmt statement => statement.Orderly

theorem Visit.Contains.orderly {outer inner : Visit} (contains : outer.Contains inner)
    (placed : outer.node.Placed) (orderly : outer.node.Orderly) : inner.node.Orderly := by
  cases contains with
  | member => exact Stmt.listOrderly_iff.mp orderly _ (by simp)
  | consequent => exact orderly.1.2
  | alternative => exact orderly.2.2
  | whileBody => exact orderly.2
  | forInitializer =>
      rcases placed.1.1 with ⟨name, value, rfl⟩ | ⟨value, rfl⟩
      · trivial
      · trivial
  | forRest => exact orderly
  | forBody => exact orderly.2
  | functionBody shape =>
      have body := FunctionDecl.Orderly.body orderly
      exact Stmt.listOrderly_iff.mp body _ (by simp [shape])
  | @methodBody _ _ _ _ method _ _ _ _ _ shape =>
      have inside := FunctionDecl.listOrderly_iff.mp orderly method (by simp)
      exact Stmt.listOrderly_iff.mp inside.body _ (by simp [shape])
  | _ => trivial

end Lox
