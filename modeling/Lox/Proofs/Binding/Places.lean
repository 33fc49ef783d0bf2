import Lox.Proofs.Binding.Visits
import Mathlib.Logic.Relation

/-!
# Each use of a name is visited once

The parts of an expression or statement share no reference number. So at most
one part has a given number in it, and going from part to part towards a number
leads to one visit of each node only.
-/

namespace Lox

/-! ## Lists without repeated numbers -/

/-- A number occurs in one place of a list without repeated numbers. -/
theorem split_unique {α : Type} {numbers : α → List Nat} {front back before behind : List α}
    {one other : α} {number : Nat} (same : front ++ one :: back = before ++ other :: behind)
    (nodup : ((front ++ one :: back).flatMap numbers).Nodup)
    (inOne : number ∈ numbers one) (inOther : number ∈ numbers other) :
    front = before ∧ one = other ∧ back = behind := by
  induction front generalizing before with
  | nil =>
      cases before with
      | nil =>
          cases same
          exact ⟨rfl, rfl, rfl⟩
      | cons first rest =>
          cases same
          simp only [List.nil_append, List.flatMap_cons, List.nodup_append] at nodup
          exact absurd rfl (nodup.2.2 number inOne number (by simp [inOther]))
  | cons first rest ih =>
      cases before with
      | nil =>
          cases same
          simp only [List.cons_append, List.flatMap_cons, List.nodup_append] at nodup
          exact absurd rfl (nodup.2.2 number inOther number (by simp [inOne]))
      | cons head tail =>
          rw [List.cons_append, List.cons_append, List.cons.injEq] at same
          obtain ⟨rfl, same⟩ := same
          rw [List.cons_append, List.flatMap_cons] at nodup
          obtain ⟨rfl, rest⟩ := ih same (List.nodup_append.mp nodup).2.1
          exact ⟨rfl, rest⟩

theorem Stmt.listNumbers_eq_flatMap (statements : List Stmt) :
    Stmt.listNumbers statements = statements.flatMap Stmt.numbers := by
  induction statements with
  | nil => rw [Stmt.listNumbers, List.flatMap_nil]
  | cons first rest ih => rw [Stmt.listNumbers, ih, List.flatMap_cons]

theorem FunctionDecl.listNumbers_eq_flatMap (declarations : List FunctionDecl) :
    FunctionDecl.listNumbers declarations = declarations.flatMap FunctionDecl.numbers := by
  induction declarations with
  | nil => rw [FunctionDecl.listNumbers, List.flatMap_nil]
  | cons first rest ih => rw [FunctionDecl.listNumbers, ih, List.flatMap_cons]

namespace Visit

variable {outer inner one other root : Visit} {number : Nat}

/-! ## Parts -/

theorem Contains.size (contains : outer.Contains inner) :
    sizeOf inner.node < sizeOf outer.node := by
  cases contains with
  | @argument _ value _ front back =>
      have inside : value ∈ front ++ value :: back := by simp
      have smaller := List.sizeOf_lt_of_mem inside
      simp only [Node.expr.sizeOf_spec, Expr.call.sizeOf_spec]
      omega
  | @member front back statement =>
      have inside : statement ∈ front ++ statement :: back := by simp
      have smaller := List.sizeOf_lt_of_mem inside
      simp only [Node.stmt.sizeOf_spec, Stmt.block.sizeOf_spec]
      omega
  | @forRest initializer =>
      have positive : 0 < sizeOf initializer := by cases initializer <;> simp +arith
      simp only [Node.stmt.sizeOf_spec, Stmt.forLoop.sizeOf_spec, Option.some.sizeOf_spec,
        Option.none.sizeOf_spec]
      omega
  | @functionBody declaration front back statement _ _ shape =>
      have inside : statement ∈ declaration.body := by simp [shape]
      have smaller := List.sizeOf_lt_of_mem inside
      obtain ⟨_, _, _⟩ := declaration
      simp only [Node.stmt.sizeOf_spec, Stmt.function.sizeOf_spec,
        FunctionDecl.mk.sizeOf_spec] at smaller ⊢
      omega
  | @methodBody name superclass earlier later method front back statement _ _ shape =>
      have inside : method ∈ earlier ++ method :: later := by simp
      have smaller := List.sizeOf_lt_of_mem inside
      have within : statement ∈ method.body := by simp [shape]
      have smallest := List.sizeOf_lt_of_mem within
      obtain ⟨_, _, _⟩ := method
      simp only [Node.stmt.sizeOf_spec, Stmt.classDecl.sizeOf_spec,
        FunctionDecl.mk.sizeOf_spec] at smaller smallest ⊢
      omega
  | _ =>
      simp
      try omega

/-- A number in a statement of a function body is in the function. -/
theorem mem_numbers_of_body {declaration : FunctionDecl} {front back : List Stmt}
    {statement : Stmt} (shape : declaration.body = front ++ statement :: back)
    (inside : number ∈ statement.numbers) : number ∈ declaration.numbers := by
  rw [FunctionDecl.numbers_eq, shape, Stmt.listNumbers_append, Stmt.listNumbers]
  simp [inside]

/-- Two statements of a function body with a number in common are one. -/
theorem body_unique {declaration : FunctionDecl} {front back before behind : List Stmt}
    {first second : Stmt} (nodup : declaration.numbers.Nodup)
    (shape : declaration.body = front ++ first :: back)
    (other : declaration.body = before ++ second :: behind)
    (inFirst : number ∈ first.numbers) (inSecond : number ∈ second.numbers) :
    front = before ∧ first = second := by
  rw [FunctionDecl.numbers_eq, shape, Stmt.listNumbers_eq_flatMap] at nodup
  obtain ⟨same, equal, _⟩ := split_unique (shape.symm.trans other) nodup inFirst inSecond
  exact ⟨same, equal⟩

/-- A number of the callee is in no argument, and arguments have no number in common. -/
theorem Contains.unique_of_call {callee : Expr} {paren : Token} {arguments : List Expr}
    {analysis : Analysis} {loose : List (List String)}
    (nodup : (Expr.call callee paren arguments).numbers.Nodup)
    (first : Contains ⟨.expr (.call callee paren arguments), analysis, loose⟩ one)
    (second : Contains ⟨.expr (.call callee paren arguments), analysis, loose⟩ other)
    (inOne : number ∈ one.node.numbers) (inOther : number ∈ other.node.numbers) : one = other := by
  simp only [Expr.numbers, Expr.listNumbers_eq_flatMap, List.nodup_append] at nodup
  obtain ⟨-, listed, apart⟩ := nodup
  have elsewhere {value : Expr} (inCallee : number ∈ callee.numbers)
      (inside : value ∈ arguments) : number ∉ value.numbers := by
    intro inValue
    exact apart number inCallee number (List.mem_flatMap.mpr ⟨value, inside, inValue⟩) rfl
  cases first with
  | callee =>
      cases second with
      | callee => rfl
      | argument => exact absurd inOther (elsewhere inOne (by simp))
  | @argument _ value _ front back =>
      generalize shape : front ++ value :: back = arguments at second listed elsewhere
      cases second with
      | callee => exact absurd inOne (elsewhere inOther (by simp [← shape]))
      | argument =>
          rw [← shape] at listed
          obtain ⟨rfl, rfl, rfl⟩ := split_unique shape listed inOne inOther
          rfl

/-- A number of the superclass is in no method, methods have no number in common, and neither
have the statements of one method. -/
theorem Contains.unique_of_classDecl {name : Token} {superclass : Option Expr}
    {methods : List FunctionDecl} {analysis : Analysis} {loose : List (List String)}
    (nodup : (Stmt.classDecl name superclass methods).numbers.Nodup)
    (first : Contains ⟨.stmt (.classDecl name superclass methods), analysis, loose⟩ one)
    (second : Contains ⟨.stmt (.classDecl name superclass methods), analysis, loose⟩ other)
    (inOne : number ∈ one.node.numbers) (inOther : number ∈ other.node.numbers) : one = other := by
  simp only [Stmt.numbers, FunctionDecl.listNumbers_eq_flatMap, List.nodup_append] at nodup
  obtain ⟨-, listed, apart⟩ := nodup
  have elsewhere {method : FunctionDecl} (above : number ∈ Expr.optionNumbers superclass)
      (inside : method ∈ methods) : number ∉ method.numbers := by
    intro inMethod
    exact apart number above number (List.mem_flatMap.mpr ⟨method, inside, inMethod⟩) rfl
  cases first with
  | superclass =>
      cases second with
      | superclass => rfl
      | methodBody shape =>
          exact absurd (mem_numbers_of_body shape inOther) (elsewhere inOne (by simp))
  | @methodBody _ _ earlier later method front back statement _ _ shape =>
      generalize members : earlier ++ method :: later = methods at second elsewhere
      cases second with
      | superclass =>
          exact absurd (mem_numbers_of_body shape inOne) (elsewhere inOther (by simp [← members]))
      | methodBody again =>
          obtain ⟨rfl, rfl, rfl⟩ := split_unique members listed
            (mem_numbers_of_body shape inOne) (mem_numbers_of_body again inOther)
          have own : method.numbers.Nodup := (List.nodup_flatMap.mp listed).1 _ (by simp)
          obtain ⟨rfl, rfl⟩ := body_unique own shape again inOne inOther
          rfl

/-- At most one part has a given number in it. -/
theorem Contains.unique (nodup : outer.node.numbers.Nodup) (first : outer.Contains one)
    (second : outer.Contains other) (inOne : number ∈ one.node.numbers)
    (inOther : number ∈ other.node.numbers) : one = other := by
  obtain ⟨node, analysis, loose⟩ := outer
  cases node with
  | expr value =>
      cases value with
      | call callee paren arguments =>
          exact Contains.unique_of_call nodup first second inOne inOther
      | _ =>
          -- Of two different parts, each has the number, though they have none in common.
          cases first <;> cases second <;> try rfl
          all_goals
            simp only [Node.numbers, Expr.numbers, List.nodup_append] at nodup inOne inOther
            exact absurd rfl (nodup.2.2 number (by assumption) number (by assumption))
  | stmt statement =>
      cases statement with
      | block body =>
          rw [Node.numbers, Stmt.numbers, Stmt.listNumbers_eq_flatMap] at nodup
          cases first with
          | @member front back statement =>
              generalize shape : front ++ statement :: back = body at second
              cases second with
              | member =>
                  obtain ⟨rfl, rfl, rfl⟩ := split_unique shape nodup inOne inOther
                  rfl
      | function declaration =>
          rw [Node.numbers, Stmt.numbers] at nodup
          cases first with
          | functionBody shape =>
              cases second with
              | functionBody again =>
                  obtain ⟨rfl, rfl⟩ := body_unique nodup shape again inOne inOther
                  rfl
      | classDecl name superclass methods =>
          exact Contains.unique_of_classDecl nodup first second inOne inOther
      | _ =>
          cases first <;> cases second <;> try rfl
          all_goals
            simp only [Node.numbers, List.nodup_append, Stmt.numbers, Stmt.optionNumbers,
              Expr.optionNumbers] at nodup inOne inOther
            grind

/-! ## From part to part -/

theorem numbers_of_reach (reach : Relation.ReflTransGen Contains outer inner) :
    inner.node.numbers ⊆ outer.node.numbers := by
  induction reach with
  | refl => exact List.Subset.refl _
  | tail _ contains ih => exact List.Subset.trans contains.numbers ih

/-- Of two visits with a number in common, one is inside the other. -/
theorem comparable {final : Distances} (accepted : root.Accepted final)
    (first : Relation.ReflTransGen Contains root one)
    (second : Relation.ReflTransGen Contains root other)
    (inOne : number ∈ one.node.numbers) (inOther : number ∈ other.node.numbers) :
    Relation.ReflTransGen Contains one other ∨ Relation.ReflTransGen Contains other one := by
  induction first using Relation.ReflTransGen.head_induction_on with
  | refl => exact .inl second
  | @head root next contains rest ih =>
      cases second using Relation.ReflTransGen.head_induction_on with
      | refl => exact .inr (rest.head contains)
      | @head _ alternative again remaining =>
          have same := contains.unique accepted.nodup again (numbers_of_reach rest inOne)
            (numbers_of_reach remaining inOther)
          subst same
          exact ih (accepted.contains contains) remaining

theorem size_of_reach (reach : Relation.ReflTransGen Contains outer inner) :
    outer = inner ∨ sizeOf inner.node < sizeOf outer.node := by
  induction reach with
  | refl => exact .inl rfl
  | tail _ contains ih =>
      have smaller := contains.size
      rcases ih with rfl | larger
      · exact .inr smaller
      · exact .inr (Nat.lt_trans smaller larger)

/-- There is one visit only of each node that has a number in it. -/
theorem reach_unique {final : Distances} (accepted : root.Accepted final)
    (first : Relation.ReflTransGen Contains root one)
    (second : Relation.ReflTransGen Contains root other) (same : one.node = other.node)
    (inside : number ∈ one.node.numbers) : one = other := by
  rcases comparable accepted first second inside (same ▸ inside) with inner | outer
  · rcases size_of_reach inner with equal | smaller
    · exact equal
    · rw [same] at smaller
      exact absurd smaller (Nat.lt_irrefl _)
  · rcases size_of_reach outer with equal | smaller
    · exact equal.symm
    · rw [same] at smaller
      exact absurd smaller (Nat.lt_irrefl _)

end Visit

end Lox
