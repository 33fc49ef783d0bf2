import Lox.Proofs.Expansion.Machines
import Lox.Proofs.Reach.Territory
import Lox.Proofs.Syntax.Renumbering

/-!
# Where no loop is expanded

A program stands for itself, with nothing in between anywhere, as far as the distances of
its uses of names are the same. So does a machine on which no expanded program has run yet.
-/

namespace Lox

/-! ## Trees -/

theorem Padding.adjoins_replicate (depth distance : Nat) :
    Adjoins (List.replicate depth 0) distance := by
  cases distance <;> simp only [Adjoins, shift_replicate]

namespace Expansion

variable {expansion : Expansion} {front back : List Nat}

/-- Both programs have the same distances for some uses of names. -/
def Keeps (expansion : Expansion) (numbers : List Nat) : Prop :=
  ∀ number ∈ numbers, expansion.expanded.get? number = expansion.plain.get? number

@[simp] theorem keeps_append :
    expansion.Keeps (front ++ back) ↔ expansion.Keeps front ∧ expansion.Keeps back := by
  simp only [Keeps, List.mem_append, or_imp, forall_and]

theorem shifts_self {reference : Reference} (keeps : expansion.Keeps [reference.id]) (depth : Nat) :
    expansion.Shifts (List.replicate depth 0) reference := by
  unfold Shifts
  rw [keeps _ (List.mem_singleton_self _)]
  cases expansion.plain.get? reference.id with
  | none => rfl
  | some distance => rw [Option.map_some, Padding.shift_replicate]

mutual

theorem suits_self (depth : Nat) : (value : Expr) → expansion.Keeps value.numbers →
    expansion.Suits (List.replicate depth 0) value
  | .literal _, _ => trivial
  | .grouping inner, keeps => suits_self depth inner keeps
  | .unary _ operand, keeps => suits_self depth operand keeps
  | .binary left _ right, keeps =>
      have parts := keeps_append.mp keeps
      ⟨suits_self depth left parts.1, suits_self depth right parts.2⟩
  | .logical left _ right, keeps =>
      have parts := keeps_append.mp keeps
      ⟨suits_self depth left parts.1, suits_self depth right parts.2⟩
  | .variable _, keeps => shifts_self keeps depth
  | .assign _ value, keeps =>
      have parts := keeps_append.mp keeps
      ⟨shifts_self parts.2 depth, suits_self depth value parts.1⟩
  | .call callee _ arguments, keeps =>
      have parts := keeps_append.mp keeps
      ⟨suits_self depth callee parts.1, listSuits_self depth arguments parts.2⟩
  | .get object _, keeps => suits_self depth object keeps
  | .set object _ value, keeps =>
      have parts := keeps_append.mp keeps
      ⟨suits_self depth object parts.1, suits_self depth value parts.2⟩
  | .this _, keeps => shifts_self keeps depth
  | .super _ _, keeps =>
      ⟨shifts_self keeps depth, fun distance _ => Padding.adjoins_replicate depth distance⟩

theorem listSuits_self (depth : Nat) : (values : List Expr) →
    expansion.Keeps (Expr.listNumbers values) →
    expansion.ListSuits (List.replicate depth 0) values
  | [], _ => trivial
  | first :: rest, keeps =>
      have parts := keeps_append.mp keeps
      ⟨suits_self depth first parts.1, listSuits_self depth rest parts.2⟩

end

theorem optionSuits_self (depth : Nat) {value : Option Expr}
    (keeps : expansion.Keeps (Expr.optionNumbers value)) :
    ∀ inner ∈ value, expansion.Suits (List.replicate depth 0) inner := by
  rintro inner rfl
  exact suits_self depth inner keeps

end Expansion

theorem Padding.inside_replicate {α : Type} (superclass : Option α) (depth : Nat) :
    ∃ inner, inside superclass (List.replicate depth 0) = List.replicate inner 0 := by
  cases superclass with
  | none => exact ⟨depth + 1, rfl⟩
  | some _ => exact ⟨depth + 2, rfl⟩

section Self

variable {expansion : Expansion}

open Expansion

mutual

/-- A tree in which no loop is expanded, where all distances are the same. -/
theorem Stmt.expands_self (depth : Nat) : (statement : Stmt) → expansion.Keeps statement.numbers →
    statement.Expands expansion.rule (List.replicate (depth + 1) 0) statement
  | .expression value, keeps => .expression (suits_self _ value keeps)
  | .print value, keeps => .print (suits_self _ value keeps)
  | .var _ _, keeps => .var ⟨_, List.replicate_succ⟩ (optionSuits_self _ keeps)
  | .block body, keeps => .block (Stmt.listExpands_self (depth + 1) body keeps)
  | .conditional condition consequent alternative, keeps => by
      rw [Stmt.numbers, keeps_append, keeps_append] at keeps
      exact .conditional (suits_self _ condition keeps.1.1)
        (consequent.expands_self depth keeps.1.2)
        (Stmt.optionExpands_self depth alternative keeps.2)
  | .whileLoop condition body, keeps => by
      rw [Stmt.numbers, keeps_append] at keeps
      exact .whileLoop (suits_self _ condition keeps.1) (body.expands_self depth keeps.2)
  | .forLoop initializer _ _ body, keeps => by
      rw [Stmt.numbers, keeps_append, keeps_append, keeps_append] at keeps
      exact .forLoop (Stmt.optionExpands_self depth initializer keeps.1.1.1)
        (optionSuits_self _ keeps.1.1.2) (optionSuits_self _ keeps.1.2)
        (body.expands_self depth keeps.2)
  | .function declaration, keeps =>
      .function ⟨_, List.replicate_succ⟩ (declaration.expands_self (depth + 1) keeps)
  | .returning _ _, keeps => .returning (optionSuits_self _ keeps)
  | .classDecl _ superclass methods, keeps => by
      rw [Stmt.numbers, keeps_append] at keeps
      obtain ⟨inner, inside⟩ := Padding.inside_replicate superclass (depth + 1)
      exact .classDecl ⟨_, List.replicate_succ⟩ (optionSuits_self _ keeps.1)
        (inside ▸ FunctionDecl.listExpands_self inner methods keeps.2)

theorem Stmt.listExpands_self (depth : Nat) : (body : List Stmt) →
    expansion.Keeps (Stmt.listNumbers body) →
    Stmt.ListExpands expansion.rule (List.replicate (depth + 1) 0) body body
  | [], _ => .nil
  | first :: rest, keeps => by
      rw [Stmt.listNumbers, keeps_append] at keeps
      exact .cons (first.expands_self depth keeps.1) (Stmt.listExpands_self depth rest keeps.2)

theorem Stmt.optionExpands_self (depth : Nat) : (statement : Option Stmt) →
    expansion.Keeps (Stmt.optionNumbers statement) →
    Stmt.OptionExpands expansion.rule (List.replicate (depth + 1) 0) statement statement
  | none, _ => .none
  | some statement, keeps => .some (statement.expands_self depth keeps)

theorem FunctionDecl.expands_self (depth : Nat) : (declaration : FunctionDecl) →
    expansion.Keeps declaration.numbers →
    declaration.Expands expansion.rule (List.replicate depth 0) declaration
  | ⟨_, _, body⟩, keeps => .intro (Stmt.listExpands_self depth body keeps)

theorem FunctionDecl.listExpands_self (depth : Nat) : (methods : List FunctionDecl) →
    expansion.Keeps (FunctionDecl.listNumbers methods) →
    FunctionDecl.ListExpands expansion.rule (List.replicate depth 0) methods methods
  | [], _ => .nil
  | first :: rest, keeps => by
      rw [FunctionDecl.listNumbers, keeps_append] at keeps
      exact .cons (first.expands_self depth keeps.1)
        (FunctionDecl.listExpands_self depth rest keeps.2)

end

end Self

/-! ## Machines -/

section Unchanged

variable {expansion : Expansion} {shape : Shape} {store : Store} {number : Nat → Nat → Prop}

/-- Each scope of a store stands for itself. -/
def Padding.Layout.unchanged (store : Store) : Padding.Layout :=
  (List.range store.scopes.size).map fun index => some ⟨index⟩

theorem Padding.Layout.stands_unchanged {scope scope' : ScopeRef} :
    (unchanged store).Stands scope scope' ↔
      scope = scope' ∧ scope.index < store.scopes.size := by
  obtain ⟨index⟩ := scope
  obtain ⟨index'⟩ := scope'
  simp only [Stands, unchanged, List.getElem?_map, Option.map_eq_some_iff,
    List.getElem?_eq_some_iff, List.getElem_range, List.length_range, Option.some.injEq,
    ScopeRef.mk.injEq]
  constructor
  · rintro ⟨_, ⟨inside, rfl⟩, rfl⟩
    exact ⟨rfl, inside⟩
  · rintro ⟨rfl, inside⟩
    exact ⟨_, ⟨inside, rfl⟩, rfl⟩

/-- Nothing is between the scopes of such a store. -/
theorem Padding.Layout.around_unchanged {environment : Environment}
    (inside : ∀ scope ∈ environment, scope.index < store.scopes.size) :
    (unchanged store).Around (List.replicate environment.length 0) environment environment := by
  induction environment with
  | nil => exact .nil
  | cons scope outer ih =>
      rw [List.forall_mem_cons] at inside
      exact .scope (stands_unchanged.mpr ⟨rfl, inside.1⟩) (ih inside.2)

variable (keeps : ∀ {one other : Nat}, number one other →
  expansion.expanded.get? one = expansion.plain.get? one)
include keeps

theorem FunctionDecl.keeps_of_alike {declaration : FunctionDecl}
    (alike : declaration.Alike (.exact number) declaration) :
    expansion.Keeps declaration.numbers :=
  fun one inside => keeps (List.forall₂_same.mp alike.numbers one inside)

/-- A function of such a store stands for itself. -/
theorem Closure.expands_self {closure : Closure}
    (fits : ∀ part, closure.Has part → shape.Fits store part)
    (alike : closure.Alike (.exact number) closure) :
    (expansion.kinship (.unchanged store)).function closure closure ∧
      (expansion.kinship (.unchanged store)).method closure closure := by
  have around := Padding.Layout.around_unchanged (fits _ rfl).2
  have kept := FunctionDecl.keeps_of_alike keeps alike.declaration
  constructor
  · exact ⟨rfl, rfl, _, around, closure.declaration.expands_self _ kept,
      fun _ => Padding.adjoins_replicate _ 0⟩
  · exact ⟨rfl, rfl, _, around, closure.declaration.expands_self (_ + 1) kept, fun _ => rfl⟩

theorem Class.expands_self {found : Class}
    (fits : ∀ part, found.Has part → shape.Fits store part)
    (alike : found.Alike (.exact number) found) :
    found.Akin (expansion.kinship (.unchanged store)) found := by
  have layers := List.forall₂_same.mp (.cons alike.own alike.inherited)
  refine Class.akin_self fun own inside name method known => ?_
  have same := (layers own inside).methods.get? name
  rw [known] at same
  cases same with
  | some same =>
      exact (Closure.expands_self keeps
        (fun part has => fits part ⟨own, inside, name, method, known, has⟩) same).2

theorem Value.expands_self {value : Value} (fits : ∀ part, value.Has part → shape.Fits store part)
    (alike : value.Alike (.exact number) value) :
    expansion.Values (.unchanged store) value value := by
  apply Value.akin_self
  · rintro closure rfl
    cases alike with
    | function same => exact (Closure.expands_self keeps fits same).1
  · rintro found rfl
    cases alike with
    | cls same => exact Class.expands_self keeps fits same
  · rintro held rfl
    cases alike with
    | object same =>
        exact Class.expands_self keeps (fun part has => fits part (.inr has)) same.cls

theorem Bindings.expands_self {bindings : Bindings Value}
    (fits : ∀ name value, bindings.get? name = some value →
      ∀ part, value.Has part → shape.Fits store part)
    (alike : bindings.Related (Value.Alike (.exact number)) bindings) :
    bindings.Paired Eq (expansion.Values (.unchanged store)) bindings := by
  refine .refl Iff.rfl fun name value known => ?_
  have same := alike.get? name
  rw [known] at same
  cases same with
  | some same => exact Value.expands_self keeps (fits name value known) same

/-- Before an expanded program runs, a machine stands for itself, apart from the distances
of the program. -/
theorem Machine.Shaped.expands_self {machine : Machine} (shaped : machine.Shaped shape)
    (alike : machine.store.Alike (.exact number) machine.store)
    (outside : machine.environment = globalEnvironment)
    {time : Native → Nat → Except String Float} (tells : machine.host.Tells time) :
    Machine.Expands expansion (.unchanged machine.store) [0]
      { machine with distances := expansion.plain }
      { machine with distances := expansion.expanded } := by
  have inside := shaped.environment.2
  have around := Padding.Layout.around_unchanged inside
  rw [outside] at inside around
  have here : machine.store.Has (.scope globalScope) := inside _ (List.mem_singleton_self _)
  have store : machine.store.Expands (.unchanged machine.store)
      (expansion.kinship (.unchanged machine.store)) machine.store := by
    constructor
    case size => simp [Padding.Layout.unchanged]
    case known => exact fun stands => (Padding.Layout.stands_unchanged.mp stands).2
    case apart =>
      intro scope first second one other
      exact (Padding.Layout.stands_unchanged.mp one).1.symm.trans
        (Padding.Layout.stands_unchanged.mp other).1
    case bound =>
      intro scope scope' stands
      obtain ⟨rfl, -⟩ := Padding.Layout.stands_unchanged.mp stands
      exact Bindings.expands_self keeps (shaped.stored (.scope scope)) (alike.bound scope)
    case fields => rfl
    case held =>
      intro reference
      exact Bindings.expands_self keeps (shaped.stored (.object reference)) (alike.held reference)
  exact ⟨store, Padding.Layout.stands_unchanged.mpr ⟨rfl, here⟩, outside ▸ around, rfl, rfl, rfl,
    rfl, rfl, time, tells, tells⟩

end Unchanged

end Lox
