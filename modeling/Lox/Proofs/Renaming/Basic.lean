import Lox.Proofs.Binding.Paired
import Lox.Proofs.Binding.Rules

/-!
# Renaming local variables

A variable or parameter of a local scope gets another name: its declaration changes and
with it exactly the uses that are bound to its scope. Which uses those are is not found
out anew but taken from the distances that binding has noted.
-/

namespace Lox

/-! ## Names -/

/-- A name of variables, another one for it, and the distances of the uses of names. -/
structure Respelling where
  old : String
  new : String
  distances : Distances

/-- Whether the name changes in each local scope around a point, the innermost first. -/
abbrev Marks := List Bool

namespace Marks

/-- Whether the name changes in the scope at a distance. Among the globals it does not. -/
def changes (marks : Marks) (distance : Nat) : Bool :=
  marks.getD distance false

/-- Whether the name changes in the innermost scope. -/
def here (marks : Marks) : Bool :=
  marks.changes 0

/-- The scopes that a class keeps for its methods: one for `super` if it inherits. -/
def inherit {α : Type} (superclass : Option α) (marks : Marks) : Marks :=
  match superclass with
  | none => marks
  | some _ => false :: marks

/-- The scopes around the methods of a class. -/
def inside (superclass : Option Expr) (marks : Marks) : Marks :=
  false :: marks.inherit superclass

variable {mark : Bool} {marks : Marks} {distance : Nat}

@[simp] theorem changes_nil : changes [] distance = false := rfl

@[simp] theorem changes_zero : changes (mark :: marks) 0 = mark := rfl

@[simp] theorem changes_succ : changes (mark :: marks) (distance + 1) = marks.changes distance :=
  rfl

@[simp] theorem here_cons : here (mark :: marks) = mark := rfl

theorem mem_of_changes (changed : marks.changes distance = true) : true ∈ marks := by
  unfold changes at changed
  rw [List.getD_eq_getElem?_getD] at changed
  cases found : marks[distance]? with
  | none =>
      rw [found] at changed
      nomatch changed
  | some mark =>
      rw [found] at changed
      obtain rfl : mark = true := changed
      exact List.mem_of_getElem? found

/-- Where the name changes in no scope it does not change at any distance. -/
theorem changes_of_unmarked (unmarked : true ∉ marks) (distance : Nat) :
    marks.changes distance = false :=
  Bool.eq_false_iff.mpr fun changed => unmarked (mem_of_changes changed)

theorem here_of_unmarked (unmarked : true ∉ marks) : marks.here = false :=
  changes_of_unmarked unmarked 0

theorem unmarked_cons (unmarked : true ∉ marks) : true ∉ false :: marks := by
  simpa using unmarked

theorem unmarked_inside (superclass : Option Expr) (unmarked : true ∉ marks) :
    true ∉ marks.inside superclass := by
  cases superclass with
  | none => exact unmarked_cons unmarked
  | some _ => exact unmarked_cons (unmarked_cons unmarked)

end Marks

namespace Respelling

variable (respelling : Respelling)

/-- What becomes of a name in a scope. -/
def name (mark : Bool) (name : String) : String :=
  if mark = true ∧ name = respelling.old then respelling.new else name

/-- What becomes of a token with a name that is declared in a scope. -/
def token (mark : Bool) (token : Token) : Token :=
  { token with lexeme := respelling.name mark token.lexeme }

/-- Whether the name changes in the scope that a use is bound to. -/
def bound (marks : Marks) (reference : Reference) : Bool :=
  (respelling.distances.get? reference.id).any marks.changes

/-- What becomes of a use of a name. -/
def use (marks : Marks) (reference : Reference) : Reference :=
  { reference with name := respelling.token (respelling.bound marks reference) reference.name }

@[simp] theorem name_false (name : String) : respelling.name false name = name := by
  simp [Respelling.name]

@[simp] theorem token_false (token : Token) : respelling.token false token = token := by
  simp [Respelling.token]

/-- Names that stand for each other in a scope. Where the name changes, the scope has no
place for the new one before. -/
def Names (mark : Bool) (name name' : String) : Prop :=
  (mark = true → name ≠ respelling.new) ∧ name' = respelling.name mark name

theorem oneToOne_names (mark : Bool) : Bindings.OneToOne (respelling.Names mark) := by
  rintro one _ other _ ⟨first, rfl⟩ ⟨second, rfl⟩
  unfold Respelling.name
  cases mark with
  | false => simp
  | true =>
      have first := first rfl
      have second := second rfl
      by_cases here : one = respelling.old <;> by_cases there : other = respelling.old <;>
        simp [here, there] <;> grind

variable {respelling} {marks : Marks}

theorem names_false (name : String) : respelling.Names false name name :=
  ⟨(nomatch ·), (respelling.name_false name).symm⟩

/-- Other names than these two stand for themselves. -/
theorem names_self {name : String} (mark : Bool) (notOld : name ≠ respelling.old)
    (notNew : name ≠ respelling.new) : respelling.Names mark name name :=
  ⟨fun _ => notNew, by simp [Respelling.name, notOld]⟩

theorem bound_of_unmarked (unmarked : true ∉ marks) (reference : Reference) :
    respelling.bound marks reference = false := by
  unfold bound
  cases respelling.distances.get? reference.id with
  | none => rfl
  | some distance => exact Marks.changes_of_unmarked unmarked distance

theorem use_of_unmarked (unmarked : true ∉ marks) (reference : Reference) :
    respelling.use marks reference = reference := by
  rw [use, bound_of_unmarked unmarked, token_false]

end Respelling

/-! ## Trees -/

mutual

/-- An expression with the new name where the old one is bound to a scope in which it
changes. -/
def Expr.rename (respelling : Respelling) (marks : Marks) : Expr → Expr
  | .literal value => .literal value
  | .grouping inner => .grouping (inner.rename respelling marks)
  | .unary operator operand => .unary operator (operand.rename respelling marks)
  | .binary left operator right =>
      .binary (left.rename respelling marks) operator (right.rename respelling marks)
  | .logical left operator right =>
      .logical (left.rename respelling marks) operator (right.rename respelling marks)
  | .variable reference => .variable (respelling.use marks reference)
  | .assign reference value =>
      .assign (respelling.use marks reference) (value.rename respelling marks)
  | .call callee paren arguments =>
      .call (callee.rename respelling marks) paren (Expr.listRename respelling marks arguments)
  | .get object name => .get (object.rename respelling marks) name
  | .set object name value =>
      .set (object.rename respelling marks) name (value.rename respelling marks)
  | .this reference => .this reference
  | .super reference method => .super reference method

/-- Several expressions with the new name. -/
def Expr.listRename (respelling : Respelling) (marks : Marks) : List Expr → List Expr
  | [] => []
  | first :: rest => first.rename respelling marks :: Expr.listRename respelling marks rest

end

/-- An expression is blamed on the same line. -/
theorem Expr.line_rename {respelling : Respelling} {marks : Marks} :
    (value : Expr) → (value.rename respelling marks).line? = value.line?
  | .grouping inner => inner.line_rename
  | .literal _ | .unary _ _ | .binary _ _ _ | .logical _ _ _ | .variable _ | .assign _ _
  | .call _ _ _ | .get _ _ | .set _ _ _ | .this _ | .super _ _ => rfl

mutual

/-- The variables that a statement declares in the scope it stands in. -/
def Stmt.variables : Stmt → List String
  | .var name _ => [name.lexeme]
  | .conditional _ consequent alternative =>
      consequent.variables ++ Stmt.optionVariables alternative
  | .whileLoop _ body => body.variables
  | .forLoop initializer _ _ body => Stmt.optionVariables initializer ++ body.variables
  | .function _ | .classDecl _ _ _ => []
  | .expression _ | .print _ | .block _ | .returning _ _ => []

/-- The variables that a statement declares, if there is one. -/
def Stmt.optionVariables : Option Stmt → List String
  | none => []
  | some statement => statement.variables

end

/-- The variables that statements declare in the scope they stand in. -/
def Stmt.listVariables (statements : List Stmt) : List String :=
  statements.flatMap Stmt.variables

/-- What is asked of the parts of a tree that is renamed: of expressions and of names in
front of the scopes around them, and of the parameters and the body of a scope in which
the name changes. -/
structure Respelling.Rule where
  expression : Marks → Expr → Prop
  /-- A variable or parameter, whose name may change. -/
  «variable» : Marks → Token → Prop
  /-- A function or class, which keeps its name. -/
  fixed : Marks → Token → Prop
  scope : List Token → List Stmt → Prop

mutual

/-- A statement is renamed: in some of the scopes in it the name changes, wherever a
variable or parameter has it and wherever it is used for that one. -/
inductive Stmt.Renames (respelling : Respelling) (rule : Respelling.Rule) :
    Marks → Stmt → Stmt → Prop where
  | expression {marks : Marks} {value : Expr} (asked : rule.expression marks value) :
      Stmt.Renames respelling rule marks (.expression value)
        (.expression (value.rename respelling marks))
  | print {marks : Marks} {value : Expr} (asked : rule.expression marks value) :
      Stmt.Renames respelling rule marks (.print value) (.print (value.rename respelling marks))
  | var {marks : Marks} {name : Token} {initializer : Option Expr}
      (named : rule.variable marks name)
      (asked : ∀ value ∈ initializer, rule.expression marks value) :
      Stmt.Renames respelling rule marks (.var name initializer)
        (.var (respelling.token marks.here name) (initializer.map (Expr.rename respelling marks)))
  | block {marks : Marks} {body body' : List Stmt} (mark : Bool)
      (declares : mark = true → rule.scope [] body)
      (parts : Stmt.ListRenames respelling rule (mark :: marks) body body') :
      Stmt.Renames respelling rule marks (.block body) (.block body')
  | conditional {marks : Marks} {condition : Expr} {consequent consequent' : Stmt}
      {alternative alternative' : Option Stmt} (asked : rule.expression marks condition)
      (second : Stmt.Renames respelling rule marks consequent consequent')
      (third : Stmt.OptionRenames respelling rule marks alternative alternative') :
      Stmt.Renames respelling rule marks (.conditional condition consequent alternative)
        (.conditional (condition.rename respelling marks) consequent' alternative')
  | whileLoop {marks : Marks} {condition : Expr} {body body' : Stmt}
      (asked : rule.expression marks condition)
      (second : Stmt.Renames respelling rule marks body body') :
      Stmt.Renames respelling rule marks (.whileLoop condition body)
        (.whileLoop (condition.rename respelling marks) body')
  | forLoop {marks : Marks} {initializer initializer' : Option Stmt}
      {condition increment : Option Expr} {body body' : Stmt}
      (first : Stmt.OptionRenames respelling rule marks initializer initializer')
      (asked : ∀ value ∈ condition, rule.expression marks value)
      (askedThen : ∀ value ∈ increment, rule.expression marks value)
      (fourth : Stmt.Renames respelling rule marks body body') :
      Stmt.Renames respelling rule marks (.forLoop initializer condition increment body)
        (.forLoop initializer' (condition.map (Expr.rename respelling marks))
          (increment.map (Expr.rename respelling marks)) body')
  | function {marks : Marks} {declaration declaration' : FunctionDecl}
      (kept : rule.fixed marks declaration.name)
      (parts : FunctionDecl.Renames respelling rule marks declaration declaration') :
      Stmt.Renames respelling rule marks (.function declaration) (.function declaration')
  | returning {marks : Marks} {keyword : Token} {value : Option Expr}
      (asked : ∀ returned ∈ value, rule.expression marks returned) :
      Stmt.Renames respelling rule marks (.returning keyword value)
        (.returning keyword (value.map (Expr.rename respelling marks)))
  | classDecl {marks : Marks} {name : Token} {superclass : Option Expr}
      {methods methods' : List FunctionDecl} (kept : rule.fixed marks name)
      (asked : ∀ value ∈ superclass, rule.expression marks value)
      (parts : FunctionDecl.ListRenames respelling rule (marks.inside superclass) methods
        methods') :
      Stmt.Renames respelling rule marks (.classDecl name superclass methods)
        (.classDecl name (superclass.map (Expr.rename respelling marks)) methods')

/-- Statements are renamed one by one. -/
inductive Stmt.ListRenames (respelling : Respelling) (rule : Respelling.Rule) :
    Marks → List Stmt → List Stmt → Prop where
  | nil {marks : Marks} : Stmt.ListRenames respelling rule marks [] []
  | cons {marks : Marks} {first first' : Stmt} {rest rest' : List Stmt}
      (head : Stmt.Renames respelling rule marks first first')
      (tail : Stmt.ListRenames respelling rule marks rest rest') :
      Stmt.ListRenames respelling rule marks (first :: rest) (first' :: rest')

/-- A statement is renamed, if there is one. -/
inductive Stmt.OptionRenames (respelling : Respelling) (rule : Respelling.Rule) :
    Marks → Option Stmt → Option Stmt → Prop where
  | none {marks : Marks} : Stmt.OptionRenames respelling rule marks none none
  | some {marks : Marks} {statement statement' : Stmt}
      (parts : Stmt.Renames respelling rule marks statement statement') :
      Stmt.OptionRenames respelling rule marks (some statement) (some statement')

/-- A function is renamed. Its parameters and its body are in one scope. -/
inductive FunctionDecl.Renames (respelling : Respelling) (rule : Respelling.Rule) :
    Marks → FunctionDecl → FunctionDecl → Prop where
  | intro {marks : Marks} {name : Token} {parameters : List Token} {body body' : List Stmt}
      (mark : Bool) (declares : mark = true → rule.scope parameters body)
      (listed : ∀ parameter ∈ parameters, rule.variable (mark :: marks) parameter)
      (parts : Stmt.ListRenames respelling rule (mark :: marks) body body') :
      FunctionDecl.Renames respelling rule marks ⟨name, parameters, body⟩
        ⟨name, parameters.map (respelling.token mark), body'⟩

/-- Functions are renamed one by one. -/
inductive FunctionDecl.ListRenames (respelling : Respelling) (rule : Respelling.Rule) :
    Marks → List FunctionDecl → List FunctionDecl → Prop where
  | nil {marks : Marks} : FunctionDecl.ListRenames respelling rule marks [] []
  | cons {marks : Marks} {first first' : FunctionDecl} {rest rest' : List FunctionDecl}
      (head : FunctionDecl.Renames respelling rule marks first first')
      (tail : FunctionDecl.ListRenames respelling rule marks rest rest') :
      FunctionDecl.ListRenames respelling rule marks (first :: rest) (first' :: rest')

end

/-- A function keeps its name. -/
theorem FunctionDecl.Renames.name {respelling : Respelling} {rule : Respelling.Rule}
    {marks : Marks} {declaration declaration' : FunctionDecl}
    (renames : declaration.Renames respelling rule marks declaration') :
    declaration'.name = declaration.name := by
  cases renames
  rfl

theorem Stmt.ListRenames.forall₂ {respelling : Respelling} {rule : Respelling.Rule}
    {marks : Marks} {body body' : List Stmt}
    (renames : Stmt.ListRenames respelling rule marks body body') :
    List.Forall₂ (Stmt.Renames respelling rule marks) body body' := by
  induction body generalizing body' with
  | nil =>
      cases renames
      exact .nil
  | cons first rest ih =>
      cases renames with
      | cons head tail => exact .cons head (ih tail)

theorem FunctionDecl.ListRenames.forall₂ {respelling : Respelling} {rule : Respelling.Rule}
    {marks : Marks} {methods methods' : List FunctionDecl}
    (renames : FunctionDecl.ListRenames respelling rule marks methods methods') :
    List.Forall₂ (FunctionDecl.Renames respelling rule marks) methods methods' := by
  induction methods generalizing methods' with
  | nil =>
      cases renames
      exact .nil
  | cons first rest ih =>
      cases renames with
      | cons head tail => exact .cons head (ih tail)

/-! ## Two rules -/

/-- The name changes only in scopes that declare it as a variable or parameter. -/
def Respelling.declared (respelling : Respelling) : Respelling.Rule where
  expression _ _ := True
  «variable» _ _ := True
  fixed _ _ := True
  scope parameters body :=
    respelling.old ∈ parameters.map Token.lexeme ++ Stmt.listVariables body

mutual

/-- The new name is not used in an expression, and the keywords in it are no names. -/
def Expr.Apart (respelling : Respelling) : Expr → Prop
  | .literal _ => True
  | .grouping inner => inner.Apart respelling
  | .unary _ operand => operand.Apart respelling
  | .binary left _ right => left.Apart respelling ∧ right.Apart respelling
  | .logical left _ right => left.Apart respelling ∧ right.Apart respelling
  | .variable reference => reference.name.lexeme ≠ respelling.new
  | .assign reference value => reference.name.lexeme ≠ respelling.new ∧ value.Apart respelling
  | .call callee _ arguments => callee.Apart respelling ∧ Expr.ListApart respelling arguments
  | .get object _ => object.Apart respelling
  | .set object _ value => object.Apart respelling ∧ value.Apart respelling
  | .this reference | .super reference _ =>
      reference.name.lexeme ≠ respelling.old ∧ reference.name.lexeme ≠ respelling.new

/-- The new name is used in none of several expressions. -/
def Expr.ListApart (respelling : Respelling) : List Expr → Prop
  | [] => True
  | first :: rest => first.Apart respelling ∧ Expr.ListApart respelling rest

end

/-- The new name is neither used nor declared inside a scope in which the name changes,
and no function or class has the old name in such a scope. -/
def Respelling.apart (respelling : Respelling) : Respelling.Rule where
  expression marks value := true ∈ marks → value.Apart respelling
  «variable» marks name := true ∈ marks → name.lexeme ≠ respelling.new
  fixed marks name :=
    (true ∈ marks → name.lexeme ≠ respelling.new) ∧
      (marks.here = true → name.lexeme ≠ respelling.old)
  scope _ _ := True

/-! ## Nothing changes -/

section Unmarked

variable {respelling : Respelling} {marks : Marks}

mutual

theorem Expr.rename_of_unmarked (unmarked : true ∉ marks) :
    (value : Expr) → value.rename respelling marks = value
  | .literal _ => rfl
  | .grouping inner => by rw [Expr.rename, inner.rename_of_unmarked unmarked]
  | .unary _ operand => by rw [Expr.rename, operand.rename_of_unmarked unmarked]
  | .binary left _ right => by
      rw [Expr.rename, left.rename_of_unmarked unmarked, right.rename_of_unmarked unmarked]
  | .logical left _ right => by
      rw [Expr.rename, left.rename_of_unmarked unmarked, right.rename_of_unmarked unmarked]
  | .variable reference => by rw [Expr.rename, Respelling.use_of_unmarked unmarked]
  | .assign reference value => by
      rw [Expr.rename, Respelling.use_of_unmarked unmarked, value.rename_of_unmarked unmarked]
  | .call callee _ arguments => by
      rw [Expr.rename, callee.rename_of_unmarked unmarked,
        Expr.listRename_of_unmarked unmarked arguments]
  | .get object _ => by rw [Expr.rename, object.rename_of_unmarked unmarked]
  | .set object _ value => by
      rw [Expr.rename, object.rename_of_unmarked unmarked, value.rename_of_unmarked unmarked]
  | .this _ => rfl
  | .super _ _ => rfl

theorem Expr.listRename_of_unmarked (unmarked : true ∉ marks) :
    (values : List Expr) → Expr.listRename respelling marks values = values
  | [] => rfl
  | first :: rest => by
      rw [Expr.listRename, first.rename_of_unmarked unmarked,
        Expr.listRename_of_unmarked unmarked rest]

end

theorem Expr.map_rename_of_unmarked (unmarked : true ∉ marks) (value : Option Expr) :
    value.map (Expr.rename respelling marks) = value := by
  cases value with
  | none => rfl
  | some value => exact congrArg some (value.rename_of_unmarked unmarked)

/-- Nothing is asked where the name changes in no scope around. -/
theorem Respelling.apart_of_unmarked {property : Prop} (unmarked : true ∉ marks) :
    true ∈ marks → property :=
  fun marked => absurd marked unmarked

theorem Respelling.fixed_of_unmarked (unmarked : true ∉ marks) (name : Token) :
    respelling.apart.fixed marks name :=
  ⟨apart_of_unmarked unmarked, fun here => by
    rw [Marks.here_of_unmarked unmarked] at here
    nomatch here⟩

theorem Stmt.Renames.of_eq {rule : Respelling.Rule} {statement other third : Stmt}
    (renames : statement.Renames respelling rule marks other) (same : other = third) :
    statement.Renames respelling rule marks third :=
  same ▸ renames

mutual

/-- Every statement is renamed to itself where the name changes in no scope around. -/
theorem Stmt.renames_self {marks : Marks} (unmarked : true ∉ marks) :
    (statement : Stmt) → statement.Renames respelling respelling.apart marks statement
  | .expression value =>
      (Stmt.Renames.expression (Respelling.apart_of_unmarked unmarked)).of_eq
        (by rw [value.rename_of_unmarked unmarked])
  | .print value =>
      (Stmt.Renames.print (Respelling.apart_of_unmarked unmarked)).of_eq
        (by rw [value.rename_of_unmarked unmarked])
  | .var name initializer =>
      (Stmt.Renames.var (Respelling.apart_of_unmarked unmarked)
        fun _ _ => Respelling.apart_of_unmarked unmarked).of_eq
        (by rw [Marks.here_of_unmarked unmarked, Respelling.token_false,
          Expr.map_rename_of_unmarked unmarked])
  | .block body =>
      .block false (nomatch ·) (Stmt.listRenames_self (Marks.unmarked_cons unmarked) body)
  | .conditional condition consequent alternative =>
      (Stmt.Renames.conditional (Respelling.apart_of_unmarked unmarked)
        (consequent.renames_self unmarked) (Stmt.optionRenames_self unmarked alternative)).of_eq
        (by rw [condition.rename_of_unmarked unmarked])
  | .whileLoop condition body =>
      (Stmt.Renames.whileLoop (Respelling.apart_of_unmarked unmarked)
        (body.renames_self unmarked)).of_eq (by rw [condition.rename_of_unmarked unmarked])
  | .forLoop initializer condition increment body =>
      (Stmt.Renames.forLoop (Stmt.optionRenames_self unmarked initializer)
        (fun _ _ => Respelling.apart_of_unmarked unmarked)
        (fun _ _ => Respelling.apart_of_unmarked unmarked) (body.renames_self unmarked)).of_eq
        (by rw [Expr.map_rename_of_unmarked unmarked, Expr.map_rename_of_unmarked unmarked])
  | .function declaration =>
      .function (Respelling.fixed_of_unmarked unmarked _) (declaration.renames_self unmarked)
  | .returning keyword value =>
      (Stmt.Renames.returning fun _ _ => Respelling.apart_of_unmarked unmarked).of_eq
        (by rw [Expr.map_rename_of_unmarked unmarked])
  | .classDecl name superclass methods =>
      (Stmt.Renames.classDecl (Respelling.fixed_of_unmarked unmarked name)
        (fun _ _ => Respelling.apart_of_unmarked unmarked)
        (FunctionDecl.listRenames_self (Marks.unmarked_inside superclass unmarked)
          methods)).of_eq (by rw [Expr.map_rename_of_unmarked unmarked])

theorem Stmt.listRenames_self {marks : Marks} (unmarked : true ∉ marks) :
    (statements : List Stmt) →
      Stmt.ListRenames respelling respelling.apart marks statements statements
  | [] => .nil
  | first :: rest => .cons (first.renames_self unmarked) (Stmt.listRenames_self unmarked rest)

theorem Stmt.optionRenames_self {marks : Marks} (unmarked : true ∉ marks) :
    (statement : Option Stmt) →
      Stmt.OptionRenames respelling respelling.apart marks statement statement
  | none => .none
  | some statement => .some (statement.renames_self unmarked)

theorem FunctionDecl.renames_self {marks : Marks} (unmarked : true ∉ marks) :
    (declaration : FunctionDecl) →
      declaration.Renames respelling respelling.apart marks declaration
  | ⟨name, parameters, body⟩ => by
      have renamed : FunctionDecl.Renames respelling respelling.apart marks
          ⟨name, parameters, body⟩ ⟨name, parameters.map (respelling.token false), body⟩ :=
        .intro false (nomatch ·)
          (fun _ _ => Respelling.apart_of_unmarked (Marks.unmarked_cons unmarked))
          (Stmt.listRenames_self (Marks.unmarked_cons unmarked) body)
      have kept : parameters.map (respelling.token false) = parameters :=
        List.map_id'' respelling.token_false parameters
      rwa [kept] at renamed

theorem FunctionDecl.listRenames_self {marks : Marks} (unmarked : true ∉ marks) :
    (declarations : List FunctionDecl) →
      FunctionDecl.ListRenames respelling respelling.apart marks declarations declarations
  | [] => .nil
  | first :: rest =>
      .cons (first.renames_self unmarked) (FunctionDecl.listRenames_self unmarked rest)

end

end Unmarked

end Lox
