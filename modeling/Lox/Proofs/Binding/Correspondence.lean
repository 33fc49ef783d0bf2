import Lox.Binding.Analysis
import Lox.Proofs.Syntax.Alike

/-!
# Programs alike are bound alike

Binding looks at names and not at the numbers of their uses. So programs alike
are bound in the same way: with the same faults, and with the same distance for
numbers that stand for each other.
-/

namespace Lox

/-- Two analyses in the same state, up to the numbers that distances belong to. -/
structure Analysis.Alike (likeness : Likeness) (one other : Analysis) : Prop where
  scopes : one.scopes = other.scopes
  body : one.body = other.body
  enclosure : one.enclosure = other.enclosure
  faults : List.Forall₂ (Diagnostic.Alike likeness) one.faults other.faults
  distances : ∀ {number number' : Nat}, likeness.number number number' →
    one.distances.get? number = other.distances.get? number'

namespace Analysis

variable {likeness : Likeness} {one other : Analysis} {token token' : Token}
variable {reference reference' : Reference}

/-! ## Scopes and names -/

theorem alike_start {distances distances' : Distances} (noted : ∀ {number number' : Nat},
    likeness.number number number' → distances.get? number = distances'.get? number') :
    (start distances).Alike likeness (start distances') :=
  ⟨rfl, rfl, rfl, .nil, noted⟩

/-- The same scopes in both analyses. -/
theorem Alike.withScopes (alike : one.Alike likeness other) (scopes : List (Bindings Readiness)) :
    Analysis.Alike likeness { one with scopes := scopes } { other with scopes := scopes } :=
  ⟨rfl, alike.body, alike.enclosure, alike.faults, alike.distances⟩

theorem Alike.report (alike : one.Alike likeness other) (same : likeness.token token token')
    (fault : BindingFault) :
    (one.report token fault).Alike likeness (other.report token' fault) :=
  ⟨alike.scopes, alike.body, alike.enclosure,
    List.rel_append alike.faults (.cons (Diagnostic.alike_atToken _ _ same) .nil),
    alike.distances⟩

theorem Alike.openScope (alike : one.Alike likeness other) :
    one.openScope.Alike likeness other.openScope := by
  unfold Analysis.openScope
  rw [alike.scopes]
  exact alike.withScopes _

theorem Alike.closeScope (alike : one.Alike likeness other) :
    one.closeScope.Alike likeness other.closeScope := by
  unfold Analysis.closeScope
  rw [alike.scopes]
  exact alike.withScopes _

theorem Alike.withBody (alike : one.Alike likeness other) (body : Body) :
    (one.withBody body).Alike likeness (other.withBody body) :=
  ⟨alike.scopes, rfl, alike.enclosure, alike.faults, alike.distances⟩

theorem Alike.withEnclosure (alike : one.Alike likeness other) (enclosure : Enclosure) :
    (one.withEnclosure enclosure).Alike likeness (other.withEnclosure enclosure) :=
  ⟨alike.scopes, alike.body, rfl, alike.faults, alike.distances⟩

theorem Alike.define (alike : one.Alike likeness other) (name : String) :
    (one.define name).Alike likeness (other.define name) := by
  unfold Analysis.define
  rw [alike.scopes]
  split
  · exact alike
  · exact alike.withScopes _

theorem Alike.declare (alike : one.Alike likeness other) (same : likeness.token token token') :
    (one.declare token).Alike likeness (other.declare token') := by
  unfold Analysis.declare
  rw [alike.scopes, likeness.lexeme same]
  split
  · exact alike
  · split
    · exact alike.report same _
    · exact alike.withScopes _

theorem Alike.introduce (alike : one.Alike likeness other) (same : likeness.token token token') :
    (one.introduce token).Alike likeness (other.introduce token') := by
  unfold Analysis.introduce
  rw [likeness.lexeme same]
  exact (alike.declare same).define _

theorem Alike.introduceAll (alike : one.Alike likeness other) {names names' : List Token}
    (same : List.Forall₂ likeness.token names names') :
    (names.foldl (fun analysis name => analysis.introduce name) one).Alike likeness
      (names'.foldl (fun analysis name => analysis.introduce name) other) := by
  induction same generalizing one other with
  | nil => exact alike
  | cons first _ ih => exact ih (alike.introduce first)

theorem Alike.isPending (alike : one.Alike likeness other) (name : String) :
    one.isPending name = other.isPending name := by
  unfold Analysis.isPending
  rw [alike.scopes]

/-! ## Uses of names -/

section Uses

variable (apart : likeness.OneToOne)
include apart

/-- Noting a distance for two numbers that stand for each other. -/
theorem Alike.bind (alike : one.Alike likeness other) (use : reference.Alike likeness reference') :
    (one.bind reference).Alike likeness (other.bind reference') := by
  unfold Analysis.bind
  rw [alike.scopes, likeness.lexeme use.name]
  split
  · refine ⟨rfl, alike.body, alike.enclosure, alike.faults, ?_⟩
    intro number number' paired
    simp only [Distances.get?_note, apart use.id paired, alike.distances paired]
  · exact alike

theorem Alike.bindVariable (alike : one.Alike likeness other)
    (use : reference.Alike likeness reference') :
    (one.bindVariable reference).Alike likeness (other.bindVariable reference') := by
  unfold Analysis.bindVariable
  rw [likeness.lexeme use.name, alike.isPending]
  split
  · exact alike.report use.name _
  · exact alike.bind apart use

theorem Alike.bindThis (alike : one.Alike likeness other)
    (use : reference.Alike likeness reference') :
    (one.bindThis reference).Alike likeness (other.bindThis reference') := by
  unfold Analysis.bindThis
  rw [alike.enclosure]
  split
  · exact alike.report use.name _
  · exact alike.bind apart use

theorem Alike.bindSuper (alike : one.Alike likeness other)
    (use : reference.Alike likeness reference') :
    (one.bindSuper reference).Alike likeness (other.bindSuper reference') := by
  unfold Analysis.bindSuper
  rw [alike.enclosure]
  split
  · exact alike.report use.name _
  · exact alike.report use.name _
  · exact alike.bind apart use

end Uses

/-! ## Checks -/

theorem Alike.checkReturn (alike : one.Alike likeness other)
    (same : likeness.token token token') (hasValue : Bool) :
    (one.checkReturn token hasValue).Alike likeness (other.checkReturn token' hasValue) := by
  unfold Analysis.checkReturn
  rw [alike.body]
  split
  · exact alike.report same _
  · split
    · exact alike.report same _
    · exact alike
  · exact alike

theorem Alike.checkSuperclass (alike : one.Alike likeness other)
    (same : likeness.token token token') {superclass superclass' : Expr}
    (parts : superclass.Alike likeness superclass') :
    (one.checkSuperclass token superclass).Alike likeness
      (other.checkSuperclass token' superclass') := by
  cases parts with
  | «variable» use =>
      unfold Analysis.checkSuperclass
      dsimp only
      rw [likeness.lexeme use.name, likeness.lexeme same]
      split
      · exact alike.report use.name _
      · exact alike
  | _ => exact alike

/-! ## Expressions -/

mutual

theorem alike_expr (apart : likeness.OneToOne) {value value' : Expr} {one other : Analysis} :
    value.Alike likeness value' → one.Alike likeness other →
      (expr value one).Alike likeness (expr value' other)
  | .literal _, alike => alike
  | .grouping parts, alike => (alike_expr apart parts alike :)
  | .unary _ parts, alike => (alike_expr apart parts alike :)
  | .binary first _ second, alike => (alike_expr apart second (alike_expr apart first alike) :)
  | .logical first _ second, alike => (alike_expr apart second (alike_expr apart first alike) :)
  | .variable use, alike => alike.bindVariable apart use
  | .assign use parts, alike => (alike_expr apart parts alike).bind apart use
  | .call first _ parts, alike => alike_exprs apart parts (alike_expr apart first alike)
  | .get parts _, alike => (alike_expr apart parts alike :)
  | .set first _ second, alike => (alike_expr apart first (alike_expr apart second alike) :)
  | .this use, alike => alike.bindThis apart use
  | .super use _, alike => alike.bindSuper apart use

theorem alike_exprs (apart : likeness.OneToOne) {values values' : List Expr}
    {one other : Analysis} :
    List.Forall₂ (Expr.Alike likeness) values values' → one.Alike likeness other →
      (exprs values one).Alike likeness (exprs values' other)
  | .nil, alike => alike
  | .cons first rest, alike => (alike_exprs apart rest (alike_expr apart first alike) :)

end

theorem alike_optionalExpr (apart : likeness.OneToOne) {value value' : Option Expr}
    (parts : Option.Rel (Expr.Alike likeness) value value') (alike : one.Alike likeness other) :
    (optionalExpr value one).Alike likeness (optionalExpr value' other) := by
  cases parts with
  | none => exact alike
  | some first => exact alike_expr apart first alike

/-! ## Classes -/

theorem Alike.enterClass (apart : likeness.OneToOne) (alike : one.Alike likeness other)
    (same : likeness.token token token') {superclass superclass' : Option Expr}
    (parts : Option.Rel (Expr.Alike likeness) superclass superclass') :
    (one.enterClass token superclass).Alike likeness (other.enterClass token' superclass') := by
  have declared := (alike.withEnclosure .baseClass).introduce same
  cases parts with
  | none => exact declared.openScope.define "this"
  | some first =>
      have checked := (declared.checkSuperclass same first).withEnclosure .subclass
      have inherited := (alike_expr apart first checked).openScope.define "super"
      exact inherited.openScope.define "this"

theorem Alike.leaveClass (alike : one.Alike likeness other) {superclass superclass' : Option Expr}
    (parts : Option.Rel (Expr.Alike likeness) superclass superclass') (enclosure : Enclosure) :
    (one.leaveClass superclass enclosure).Alike likeness
      (other.leaveClass superclass' enclosure) := by
  cases parts with
  | none => exact alike.closeScope.withEnclosure enclosure
  | some _ => exact alike.closeScope.closeScope.withEnclosure enclosure

/-! ## Statements -/

mutual

theorem alike_stmt (apart : likeness.OneToOne) {statement statement' : Stmt}
    {one other : Analysis} :
    statement.Alike likeness statement' → one.Alike likeness other →
      (stmt statement one).Alike likeness (stmt statement' other)
  | .expression parts, alike => alike_expr apart parts alike
  | .print parts, alike => alike_expr apart parts alike
  | .var token parts, alike => by
      unfold stmt
      rw [likeness.lexeme token]
      exact (alike_optionalExpr apart parts (alike.declare token)).define _
  | .block parts, alike => (alike_stmts apart parts alike.openScope).closeScope
  | .conditional first second third, alike =>
      alike_optionalStmt apart third (alike_stmt apart second (alike_expr apart first alike))
  | .whileLoop first second, alike =>
      (alike_stmt apart second (alike_expr apart first alike) :)
  | .forLoop first second third fourth, alike =>
      (alike_stmt apart fourth (alike_optionalExpr apart third
        (alike_optionalExpr apart second (alike_optionalStmt apart first alike))) :)
  | .function parts, alike => alike_functionBody apart .function parts (alike.introduce parts.name)
  | .returning token .none, alike => alike.checkReturn token false
  | .returning token (.some first), alike => alike_expr apart first (alike.checkReturn token true)
  | .classDecl token first second, alike => by
      unfold stmt
      rw [alike.enclosure]
      exact (alike_methodBodies apart second (alike.enterClass apart token first)).leaveClass
        first _

theorem alike_stmts (apart : likeness.OneToOne) {body body' : List Stmt}
    {one other : Analysis} :
    List.Forall₂ (Stmt.Alike likeness) body body' → one.Alike likeness other →
      (stmts body one).Alike likeness (stmts body' other)
  | .nil, alike => alike
  | .cons first rest, alike => (alike_stmts apart rest (alike_stmt apart first alike) :)

theorem alike_optionalStmt (apart : likeness.OneToOne) {statement statement' : Option Stmt}
    {one other : Analysis} :
    Option.Rel (Stmt.Alike likeness) statement statement' → one.Alike likeness other →
      (optionalStmt statement one).Alike likeness (optionalStmt statement' other)
  | .none, alike => alike
  | .some first, alike => alike_stmt apart first alike

theorem alike_functionBody (apart : likeness.OneToOne) (body : Body)
    {declaration declaration' : FunctionDecl} {one other : Analysis} :
    declaration.Alike likeness declaration' → one.Alike likeness other →
      (functionBody declaration body one).Alike likeness (functionBody declaration' body other)
  | .intro _ listed parts, alike => by
      unfold functionBody
      rw [alike.body]
      exact ((alike_stmts apart parts
        ((alike.withBody body).openScope.introduceAll listed)).closeScope).withBody _

theorem alike_methodBodies (apart : likeness.OneToOne) {methods methods' : List FunctionDecl}
    {one other : Analysis} :
    List.Forall₂ (FunctionDecl.Alike likeness) methods methods' → one.Alike likeness other →
      (methodBodies methods one).Alike likeness (methodBodies methods' other)
  | .nil, alike => alike
  | .cons first rest, alike => by
      unfold methodBodies
      rw [likeness.lexeme first.name]
      exact alike_methodBodies apart rest (alike_functionBody apart _ first alike)

end

end Analysis

/-- Programs alike are bound with the same faults, and with the same distances
for numbers that stand for each other. -/
theorem alike_bindProgram {likeness : Likeness} (apart : likeness.OneToOne)
    {program program' : List Stmt} (alike : List.Forall₂ (Stmt.Alike likeness) program program')
    {distances distances' : Distances} (noted : ∀ {number number' : Nat},
      likeness.number number number' → distances.get? number = distances'.get? number') :
    List.Forall₂ (Diagnostic.Alike likeness) (bindProgram program distances).1
        (bindProgram program' distances').1 ∧
      ∀ {number number' : Nat}, likeness.number number number' →
        (bindProgram program distances).2.get? number =
          (bindProgram program' distances').2.get? number' :=
  have bound := Analysis.alike_stmts apart alike (Analysis.alike_start noted)
  ⟨bound.faults, bound.distances⟩

end Lox
