import Lox.Proofs.Binding.Keywords
import Lox.Proofs.Expansion.Accepted

/-!
# Distances in expanded programs

Where there are scopes in between, a name is farther away in the expanded program, and
nowhere else. That follows from what is known of each use where the analysis comes to it,
in the program and in the expanded one, so it does not matter that the analysis comes to
the parts of an expanded loop in another order.
-/

namespace Lox

/-! ## Expressions -/

/-- The distances that are noted for a program, and those for the expanded one. -/
structure Expansion where
  plain : Distances
  expanded : Distances

/-- Nothing is between the scope at a distance and the next one inside of it. -/
def Padding.Adjoins (padding : Padding) : Nat → Prop
  | 0 => padding.shift 0 = 0
  | distance + 1 => padding.shift (distance + 1) = padding.shift distance + 1

namespace Expansion

variable (expansion : Expansion) (padding : Padding)

/-- The distance of a use of a name is that of the same scope. -/
def Shifts (reference : Reference) : Prop :=
  expansion.expanded.get? reference.id = (expansion.plain.get? reference.id).map padding.shift

mutual

/-- The distances in an expression are those of the same scopes, and where `super` is
found, `this` is in the next scope. -/
def Suits : Expr → Prop
  | .literal _ => True
  | .grouping inner => Suits inner
  | .unary _ operand => Suits operand
  | .binary left _ right => Suits left ∧ Suits right
  | .logical left _ right => Suits left ∧ Suits right
  | .variable reference => expansion.Shifts padding reference
  | .assign reference value => expansion.Shifts padding reference ∧ Suits value
  | .call callee _ arguments => Suits callee ∧ ListSuits arguments
  | .get object _ => Suits object
  | .set object _ value => Suits object ∧ Suits value
  | .this reference => expansion.Shifts padding reference
  | .super reference _ => expansion.Shifts padding reference ∧
      ∀ distance ∈ expansion.plain.get? reference.id, padding.Adjoins distance

/-- The distances in several expressions are those of the same scopes. -/
def ListSuits : List Expr → Prop
  | [] => True
  | first :: rest => Suits first ∧ ListSuits rest

end

/-- Distances suit in all expressions, declarations are in scopes that both programs have,
and what is moved out of a loop is no statement with others in it. -/
def rule (expansion : Expansion) : Padding.Rule where
  expression := expansion.Suits
  declaration padding := ∃ outer, padding = 0 :: outer
  clause statement := (∃ name initializer, statement = .var name initializer) ∨
    ∃ value, statement = .expression value

end Expansion

/-! ## Scopes of the analysis -/

/-- The scopes of the analysis at a point of a program and of the expanded one. -/
inductive Padding.Spaces :
    Padding → List (Bindings Readiness) → List (Bindings Readiness) → Prop where
  | outside : Padding.Spaces [0] [] []
  | scope {padding : Padding} {outer outer' : List (Bindings Readiness)}
      (here : Bindings Readiness) (around : padding.Spaces outer outer') :
      Padding.Spaces (0 :: padding) (here :: outer) (here :: outer')
  | between {padding : Padding} {scopes scopes' : List (Bindings Readiness)}
      (around : padding.Spaces scopes scopes') :
      Padding.Spaces padding.deepen scopes (.empty :: scopes')

namespace Padding.Spaces

variable {padding : Padding} {scopes scopes' : List (Bindings Readiness)}

theorem nearest (spaces : padding.Spaces scopes scopes') (name : String) :
    nearest scopes' name = (Lox.nearest scopes name).map padding.shift := by
  induction spaces with
  | outside => rfl
  | @scope padding outer outer' here around ih =>
      rw [nearest_cons, nearest_cons, ih]
      split
      · rfl
      · cases Lox.nearest outer name <;> simp
  | @between padding scopes scopes' around ih =>
      rw [nearest_empty_cons, ih]
      cases Lox.nearest scopes name <;> simp

/-- Between the scopes that both programs have, nothing is declared. -/
theorem atLevel {outer : Padding} (spaces : Padding.Spaces (0 :: outer) scopes scopes') :
    (scopes = [] ∧ scopes' = []) ∨ ∃ here inner inner', scopes = here :: inner ∧
      scopes' = here :: inner' ∧ outer.Spaces inner inner' := by
  generalize shape : 0 :: outer = padding at spaces
  cases spaces with
  | outside => exact .inl ⟨rfl, rfl⟩
  | scope here around =>
      cases shape
      exact .inr ⟨here, _, _, rfl, rfl, around⟩
  | @between padding =>
      cases padding <;> cases shape

theorem declaring {names : List String} (spaces : padding.Spaces scopes scopes')
    (level : names = [] ∨ ∃ outer, padding = 0 :: outer) :
    padding.Spaces (declaring names scopes) (Lox.declaring names scopes') := by
  rcases level with rfl | ⟨outer, rfl⟩
  · simpa using spaces
  · rcases spaces.atLevel with ⟨rfl, rfl⟩ | ⟨here, inner, inner', rfl, rfl, around⟩
    · exact spaces
    · exact .scope _ around

theorem declare {one other : Analysis} {outer : Padding}
    (spaces : Padding.Spaces (0 :: outer) one.scopes other.scopes) (name : Token) :
    Padding.Spaces (0 :: outer) (one.declare name).scopes (other.declare name).scopes := by
  rcases spaces.atLevel with ⟨none, none'⟩ | ⟨here, inner, inner', shape, shape', around⟩
  · unfold Analysis.declare
    rw [none, none']
    dsimp only
    rwa [none, none'] at spaces ⊢
  · unfold Analysis.declare
    rw [shape, shape']
    dsimp only
    split
    · exact spaces
    · exact .scope _ around

end Padding.Spaces

/-! ## Visits -/

/-- A visit that binding has nothing against, with what it knows of `this` and `super`. -/
structure Visit.Legal (final : Distances) (visit : Visit) : Prop where
  accepted : visit.Accepted final
  guarded : visit.Guarded

theorem Visit.Legal.contains {final : Distances} {outer inner : Visit} (legal : outer.Legal final)
    (contains : outer.Contains inner) : inner.Legal final :=
  ⟨legal.accepted.contains contains, contains.guarded legal.accepted.placed legal.guarded⟩

/-- The statements of a list are visited one behind the other. -/
def Stmt.ListLegal (final : Distances) (body : List Stmt) (analysis : Analysis) : Prop :=
  ∀ front statement back, body = front ++ statement :: back →
    ∃ loose, Visit.Legal final ⟨.stmt statement, analysis.stmts front, loose⟩

theorem Stmt.ListLegal.append {final : Distances} {front back : List Stmt} {analysis : Analysis}
    (legal : Stmt.ListLegal final (front ++ back) analysis) :
    Stmt.ListLegal final front analysis ∧ Stmt.ListLegal final back (analysis.stmts front) := by
  constructor
  · rintro before statement behind rfl
    exact legal before statement (behind ++ back) (by simp)
  · rintro before statement behind rfl
    obtain ⟨loose, visit⟩ := legal (front ++ before) statement behind (by simp)
    rw [Analysis.stmts_append] at visit
    exact ⟨loose, visit⟩

theorem Stmt.ListLegal.cons {final : Distances} {first : Stmt} {rest : List Stmt}
    {analysis : Analysis} (legal : Stmt.ListLegal final (first :: rest) analysis) :
    (∃ loose, Visit.Legal final ⟨.stmt first, analysis, loose⟩) ∧
      Stmt.ListLegal final rest (analysis.stmt first) :=
  ⟨legal [] first rest rfl, (@Stmt.ListLegal.append _ [first] _ _ legal).2⟩

open Analysis

variable {expansion : Expansion} {padding : Padding} {loose loose' : List (List String)}

namespace Expansion

mutual

theorem suits_of_legal {one other : Analysis} (spaces : padding.Spaces one.scopes other.scopes) :
    (value : Expr) → Visit.Legal expansion.plain ⟨.expr value, one, loose⟩ →
      Visit.Legal expansion.expanded ⟨.expr value, other, loose'⟩ → expansion.Suits padding value
  | .literal _, _, _ => trivial
  | .grouping inner, legal, legal' =>
      suits_of_legal spaces inner (legal.contains .grouping) (legal'.contains .grouping)
  | .unary _ operand, legal, legal' =>
      suits_of_legal spaces operand (legal.contains .operand) (legal'.contains .operand)
  | .binary left _ right, legal, legal' =>
      ⟨suits_of_legal spaces left (legal.contains .left) (legal'.contains .left),
        suits_of_legal (by simpa using spaces) right (legal.contains .right)
          (legal'.contains .right)⟩
  | .logical left _ right, legal, legal' =>
      ⟨suits_of_legal spaces left (legal.contains .logicalLeft) (legal'.contains .logicalLeft),
        suits_of_legal (by simpa using spaces) right (legal.contains .logicalRight)
          (legal'.contains .logicalRight)⟩
  | .variable reference, legal, legal' => by
      unfold Suits Shifts
      rw [legal.accepted.variable.1, legal'.accepted.variable.1, spaces.nearest]
  | .assign reference value, legal, legal' => by
      refine ⟨?_, suits_of_legal spaces value (legal.contains .assigned)
        (legal'.contains .assigned)⟩
      unfold Shifts
      rw [legal.accepted.assign, legal'.accepted.assign, spaces.nearest]
  | .call callee _ arguments, legal, legal' => by
      have behind : padding.Spaces (expr callee one).scopes (expr callee other).scopes := by
        simpa using spaces
      refine ⟨suits_of_legal spaces callee (legal.contains .callee) (legal'.contains .callee),
        listSuits_of_legal behind arguments ?_ ?_⟩
      · rintro front value back rfl
        exact legal.contains .argument
      · rintro front value back rfl
        exact legal'.contains .argument
  | .get object _, legal, legal' =>
      suits_of_legal spaces object (legal.contains .object) (legal'.contains .object)
  | .set object _ value, legal, legal' =>
      ⟨suits_of_legal (by simpa using spaces) object (legal.contains .changed)
        (legal'.contains .changed),
        suits_of_legal spaces value (legal.contains .stored) (legal'.contains .stored)⟩
  | .this reference, legal, legal' => by
      unfold Suits Shifts
      rw [legal.accepted.this, legal'.accepted.this, spaces.nearest]
  | .super reference _, legal, legal' => by
      obtain ⟨distance, noted, this, super⟩ := legal.accepted.super_bound legal.guarded
      obtain ⟨distance', noted', this', super'⟩ := legal'.accepted.super_bound legal'.guarded
      rw [spaces.nearest, this, Option.map_some, Option.some.injEq] at this'
      rw [spaces.nearest, super, Option.map_some, Option.some.injEq] at super'
      constructor
      · unfold Shifts
        rw [noted, noted', Option.map_some, super']
      · rw [noted]
        rintro _ ⟨⟩
        rw [Padding.Adjoins, super', this']

theorem listSuits_of_legal {one other : Analysis}
    (spaces : padding.Spaces one.scopes other.scopes) :
    (values : List Expr) →
      (∀ front value back, values = front ++ value :: back →
        Visit.Legal expansion.plain ⟨.expr value, exprs front one, loose⟩) →
      (∀ front value back, values = front ++ value :: back →
        Visit.Legal expansion.expanded ⟨.expr value, exprs front other, loose'⟩) →
      expansion.ListSuits padding values
  | [], _, _ => trivial
  | first :: rest, legal, legal' => by
      have behind : padding.Spaces (expr first one).scopes (expr first other).scopes := by
        simpa using spaces
      refine ⟨suits_of_legal spaces first (legal [] first rest rfl) (legal' [] first rest rfl),
        listSuits_of_legal behind rest ?_ ?_⟩
      · rintro front value back rfl
        exact legal (first :: front) value back rfl
      · rintro front value back rfl
        exact legal' (first :: front) value back rfl

end

theorem optionSuits_of_legal {one other : Analysis} {value : Option Expr}
    (spaces : padding.Spaces one.scopes other.scopes)
    (legal : ∀ inner ∈ value, ∃ loose, Visit.Legal expansion.plain ⟨.expr inner, one, loose⟩)
    (legal' : ∀ inner ∈ value,
      ∃ loose, Visit.Legal expansion.expanded ⟨.expr inner, other, loose⟩) :
    ∀ inner ∈ value, expansion.Suits padding inner := by
  intro inner inside
  obtain ⟨_, here⟩ := legal inner inside
  obtain ⟨_, here'⟩ := legal' inner inside
  exact suits_of_legal spaces inner here here'

end Expansion

/-! ## Statements -/

/-- The scopes of the receiver are the same in both programs. -/
theorem Padding.Spaces.receiver {scopes scopes' : List (Bindings Readiness)}
    (spaces : padding.Spaces scopes scopes') (superclass : Option Expr) :
    Padding.Spaces (padding.inside superclass) (receiverScopes superclass ++ scopes)
      (receiverScopes superclass ++ scopes') := by
  cases superclass with
  | none => exact .scope _ spaces
  | some value => exact .scope _ (.scope _ spaces)

theorem Padding.Spaces.enterFunction {one other : Analysis}
    {declaration declaration' : FunctionDecl}
    (spaces : padding.Spaces one.scopes other.scopes) (body : Body)
    (same : declaration'.parameters = declaration.parameters) :
    Padding.Spaces (0 :: padding) (one.enterFunction declaration body).scopes
      (other.enterFunction declaration' body).scopes := by
  rw [scopes_enterFunction, scopes_enterFunction, same]
  exact Padding.Spaces.declaring (.scope _ spaces) (.inr ⟨_, rfl⟩)

/-- A point of a program where some names are declared is in a scope that both programs
have. -/
def Padding.Admits (padding : Padding) (names : List String) : Prop :=
  names = [] ∨ ∃ outer, padding = 0 :: outer

namespace Padding

theorem admits_append {front back : List String} :
    padding.Admits (front ++ back) ↔ padding.Admits front ∧ padding.Admits back := by
  simp only [Admits, List.append_eq_nil_iff]
  tauto

theorem admits_scope (names : List String) : Admits (0 :: padding) names :=
  .inr ⟨padding, rfl⟩

end Padding

theorem Padding.Spaces.behind {one other : Analysis} {statement statement' : Stmt}
    (spaces : padding.Spaces one.scopes other.scopes) (admits : padding.Admits statement.declares)
    (same : statement'.declares = statement.declares) :
    padding.Spaces (stmt statement one).scopes (stmt statement' other).scopes := by
  rw [scopes_stmt, scopes_stmt, same]
  exact spaces.declaring admits

theorem Padding.Spaces.behindOption {one other : Analysis} {statement statement' : Option Stmt}
    (spaces : padding.Spaces one.scopes other.scopes)
    (admits : padding.Admits (Stmt.optionDeclares statement))
    (same : Stmt.optionDeclares statement' = Stmt.optionDeclares statement) :
    padding.Spaces (optionalStmt statement one).scopes (optionalStmt statement' other).scopes := by
  rw [(passes_optionalStmt statement one).scopes, (passes_optionalStmt statement' other).scopes,
    same]
  exact spaces.declaring admits

/-- A loop stands in a list behind its first clause. -/
theorem Padding.Spaces.behindClause {one other : Analysis} {clause : Option Stmt}
    (spaces : padding.Spaces one.scopes other.scopes)
    (admits : padding.Admits (Stmt.optionDeclares clause)) :
    padding.Spaces (optionalStmt clause one).scopes (stmts clause.toList other).scopes := by
  have begun := spaces.behindOption admits rfl
  cases clause with
  | none => exact begun
  | some statement => exact begun

/-- A loop behind its first clause. -/
theorem Visit.Legal.behindClause {final : Distances} {initializer : Option Stmt}
    {condition increment : Option Expr} {body : Stmt} {analysis : Analysis}
    (legal : Visit.Legal final
      ⟨.stmt (.forLoop initializer condition increment body), analysis, loose⟩) :
    Visit.Legal final
      ⟨.stmt (.forLoop none condition increment body), optionalStmt initializer analysis,
        loose⟩ := by
  cases initializer with
  | none => exact legal
  | some clause => exact legal.contains .forRest

/-- The parts of a loop behind its first clause. -/
theorem Visit.Legal.forLoop {final : Distances} {condition increment : Option Expr} {body : Stmt}
    {analysis : Analysis}
    (legal : Visit.Legal final
      ⟨.stmt (.forLoop none condition increment body), analysis, loose⟩) :
    (∀ value ∈ condition, ∃ loose, Visit.Legal final ⟨.expr value, analysis, loose⟩) ∧
      (∀ value ∈ increment, ∃ loose,
        Visit.Legal final ⟨.expr value, optionalExpr condition analysis, loose⟩) ∧
      Visit.Legal final
        ⟨.stmt body, optionalExpr increment (optionalExpr condition analysis), loose⟩ := by
  refine ⟨?_, ?_, legal.contains .forBody⟩
  · rintro value rfl
    exact ⟨_, legal.contains .forCondition⟩
  · rintro value rfl
    exact ⟨_, legal.contains .forIncrement⟩

/-- What is known inside of the block of an expanded loop. -/
def Analysis.insideWhile (condition : Option Expr) (analysis : Analysis) : Analysis :=
  (expr (condition.getD (.literal (.bool true))) analysis).openScope

@[simp] theorem Analysis.scopes_insideWhile (condition : Option Expr) (analysis : Analysis) :
    (analysis.insideWhile condition).scopes = .empty :: analysis.scopes := by
  simp [insideWhile, openScope]

/-- The parts of an expanded loop. -/
theorem Visit.Legal.whileOf {final : Distances} {condition increment : Option Expr} {body : Stmt}
    {analysis : Analysis}
    (legal : Visit.Legal final ⟨.stmt (.whileOf condition increment body), analysis, loose⟩) :
    (∀ value ∈ condition, ∃ loose, Visit.Legal final ⟨.expr value, analysis, loose⟩) ∧
      (∃ loose, Visit.Legal final ⟨.stmt body, analysis.insideWhile condition, loose⟩) ∧
      ∀ value ∈ increment, ∃ loose,
        Visit.Legal final ⟨.expr value, stmt body (analysis.insideWhile condition), loose⟩ := by
  have block := legal.contains .whileBody
  refine ⟨?_, ⟨_, block.contains (@Visit.Contains.member [] _ _ _ _)⟩, ?_⟩
  · rintro value rfl
    exact ⟨_, legal.contains .whileCondition⟩
  · rintro value rfl
    have last := block.contains (@Visit.Contains.member [body] [] (.expression value) _ _)
    exact ⟨_, last.contains .effect⟩

mutual

/-- In programs that are bound without faults, distances suit wherever loops are expanded. -/
theorem Stmt.Expands.suited {rule : Padding.Rule} {padding : Padding} {one other : Analysis}
    {loose loose' : List (List String)} {statement statement' : Stmt} :
    statement.Expands rule padding statement' →
      Visit.Legal expansion.plain ⟨.stmt statement, one, loose⟩ →
      Visit.Legal expansion.expanded ⟨.stmt statement', other, loose'⟩ →
      padding.Spaces one.scopes other.scopes → padding.Admits statement.declares →
      statement.Expands expansion.rule padding statement'
  | .expression _, legal, legal', spaces, _ =>
      .expression (Expansion.suits_of_legal spaces _ (legal.contains .effect)
        (legal'.contains .effect))
  | .print _, legal, legal', spaces, _ =>
      .print (Expansion.suits_of_legal spaces _ (legal.contains .printed)
        (legal'.contains .printed))
  | @Stmt.Expands.var _ _ name initializer _ _, legal, legal', spaces, admits => by
      obtain ⟨outer, rfl⟩ := admits.resolve_left (List.cons_ne_nil _ _)
      refine .var ⟨outer, rfl⟩ (Expansion.optionSuits_of_legal (spaces.declare name) ?_ ?_)
      · rintro _ rfl
        exact ⟨_, legal.contains .initializer⟩
      · rintro _ rfl
        exact ⟨_, legal'.contains .initializer⟩
  | .block parts, legal, legal', spaces, _ => by
      have opened : Padding.Spaces (0 :: padding) one.openScope.scopes other.openScope.scopes :=
        .scope _ spaces
      refine .block (parts.suited ?_ ?_ opened (Padding.admits_scope _))
      · rintro front inner back rfl
        exact ⟨_, legal.contains .member⟩
      · rintro front inner back rfl
        exact ⟨_, legal'.contains .member⟩
  | @Stmt.Expands.conditional _ _ condition _ _ _ _ _ second third, legal, legal', spaces,
      admits => by
      obtain ⟨first, others⟩ := Padding.admits_append.mp admits
      have tested : padding.Spaces (expr condition one).scopes (expr condition other).scopes := by
        simpa using spaces
      refine .conditional (Expansion.suits_of_legal spaces _ (legal.contains .condition)
        (legal'.contains .condition))
        (second.suited (legal.contains .consequent) (legal'.contains .consequent) tested first)
        (third.suited ?_ ?_ (tested.behind first second.declares) others)
      · rintro _ rfl
        exact ⟨_, legal.contains .alternative⟩
      · rintro _ rfl
        exact ⟨_, legal'.contains .alternative⟩
  | .whileLoop _ second, legal, legal', spaces, admits => by
      refine .whileLoop (Expansion.suits_of_legal spaces _ (legal.contains .whileCondition)
        (legal'.contains .whileCondition))
        (second.suited (legal.contains .whileBody) (legal'.contains .whileBody) ?_ admits)
      simpa using spaces
  | @Stmt.Expands.forLoop _ _ initializer initializer' condition _ _ _ first _ _ fourth, legal,
      legal', spaces, admits => by
      obtain ⟨clause, looped⟩ := Padding.admits_append.mp admits
      have begun := spaces.behindOption clause first.declares
      have tested : padding.Spaces
          (optionalExpr condition (optionalStmt initializer one)).scopes
          (optionalExpr condition (optionalStmt initializer' other)).scopes := by
        simpa using begun
      obtain ⟨test, step, inside⟩ := legal.behindClause.forLoop
      obtain ⟨test', step', inside'⟩ := legal'.behindClause.forLoop
      refine .forLoop (first.suited ?_ ?_ spaces clause)
        (Expansion.optionSuits_of_legal begun test test')
        (Expansion.optionSuits_of_legal tested step step')
        (fourth.suited inside inside' ?_ looped)
      · rintro _ rfl
        exact ⟨_, legal.contains .forInitializer⟩
      · rintro _ rfl
        exact ⟨_, legal'.contains .forInitializer⟩
      · simpa using begun
  | @Stmt.Expands.function _ _ declaration declaration' _ parts, legal, legal', spaces,
      admits => by
      have level := admits.resolve_left (List.cons_ne_nil _ _)
      have named : padding.Spaces (one.introduce declaration.name).scopes
          (other.introduce declaration'.name).scopes := by
        rw [(passes_introduce one _).scopes, (passes_introduce other _).scopes, parts.name]
        exact spaces.declaring admits
      refine .function level (parts.suited .function ?_ ?_ named)
      · rintro front inner back shape
        exact ⟨_, legal.contains (.functionBody shape)⟩
      · rintro front inner back shape
        exact ⟨_, legal'.contains (.functionBody shape)⟩
  | @Stmt.Expands.returning _ _ keyword value _, legal, legal', spaces, _ => by
      have checked : padding.Spaces (one.checkReturn keyword true).scopes
          (other.checkReturn keyword true).scopes := by
        rw [(passes_checkReturn one _ _).scopes, (passes_checkReturn other _ _).scopes]
        simpa using spaces
      refine .returning (Expansion.optionSuits_of_legal checked ?_ ?_)
      · rintro _ rfl
        exact ⟨_, legal.contains .returned⟩
      · rintro _ rfl
        exact ⟨_, legal'.contains .returned⟩
  | @Stmt.Expands.classDecl _ _ name superclass _ _ _ _ parts, legal, legal', spaces,
      admits => by
      have level := admits.resolve_left (List.cons_ne_nil _ _)
      have named := spaces.declaring admits
      have entered : Padding.Spaces (padding.inside superclass)
          (one.enterClass name superclass).scopes (other.enterClass name superclass).scopes := by
        rw [(enterClass_passes one name superclass).2.1,
          (enterClass_passes other name superclass).2.1]
        exact named.receiver superclass
      refine .classDecl level ?_ (parts.suited ?_ ?_ entered)
      · rintro above rfl
        refine Expansion.suits_of_legal ?_ above (legal.contains .superclass)
          (legal'.contains .superclass)
        rwa [scopes_atSuperclass, scopes_atSuperclass]
      · rintro earlier method later rfl front inner back shape
        exact ⟨_, legal.contains (.methodBody shape)⟩
      · rintro earlier method later rfl front inner back shape
        exact ⟨_, legal'.contains (.methodBody shape)⟩

theorem Stmt.ListExpands.suited {rule : Padding.Rule} {padding : Padding} {one other : Analysis}
    {body body' : List Stmt} :
    Stmt.ListExpands rule padding body body' → Stmt.ListLegal expansion.plain body one →
      Stmt.ListLegal expansion.expanded body' other → padding.Spaces one.scopes other.scopes →
      padding.Admits (Stmt.listDeclares body) → Stmt.ListExpands expansion.rule padding body body'
  | .nil, _, _, _, _ => .nil
  | .cons head tail, legal, legal', spaces, admits => by
      obtain ⟨first, rest⟩ := Padding.admits_append.mp admits
      obtain ⟨⟨_, here⟩, behind⟩ := legal.cons
      obtain ⟨⟨_, here'⟩, behind'⟩ := legal'.cons
      exact .cons (head.suited here here' spaces first)
        (tail.suited behind behind' (spaces.behind first head.declares) rest)
  | @Stmt.ListExpands.loop _ _ initializer condition increment body body' rest rest' _ first _ _
      bare fourth tail, legal, legal', spaces, admits => by
      obtain ⟨⟨_, here⟩, behind⟩ := legal.cons
      obtain ⟨begun', looped'⟩ := legal'.append
      obtain ⟨⟨_, here'⟩, behind'⟩ := looped'.cons
      have nothing : body.declares = [] :=
        body.declares_of_not_bare here.accepted.placed.2.2.2.2 here.accepted.placed.2.2.2.1 bare
      obtain ⟨clause, later⟩ := Padding.admits_append.mp admits
      rw [Stmt.declares, nothing, List.append_nil] at clause
      have begun := spaces.behindClause clause
      obtain ⟨tested, stepped, within⟩ := here.behindClause.forLoop
      obtain ⟨tested', ⟨_, within'⟩, stepped'⟩ := here'.whileOf
      have around : padding.deepen.Spaces
          (optionalExpr increment (optionalExpr condition (optionalStmt initializer one))).scopes
          (insideWhile condition (stmts initializer.toList other)).scopes := by
        simpa using begun.between
      have last : padding.deepen.Spaces
          (optionalExpr condition (optionalStmt initializer one)).scopes
          (stmt body' (insideWhile condition (stmts initializer.toList other))).scopes := by
        rw [scopes_stmt, fourth.declares, nothing]
        simpa using begun.between
      have after : padding.Spaces
          (stmt (.forLoop initializer condition increment body) one).scopes
          (stmt (.whileOf condition increment body') (stmts initializer.toList other)).scopes := by
        rw [scopes_stmt _ (.whileOf condition increment body'), scopes_stmt, Stmt.declares, nothing,
          List.append_nil, ← (passes_optionalStmt initializer one).scopes]
        simpa [Stmt.whileOf, Stmt.declares] using begun
      have clauses (statement : Stmt) (given : statement ∈ initializer) :
          (∃ loose, Visit.Legal expansion.plain ⟨.stmt statement, one, loose⟩) ∧
            ∃ loose, Visit.Legal expansion.expanded ⟨.stmt statement, other, loose⟩ := by
        obtain rfl := given
        exact ⟨⟨_, here.contains .forInitializer⟩, begun' [] statement [] rfl⟩
      refine .loop ?_ (fun statement given => ?_)
        (Expansion.optionSuits_of_legal begun tested tested')
        (Expansion.optionSuits_of_legal last stepped stepped') bare
        (fourth.suited within within' around (.inl nothing))
        (tail.suited behind behind' after later)
      · rintro statement rfl
        exact here.accepted.placed.1.1
      · obtain ⟨⟨_, legal⟩, _, legal'⟩ := clauses statement given
        refine (first statement given).suited legal legal' spaces ?_
        obtain rfl := given
        exact clause

theorem Stmt.OptionExpands.suited {rule : Padding.Rule} {padding : Padding} {one other : Analysis}
    {statement statement' : Option Stmt} :
    Stmt.OptionExpands rule padding statement statement' →
      (∀ inner ∈ statement, ∃ loose, Visit.Legal expansion.plain ⟨.stmt inner, one, loose⟩) →
      (∀ inner ∈ statement', ∃ loose, Visit.Legal expansion.expanded ⟨.stmt inner, other, loose⟩) →
      padding.Spaces one.scopes other.scopes → padding.Admits (Stmt.optionDeclares statement) →
      Stmt.OptionExpands expansion.rule padding statement statement'
  | .none, _, _, _, _ => .none
  | .some parts, legal, legal', spaces, admits => by
      obtain ⟨_, here⟩ := legal _ rfl
      obtain ⟨_, here'⟩ := legal' _ rfl
      exact .some (parts.suited here here' spaces admits)

theorem FunctionDecl.Expands.suited {rule : Padding.Rule} {padding : Padding}
    {one other : Analysis} {declaration declaration' : FunctionDecl} (body : Body) :
    declaration.Expands rule padding declaration' →
      Stmt.ListLegal expansion.plain declaration.body (one.enterFunction declaration body) →
      Stmt.ListLegal expansion.expanded declaration'.body (other.enterFunction declaration' body) →
      padding.Spaces one.scopes other.scopes →
      declaration.Expands expansion.rule padding declaration'
  | .intro parts, legal, legal', spaces =>
      .intro (parts.suited legal legal' (spaces.enterFunction body rfl) (Padding.admits_scope _))

theorem FunctionDecl.ListExpands.suited {rule : Padding.Rule} {padding : Padding}
    {one other : Analysis} {methods methods' : List FunctionDecl} :
    FunctionDecl.ListExpands rule padding methods methods' →
      (∀ earlier method later, methods = earlier ++ method :: later →
        Stmt.ListLegal expansion.plain method.body
          ((methodBodies earlier one).enterFunction method (methodBody method.name.lexeme))) →
      (∀ earlier method later, methods' = earlier ++ method :: later →
        Stmt.ListLegal expansion.expanded method.body
          ((methodBodies earlier other).enterFunction method (methodBody method.name.lexeme))) →
      padding.Spaces one.scopes other.scopes →
      FunctionDecl.ListExpands expansion.rule padding methods methods'
  | .nil, _, _, _ => .nil
  | @FunctionDecl.ListExpands.cons _ _ first first' _ _ head tail, legal, legal', spaces => by
      have behind : padding.Spaces (functionBody first (methodBody first.name.lexeme) one).scopes
          (functionBody first' (methodBody first'.name.lexeme) other).scopes := by
        rw [(passes_functionBody _ _ one).scopes, (passes_functionBody _ _ other).scopes]
        simpa using spaces
      refine .cons (head.suited _ (legal [] _ _ rfl) (head.name ▸ legal' [] _ _ rfl) spaces)
        (tail.suited ?_ ?_ behind)
      · rintro earlier method later rfl
        exact legal (_ :: earlier) method later rfl
      · rintro earlier method later rfl
        exact legal' (_ :: earlier) method later rfl

end

/-! ## Programs -/

/-- The statements of an accepted program are visited one behind the other. -/
theorem Stmt.listLegal_of_program {program : List Stmt} {distances : Distances}
    (clean : (bindProgram program distances).1 = []) (nodup : (Stmt.listNumbers program).Nodup)
    (unseen : ∀ number ∈ Stmt.listNumbers program, distances.get? number = none)
    (placed : Stmt.ListPlaced program) :
    Stmt.ListLegal (bindProgram program distances).2 program (.start distances) := by
  intro front statement back shape
  have guarded := @Visit.guarded_member (.start distances) [] front back statement .outside
    (by simp) (shape ▸ placed)
  exact ⟨_, Visit.accepted_of_program _ clean nodup unseen placed shape, guarded⟩

/-- Where loops are expanded in an accepted program, all uses are bound to the same scopes
as before. -/
theorem Stmt.ListExpands.bound {rule : Padding.Rule} {program program' : List Stmt}
    {distances : Distances} (expands : Stmt.ListExpands rule [0] program program')
    (clean : (bindProgram program distances).1 = []) (nodup : (Stmt.listNumbers program).Nodup)
    (unseen : ∀ number ∈ Stmt.listNumbers program, distances.get? number = none)
    (placed : Stmt.ListPlaced program) :
    Stmt.ListExpands
      (Expansion.rule ⟨(bindProgram program distances).2, (bindProgram program' distances).2⟩) [0]
      program program' := by
  have moved := expands.numbers
  refine expands.suited (Stmt.listLegal_of_program clean nodup unseen placed)
    (Stmt.listLegal_of_program (expands.accepted placed clean) (moved.nodup_iff.mpr nodup)
      (fun number inside => unseen number (moved.mem_iff.mp inside)) (expands.placed placed))
    .outside (Padding.admits_scope _)

end Lox
