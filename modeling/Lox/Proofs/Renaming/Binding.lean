import Lox.Proofs.Binding.Visits
import Lox.Proofs.Renaming.Basic

/-!
# Renamed programs are bound alike

The scopes of the analysis of a renamed program hold the new name exactly where it
changes. So no new fault is found, and every use is still bound to the same scope.
-/

namespace Lox

variable {respelling : Respelling} {marks : Marks}

/-! ## Scopes -/

/-- The scopes of two analyses, the second one of a renamed program. -/
inductive Respelling.Scopes (respelling : Respelling) :
    Marks → List (Bindings Readiness) → List (Bindings Readiness) → Prop where
  | nil : Respelling.Scopes respelling [] [] []
  | cons {mark : Bool} {marks : Marks} {scope scope' : Bindings Readiness}
      {outer outer' : List (Bindings Readiness)}
      (here : scope.Paired (respelling.Names mark) Eq scope')
      (apart : true ∈ mark :: marks → scope.contains respelling.new = false)
      (around : Respelling.Scopes respelling marks outer outer') :
      Respelling.Scopes respelling (mark :: marks) (scope :: outer) (scope' :: outer')

namespace Respelling.Scopes

variable {one other : List (Bindings Readiness)} {name : String}

/-- A name that is not declared in a scope is not declared in the renamed scope either,
whether it changes further out or not. -/
theorem absent {mark : Bool} {scope scope' : Bindings Readiness} {bound : Bool}
    (here : scope.Paired (respelling.Names mark) Eq scope')
    (apart : mark = true ∨ bound = true → scope.contains respelling.new = false)
    (fresh : mark = true ∨ bound = true → name ≠ respelling.new)
    (undeclared : scope.contains name = false) :
    scope'.contains (respelling.name bound name) = false := by
  apply Bool.eq_false_iff.mpr
  intro declared
  obtain ⟨original, ⟨_, same⟩, inside⟩ := here.exists_contains declared
  -- Only a change here and none further out, or the other way round, could confuse names.
  cases mark <;> cases bound <;>
    simp only [Respelling.name, Bool.false_eq_true, false_and, if_false, true_and, false_or,
      or_false, true_implies, or_self, false_implies] at same apart fresh <;>
    grind

/-- A use of a name keeps its distance if it changes where it is bound. -/
theorem nearest (scopes : respelling.Scopes marks one other)
    (fresh : true ∈ marks → name ≠ respelling.new) :
    nearest other (respelling.name ((Lox.nearest one name).any marks.changes) name) =
      Lox.nearest one name := by
  induction scopes with
  | nil => rfl
  | @cons mark marks scope scope' outer outer' here apart around ih =>
      have inner := ih fun marked => fresh (List.mem_cons_of_mem _ marked)
      unfold Lox.nearest at inner ⊢
      rw [List.findIdx?_cons, List.findIdx?_cons]
      cases declared : scope.contains name with
      | true =>
          have same : respelling.Names mark name (respelling.name mark name) :=
            ⟨fun marked => fresh (marked ▸ .head _), rfl⟩
          have found := here.contains same
          rw [declared] at found
          simp [← found]
      | false =>
          generalize bound : (outer.findIdx? (·.contains name)).any marks.changes = mark' at inner
          have marked (either : mark = true ∨ mark' = true) : true ∈ mark :: marks := by
            rcases either with rfl | rfl
            · exact .head _
            · obtain ⟨distance, -, changed⟩ := Option.any_eq_true _ _ |>.mp bound
              exact .tail _ (Marks.mem_of_changes changed)
          have missing := absent here (fun either => apart (marked either))
            (fun either => fresh (marked either)) declared
          have shifted : ((outer.findIdx? (·.contains name)).map (· + 1)).any
              (Marks.changes (mark :: marks)) = mark' := by
            rw [← bound]
            cases outer.findIdx? (·.contains name) <;> rfl
          simp only [Bool.false_eq_true, if_false, shifted, missing, inner]

/-- A name that is none of the two keeps its distance. -/
theorem nearest_self (scopes : respelling.Scopes marks one other)
    (notOld : true ∈ marks → name ≠ respelling.old)
    (notNew : true ∈ marks → name ≠ respelling.new) :
    Lox.nearest other name = Lox.nearest one name := by
  have found := scopes.nearest notNew
  generalize bound : (Lox.nearest one name).any marks.changes = mark at found
  have kept : respelling.name mark name = name := by
    cases mark with
    | false => exact respelling.name_false name
    | true =>
        obtain ⟨distance, -, changed⟩ := Option.any_eq_true _ _ |>.mp bound
        exact if_neg fun both => notOld (Marks.mem_of_changes changed) both.2
  rwa [kept] at found

/-- A name is not being given its initial value in renamed scopes if it is not in the
scopes themselves. -/
theorem isPending {one other : Analysis} (scopes : respelling.Scopes marks one.scopes other.scopes)
    (fresh : true ∈ marks → name ≠ respelling.new) (ready : one.isPending name = false) :
    other.isPending (respelling.name ((Lox.nearest one.scopes name).any marks.changes) name) =
      false := by
  have distance := scopes.nearest fresh
  generalize bound : (Lox.nearest one.scopes name).any marks.changes = mark at distance
  unfold Analysis.isPending at ready ⊢
  revert bound distance
  generalize one.scopes = inside, other.scopes = inside' at scopes ready
  cases scopes with
  | nil => exact fun _ _ => rfl
  | @cons here marks scope scope' outer outer' paired apart around =>
      intro bound distance
      unfold Lox.nearest at distance bound
      rw [List.findIdx?_cons] at distance bound
      dsimp only at ready ⊢
      cases declared : scope'.contains (respelling.name mark name) with
      | false =>
          rw [Bindings.contains, Option.isSome_eq_false_iff, Option.isNone_iff_eq_none] at declared
          rw [declared]
          rfl
      | true =>
          rw [declared, List.findIdx?_cons] at distance
          cases original : scope.contains name with
          | false => simp [original] at distance
          | true =>
              rw [original] at bound
              obtain rfl : here = mark := bound
              have same : respelling.Names here name (respelling.name here name) :=
                ⟨fun marked => fresh (marked ▸ .head _), rfl⟩
              have found := paired.get? same
              generalize scope.get? name = first,
                scope'.get? (respelling.name here name) = second at found ready
              cases found with
              | none => exact ready
              | some equal => exact equal ▸ ready

end Respelling.Scopes

/-! ## Analyses -/

/-- Two analyses in the same state, the second one of a renamed program. -/
structure Analysis.Renamed (respelling : Respelling) (marks : Marks) (one other : Analysis) :
    Prop where
  scopes : respelling.Scopes marks one.scopes other.scopes
  body : other.body = one.body
  enclosure : other.enclosure = one.enclosure
  faults : other.faults.length = one.faults.length
  distances : other.distances = one.distances

namespace Analysis

variable {one other : Analysis} {mark : Bool} {token : Token} {name : String}
variable {reference : Reference}

theorem renamed_start (distances : Distances) :
    Renamed respelling [] (start distances) (start distances) :=
  ⟨.nil, rfl, rfl, rfl, rfl⟩

namespace Renamed

variable (renamed : one.Renamed respelling marks other)
include renamed

theorem withScopes {inside : Marks} {scopes scopes' : List (Bindings Readiness)}
    (same : respelling.Scopes inside scopes scopes') :
    Renamed respelling inside { one with scopes := scopes } { other with scopes := scopes' } :=
  ⟨same, renamed.body, renamed.enclosure, renamed.faults, renamed.distances⟩

theorem withBody (body : Body) :
    (one.withBody body).Renamed respelling marks (other.withBody body) :=
  ⟨renamed.scopes, rfl, renamed.enclosure, renamed.faults, renamed.distances⟩

theorem withEnclosure (enclosure : Enclosure) :
    (one.withEnclosure enclosure).Renamed respelling marks (other.withEnclosure enclosure) :=
  ⟨renamed.scopes, renamed.body, rfl, renamed.faults, renamed.distances⟩

theorem report (token token' : Token) (fault : BindingFault) :
    (one.report token fault).Renamed respelling marks (other.report token' fault) :=
  ⟨renamed.scopes, renamed.body, renamed.enclosure, by simp [Analysis.report, renamed.faults],
    renamed.distances⟩

theorem openScope (mark : Bool) :
    one.openScope.Renamed respelling (mark :: marks) other.openScope :=
  renamed.withScopes (.cons Bindings.paired_empty (fun _ => rfl) renamed.scopes)

theorem define (fresh : true ∈ marks → name ≠ respelling.new) :
    (one.define name).Renamed respelling marks
      (other.define (respelling.name marks.here name)) := by
  have scopes := renamed.scopes
  obtain ⟨inside, body, enclosure, faults, distances⟩ := one
  obtain ⟨inside', body', enclosure', faults', distances'⟩ := other
  dsimp only at scopes
  cases scopes with
  | nil => exact renamed
  | @cons mark marks scope scope' outer outer' here apart around =>
      have same : respelling.Names mark name (respelling.name mark name) :=
        ⟨fun marked => fresh (marked ▸ .head _), rfl⟩
      refine renamed.withScopes (.cons (here.set (respelling.oneToOne_names mark) same rfl)
        ?_ around)
      intro marked
      rw [Bindings.contains_set, apart marked, Bool.or_false]
      exact decide_eq_false (fresh marked)

theorem declare (fresh : true ∈ marks → token.lexeme ≠ respelling.new) :
    (one.declare token).Renamed respelling marks
      (other.declare (respelling.token marks.here token)) := by
  have scopes := renamed.scopes
  obtain ⟨inside, body, enclosure, faults, distances⟩ := one
  obtain ⟨inside', body', enclosure', faults', distances'⟩ := other
  dsimp only at scopes
  cases scopes with
  | nil => exact renamed
  | @cons mark marks scope scope' outer outer' here apart around =>
      have same : respelling.Names mark token.lexeme (respelling.name mark token.lexeme) :=
        ⟨fun marked => fresh (marked ▸ .head _), rfl⟩
      have declared := here.contains same
      unfold Analysis.declare
      simp only [Respelling.token, Marks.here_cons, ← declared]
      split
      · exact renamed.report _ _ _
      · refine renamed.withScopes
          (.cons (here.set (respelling.oneToOne_names mark) same rfl) ?_ around)
        intro marked
        rw [Bindings.contains_set, apart marked, Bool.or_false]
        exact decide_eq_false (fresh marked)

theorem introduce (fresh : true ∈ marks → token.lexeme ≠ respelling.new) :
    (one.introduce token).Renamed respelling marks
      (other.introduce (respelling.token marks.here token)) :=
  (renamed.declare fresh).define fresh

/-- A function or class keeps its name. -/
theorem introduce_fixed (kept : respelling.apart.fixed marks token) :
    (one.introduce token).Renamed respelling marks (other.introduce token) := by
  have introduced := renamed.introduce kept.1
  have same : respelling.token marks.here token = token := by
    unfold Respelling.token Respelling.name
    rw [if_neg fun both => kept.2 both.1 both.2]
  rwa [same] at introduced

theorem introduceAll {names : List Token}
    (fresh : ∀ name ∈ names, true ∈ marks → name.lexeme ≠ respelling.new) :
    (names.foldl (fun analysis name => analysis.introduce name) one).Renamed respelling marks
      ((names.map (respelling.token marks.here)).foldl
        (fun analysis name => analysis.introduce name) other) := by
  induction names generalizing one other with
  | nil => exact renamed
  | cons first rest ih =>
      exact ih (renamed.introduce (fresh first (.head _)))
        fun name inside => fresh name (.tail _ inside)

theorem checkReturn (keyword : Token) (hasValue : Bool) :
    (one.checkReturn keyword hasValue).Renamed respelling marks
      (other.checkReturn keyword hasValue) := by
  unfold Analysis.checkReturn
  rw [renamed.body]
  split
  · exact renamed.report _ _ _
  · split
    · exact renamed.report _ _ _
    · exact renamed
  · exact renamed

/-! ### Uses of names -/

/-- A use that is noted where it was noted before. -/
theorem bind {reference' : Reference} (id : reference'.id = reference.id)
    (same : nearest other.scopes reference'.name.lexeme =
      nearest one.scopes reference.name.lexeme) :
    (one.bind reference).Renamed respelling marks (other.bind reference') := by
  unfold nearest at same
  unfold Analysis.bind
  rw [same, id]
  split
  · exact ⟨renamed.scopes, renamed.body, renamed.enclosure, renamed.faults,
      congrArg (Distances.note · _ _) renamed.distances⟩
  · exact renamed

theorem bind_use (noted : respelling.distances.get? reference.id =
      nearest one.scopes reference.name.lexeme)
    (fresh : true ∈ marks → reference.name.lexeme ≠ respelling.new) :
    (one.bind reference).Renamed respelling marks
      (other.bind (respelling.use marks reference)) := by
  refine renamed.bind rfl ?_
  unfold Respelling.use Respelling.bound
  rw [noted]
  exact renamed.scopes.nearest fresh

theorem bindVariable (noted : respelling.distances.get? reference.id =
      nearest one.scopes reference.name.lexeme ∧ one.isPending reference.name.lexeme = false)
    (fresh : true ∈ marks → reference.name.lexeme ≠ respelling.new) :
    (one.bindVariable reference).Renamed respelling marks
      (other.bindVariable (respelling.use marks reference)) := by
  have ready : other.isPending (respelling.use marks reference).name.lexeme = false := by
    unfold Respelling.use Respelling.bound
    rw [noted.1]
    exact renamed.scopes.isPending fresh noted.2
  unfold Analysis.bindVariable
  rw [noted.2, ready]
  exact renamed.bind_use noted.1 fresh

variable (apart : true ∈ marks → reference.name.lexeme ≠ respelling.old ∧
  reference.name.lexeme ≠ respelling.new)
include apart

theorem bind_self : (one.bind reference).Renamed respelling marks (other.bind reference) :=
  renamed.bind rfl
    (renamed.scopes.nearest_self (fun marked => (apart marked).1) fun marked => (apart marked).2)

theorem bindThis :
    (one.bindThis reference).Renamed respelling marks (other.bindThis reference) := by
  unfold Analysis.bindThis
  rw [renamed.enclosure]
  split
  · exact renamed.report _ _ _
  · exact renamed.bind_self apart

theorem bindSuper :
    (one.bindSuper reference).Renamed respelling marks (other.bindSuper reference) := by
  unfold Analysis.bindSuper
  rw [renamed.enclosure]
  split
  · exact renamed.report _ _ _
  · exact renamed.report _ _ _
  · exact renamed.bind_self apart

end Renamed

/-- The innermost scope is closed. -/
theorem Renamed.closeScope (renamed : one.Renamed respelling (mark :: marks) other) :
    one.closeScope.Renamed respelling marks other.closeScope := by
  refine renamed.withScopes ?_
  have scopes := renamed.scopes
  generalize one.scopes = inside, other.scopes = inside' at scopes
  cases scopes with
  | cons _ _ around => exact around

/-! ## Expressions -/

section Expressions

variable {loose : List (List String)}

mutual

theorem renamed_expr {one other : Analysis} {marks : Marks} :
    (value : Expr) → (true ∈ marks → value.Apart respelling) →
      Visit.Accepted respelling.distances ⟨.expr value, one, loose⟩ →
      one.Renamed respelling marks other →
      (expr value one).Renamed respelling marks (expr (value.rename respelling marks) other)
  | .literal _, _, _, renamed => renamed
  | .grouping inner, apart, accepted, renamed =>
      renamed_expr inner apart (accepted.contains .grouping) renamed
  | .unary _ operand, apart, accepted, renamed =>
      renamed_expr operand apart (accepted.contains .operand) renamed
  | .binary left _ right, apart, accepted, renamed =>
      renamed_expr right (fun marked => (apart marked).2) (accepted.contains .right)
        (renamed_expr left (fun marked => (apart marked).1) (accepted.contains .left) renamed)
  | .logical left _ right, apart, accepted, renamed =>
      renamed_expr right (fun marked => (apart marked).2) (accepted.contains .logicalRight)
        (renamed_expr left (fun marked => (apart marked).1) (accepted.contains .logicalLeft)
          renamed)
  | .variable _, apart, accepted, renamed => renamed.bindVariable accepted.variable apart
  | .assign _ value, apart, accepted, renamed => by
      have valued := renamed_expr value (fun marked => (apart marked).2)
        (accepted.contains .assigned) renamed
      refine valued.bind_use ?_ fun marked => (apart marked).1
      rw [scopes_expr]
      exact accepted.assign
  | .call callee _ arguments, apart, accepted, renamed => by
      have called := renamed_expr callee (fun marked => (apart marked).1)
        (accepted.contains .callee) renamed
      refine renamed_exprs arguments (fun marked => (apart marked).2) ?_ called
      rintro front value back rfl
      exact accepted.contains .argument
  | .get object _, apart, accepted, renamed =>
      renamed_expr object apart (accepted.contains .object) renamed
  | .set object _ value, apart, accepted, renamed =>
      renamed_expr object (fun marked => (apart marked).1) (accepted.contains .changed)
        (renamed_expr value (fun marked => (apart marked).2) (accepted.contains .stored) renamed)
  | .this _, apart, _, renamed => renamed.bindThis apart
  | .super _ _, apart, _, renamed => renamed.bindSuper apart

theorem renamed_exprs {one other : Analysis} {marks : Marks} :
    (values : List Expr) → (true ∈ marks → Expr.ListApart respelling values) →
      (∀ front value back, values = front ++ value :: back →
        Visit.Accepted respelling.distances ⟨.expr value, exprs front one, loose⟩) →
      one.Renamed respelling marks other →
      (exprs values one).Renamed respelling marks
        (exprs (Expr.listRename respelling marks values) other)
  | [], _, _, renamed => renamed
  | first :: rest, apart, accepted, renamed => by
      have firstRenamed := renamed_expr first (fun marked => (apart marked).1)
        (accepted [] first rest rfl) renamed
      refine renamed_exprs rest (fun marked => (apart marked).2) ?_ firstRenamed
      rintro front value back rfl
      exact accepted (first :: front) value back rfl

end

theorem renamed_optionalExpr {value : Option Expr}
    (apart : ∀ inner ∈ value, true ∈ marks → inner.Apart respelling)
    (accepted : ∀ inner ∈ value, Visit.Accepted respelling.distances ⟨.expr inner, one, loose⟩)
    (renamed : one.Renamed respelling marks other) :
    (optionalExpr value one).Renamed respelling marks
      (optionalExpr (value.map (Expr.rename respelling marks)) other) := by
  cases value with
  | none => exact renamed
  | some inner => exact renamed_expr inner (apart inner rfl) (accepted inner rfl) renamed

/-! ## Classes -/

/-- A scope for a keyword, in which no name changes. -/
theorem Renamed.openWith (renamed : one.Renamed respelling marks other) {text : String}
    (fresh : text ≠ respelling.new) :
    ((one.openScope).define text).Renamed respelling (false :: marks)
      ((other.openScope).define text) := by
  have defined := @Renamed.define respelling (false :: marks) _ _ text (renamed.openScope false)
    fun _ => fresh
  rwa [Marks.here_cons, respelling.name_false] at defined

theorem Renamed.checkSuperclass (renamed : one.Renamed respelling marks other)
    (kept : respelling.apart.fixed marks token)
    (differs : reference.name.lexeme ≠ token.lexeme) :
    (one.checkSuperclass token (.variable reference)).Renamed respelling marks
      (other.checkSuperclass token (.variable (respelling.use marks reference))) := by
  have differs' : (respelling.use marks reference).name.lexeme ≠ token.lexeme := by
    cases bound : respelling.bound marks reference with
    | false => rwa [Respelling.use, bound, respelling.token_false]
    | true =>
        rw [Respelling.use, bound]
        change respelling.name true reference.name.lexeme ≠ _
        unfold Respelling.name
        split
        · obtain ⟨distance, -, changed⟩ := Option.any_eq_true _ _ |>.mp bound
          exact (kept.1 (Marks.mem_of_changes changed)).symm
        · exact differs
  unfold Analysis.checkSuperclass
  dsimp only
  rwa [if_neg differs, if_neg differs']

theorem renamed_enterClass (proper : IsOrdinaryName respelling.new)
    {superclass : Option Expr} {methods : List FunctionDecl}
    (kept : respelling.apart.fixed marks token)
    (apart : ∀ value ∈ superclass, true ∈ marks → value.Apart respelling)
    (accepted : Visit.Accepted respelling.distances
      ⟨.stmt (.classDecl token superclass methods), one, loose⟩)
    (renamed : one.Renamed respelling marks other) :
    (one.enterClass token superclass).Renamed respelling (marks.inside superclass)
      (other.enterClass token (superclass.map (Expr.rename respelling marks))) := by
  have declared := (renamed.withEnclosure .baseClass).introduce_fixed kept
  cases superclass with
  | none => exact declared.openWith proper.1.symm
  | some value =>
      obtain ⟨reference, rfl⟩ : ∃ reference, value = .variable reference := accepted.placed.2.1
      have inner := accepted.contains .superclass
      have checked := (declared.checkSuperclass kept inner.ne_superclass).withEnclosure .subclass
      have inherited := renamed_expr (.variable reference) (apart _ rfl) inner checked
      exact (inherited.openWith proper.2.symm).openWith proper.1.symm

theorem Renamed.leaveClass {superclass : Option Expr}
    (renamed : one.Renamed respelling (marks.inside superclass) other) (enclosure : Enclosure) :
    (one.leaveClass superclass enclosure).Renamed respelling marks
      (other.leaveClass (superclass.map (Expr.rename respelling marks)) enclosure) := by
  cases superclass with
  | none => exact renamed.closeScope.withEnclosure enclosure
  | some _ => exact renamed.closeScope.closeScope.withEnclosure enclosure

/-! ## Statements -/

mutual

theorem renamed_stmt (proper : IsOrdinaryName respelling.new) {one other : Analysis}
    {marks : Marks} {loose : List (List String)} {statement statement' : Stmt} :
    statement.Renames respelling respelling.apart marks statement' →
      Visit.Accepted respelling.distances ⟨.stmt statement, one, loose⟩ →
      one.Renamed respelling marks other →
      (stmt statement one).Renamed respelling marks (stmt statement' other)
  | .expression asked, accepted, renamed =>
      renamed_expr _ asked (accepted.contains .effect) renamed
  | .print asked, accepted, renamed => renamed_expr _ asked (accepted.contains .printed) renamed
  | .var named asked, accepted, renamed => by
      have valued := renamed_optionalExpr asked
        (by rintro _ rfl; exact accepted.contains .initializer) (renamed.declare named)
      exact valued.define named
  | .block mark _ parts, accepted, renamed => by
      refine (renamed_stmts proper parts ?_ (renamed.openScope mark)).closeScope
      rintro front inner back rfl
      exact ⟨_, accepted.contains .member⟩
  | .conditional asked second third, accepted, renamed => by
      have tested := renamed_expr _ asked (accepted.contains .condition) renamed
      have chosen := renamed_stmt proper second (accepted.contains .consequent) tested
      exact renamed_optionalStmt proper third
        (by rintro _ rfl; exact ⟨_, accepted.contains .alternative⟩) chosen
  | .whileLoop asked second, accepted, renamed => by
      have tested := renamed_expr _ asked (accepted.contains .whileCondition) renamed
      unfold stmt
      exact renamed_stmt proper second (accepted.contains .whileBody) tested
  | @Stmt.Renames.forLoop _ _ _ initializer _ condition increment body _ first asked askedThen
      fourth, accepted, renamed => by
      have begun := renamed_optionalStmt proper first
        (by rintro _ rfl; exact ⟨_, accepted.contains .forInitializer⟩) renamed
      have rest : Visit.Accepted respelling.distances
          ⟨.stmt (.forLoop none condition increment body), optionalStmt initializer one,
            loose⟩ := by
        cases initializer with
        | none => exact accepted
        | some _ => exact accepted.contains .forRest
      have tested := renamed_optionalExpr asked
        (by rintro _ rfl; exact rest.contains .forCondition) begun
      have stepped := renamed_optionalExpr askedThen
        (by rintro _ rfl; exact rest.contains .forIncrement) tested
      unfold stmt
      exact renamed_stmt proper fourth (rest.contains .forBody) stepped
  | .function kept parts, accepted, renamed => by
      unfold stmt
      rw [parts.name]
      refine renamed_functionBody proper .function parts ?_ (renamed.introduce_fixed kept)
      rintro front inner back shape
      exact ⟨_, accepted.contains (.functionBody shape)⟩
  | @Stmt.Renames.returning _ _ _ keyword value asked, accepted, renamed => by
      unfold stmt
      rw [Option.isSome_map]
      exact renamed_optionalExpr asked (by rintro _ rfl; exact accepted.contains .returned)
        (renamed.checkReturn keyword value.isSome)
  | .classDecl kept asked parts, accepted, renamed => by
      have entered := renamed_enterClass proper kept asked accepted renamed
      unfold stmt
      rw [renamed.enclosure]
      refine (renamed_methodBodies proper parts ?_ entered).leaveClass _
      rintro earlier method later front inner back rfl shape
      exact ⟨_, accepted.contains (.methodBody shape)⟩

theorem renamed_stmts (proper : IsOrdinaryName respelling.new) {one other : Analysis}
    {marks : Marks} {body body' : List Stmt} :
    Stmt.ListRenames respelling respelling.apart marks body body' →
      (∀ front statement back, body = front ++ statement :: back →
        ∃ loose, Visit.Accepted respelling.distances ⟨.stmt statement, stmts front one, loose⟩) →
      one.Renamed respelling marks other →
      (stmts body one).Renamed respelling marks (stmts body' other)
  | .nil, _, renamed => renamed
  | .cons first rest, accepted, renamed => by
      obtain ⟨_, here⟩ := accepted [] _ _ rfl
      have later := renamed_stmt proper first here renamed
      unfold stmts
      refine renamed_stmts proper rest ?_ later
      rintro front inner back rfl
      exact accepted (_ :: front) inner back rfl

theorem renamed_optionalStmt (proper : IsOrdinaryName respelling.new) {one other : Analysis}
    {marks : Marks} {statement statement' : Option Stmt} :
    Stmt.OptionRenames respelling respelling.apart marks statement statement' →
      (∀ inner ∈ statement,
        ∃ loose, Visit.Accepted respelling.distances ⟨.stmt inner, one, loose⟩) →
      one.Renamed respelling marks other →
      (optionalStmt statement one).Renamed respelling marks (optionalStmt statement' other)
  | .none, _, renamed => renamed
  | .some parts, accepted, renamed => by
      obtain ⟨_, here⟩ := accepted _ rfl
      exact renamed_stmt proper parts here renamed

theorem renamed_functionBody (proper : IsOrdinaryName respelling.new) {one other : Analysis}
    {marks : Marks} {declaration declaration' : FunctionDecl} (body : Body) :
    declaration.Renames respelling respelling.apart marks declaration' →
      (∀ front statement back, declaration.body = front ++ statement :: back →
        ∃ loose, Visit.Accepted respelling.distances
          ⟨.stmt statement, stmts front (one.enterFunction declaration body), loose⟩) →
      one.Renamed respelling marks other →
      (functionBody declaration body one).Renamed respelling marks
        (functionBody declaration' body other)
  | .intro mark _ listed parts, accepted, renamed => by
      have entered := ((renamed.withBody body).openScope mark).introduceAll listed
      unfold functionBody
      rw [renamed.body]
      exact (renamed_stmts proper parts accepted entered).closeScope.withBody _

theorem renamed_methodBodies (proper : IsOrdinaryName respelling.new) {one other : Analysis}
    {marks : Marks} {methods methods' : List FunctionDecl} :
    FunctionDecl.ListRenames respelling respelling.apart marks methods methods' →
      (∀ earlier method later front statement back, methods = earlier ++ method :: later →
        method.body = front ++ statement :: back →
        ∃ loose, Visit.Accepted respelling.distances ⟨.stmt statement,
          stmts front ((methodBodies earlier one).enterFunction method
            (methodBody method.name.lexeme)), loose⟩) →
      one.Renamed respelling marks other →
      (methodBodies methods one).Renamed respelling marks (methodBodies methods' other)
  | .nil, _, renamed => renamed
  | .cons first rest, accepted, renamed => by
      have named := first.name
      unfold methodBodies
      rw [named]
      refine renamed_methodBodies proper rest ?_ (renamed_functionBody proper _ first ?_ renamed)
      · rintro earlier method later front inner back rfl shape
        exact accepted (_ :: earlier) method later front inner back rfl shape
      · rintro front inner back shape
        exact accepted [] _ _ front inner back rfl shape

end

end Expressions

end Analysis

/-- Renaming a program that is bound without faults leaves it so, and all its uses of
names at the same distances. -/
theorem renamed_bindProgram (proper : IsOrdinaryName respelling.new) {distances : Distances}
    {program program' : List Stmt} (clean : (bindProgram program distances).1 = [])
    (noted : respelling.distances = (bindProgram program distances).2)
    (nodup : (Stmt.listNumbers program).Nodup)
    (unseen : ∀ number ∈ Stmt.listNumbers program, distances.get? number = none)
    (placed : Stmt.ListPlaced program)
    (renames : Stmt.ListRenames respelling respelling.apart [] program program') :
    bindProgram program' distances = bindProgram program distances := by
  have renamed := Analysis.renamed_stmts proper renames (fun front statement back shape =>
    ⟨[], noted ▸ Visit.accepted_of_program [] clean nodup unseen placed shape⟩)
    (Analysis.renamed_start distances)
  have faults : (bindProgram program' distances).1 = [] := by
    have same := renamed.faults
    change (bindProgram program' distances).1.length = (bindProgram program distances).1.length
      at same
    rwa [clean, List.length_nil, List.length_eq_zero_iff] at same
  exact Prod.ext (faults.trans clean.symm) renamed.distances

end Lox
