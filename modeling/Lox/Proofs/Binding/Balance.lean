import Lox.Proofs.Binding.Ledger
import Lox.Proofs.Binding.Visits

/-!
# What the analysis leaves as it was

The analysis of a part opens scopes and goes into bodies and classes, but it comes out
where it went in: only the innermost scope around the part may have gained names. Since
nothing found before is looked at on the way, a program in two parts can be analysed in one
pass or in two. Both find the same faults in the same order and note the same distances.
-/

namespace Lox

namespace Analysis

/-! ## Around a part -/

/-- From before a part to behind it, where everything around the part is as it was. The
innermost scope has kept its names, and those that were ready still are. -/
structure Balanced (before after : Analysis) : Prop where
  depth : after.scopes.length = before.scopes.length
  outer : after.scopes.tail = before.scopes.tail
  body : after.body = before.body
  enclosure : after.enclosure = before.enclosure
  kept : ∀ scope ∈ before.scopes.head?, ∃ grown ∈ after.scopes.head?, ∀ name,
    (scope.contains name = true → grown.contains name = true) ∧
      (scope.get? name = some .ready → grown.get? name = some .ready)

/-- A declaration makes a name ready and takes readiness from none. -/
theorem ready_declared (names : List String) {scope : Bindings Readiness} {name : String}
    (ready : scope.get? name = some .ready) :
    (names.foldl (fun scope name => scope.set name .ready) scope).get? name = some .ready := by
  induction names generalizing scope with
  | nil => exact ready
  | cons first rest ih =>
      apply ih
      rw [Bindings.get?_set]
      split
      · rfl
      · exact ready

/-- A part that does nothing but declare names is balanced. -/
theorem Passes.balanced {before after : Analysis} {names : List String} {numbers : List Nat}
    (passes : before.Passes after names numbers) : before.Balanced after where
  depth := by rw [passes.scopes, length_declaring]
  outer := by rw [passes.scopes, tail_declaring]
  body := passes.body
  enclosure := passes.enclosure
  kept := by
    intro scope inside
    rw [passes.scopes]
    cases around : before.scopes with
    | nil => simp [around] at inside
    | cons innermost outer =>
        rw [around, List.head?_cons, Option.mem_some_iff] at inside
        subst inside
        refine ⟨_, rfl, fun name => ⟨fun bound => ?_, ready_declared names⟩⟩
        exact (contains_declared names innermost name).2 (.inr bound)

/-! ## Nothing found before is looked at -/

/-- The same point of a program, with other things found on the way to it. -/
def withFindings (faults : List Diagnostic) (distances : Distances) (analysis : Analysis) :
    Analysis :=
  { analysis with faults := faults, distances := distances }

/-- A step that finds the same whatever was found before: faults come behind those in front,
and distances are noted over those noted already. -/
def Incremental (step : Analysis → Analysis) : Prop :=
  ∀ analysis, ∃ faults entries, ∀ earlier distances,
    step (analysis.withFindings earlier distances) =
      (step analysis).withFindings (earlier ++ faults) (Ledger.noted entries distances)

namespace Incremental

variable {step next : Analysis → Analysis}

/-- A step that finds nothing. -/
theorem of_quiet (quiet : ∀ analysis earlier distances,
    step (withFindings earlier distances analysis) =
      (step analysis).withFindings earlier distances) : Incremental step := by
  intro analysis
  refine ⟨[], [], fun earlier distances => ?_⟩
  rw [quiet, List.append_nil]
  rfl

theorem refl : Incremental id := of_quiet fun _ _ _ => rfl

theorem trans (first : Incremental step) (second : Incremental next) :
    Incremental fun analysis => next (step analysis) := by
  intro analysis
  obtain ⟨faults, entries, found⟩ := first analysis
  obtain ⟨more, others, foundMore⟩ := second (step analysis)
  refine ⟨faults ++ more, entries ++ others, fun earlier distances => ?_⟩
  calc next (step (analysis.withFindings earlier distances))
      = next ((step analysis).withFindings (earlier ++ faults)
          (Ledger.noted entries distances)) := by rw [found]
    _ = (next (step analysis)).withFindings (earlier ++ faults ++ more)
          (Ledger.noted others (Ledger.noted entries distances)) := by rw [foundMore]
    _ = _ := by rw [List.append_assoc, Ledger.noted, Ledger.noted, Ledger.noted, List.foldl_append]

/-- A step that is chosen by what is known at its point, and not by what was found. -/
theorem of_each (each : ∀ analysis, ∃ goes, Incremental goes ∧ ∀ earlier distances,
    step (withFindings earlier distances analysis) =
      goes (analysis.withFindings earlier distances)) : Incremental step := by
  intro analysis
  obtain ⟨goes, incremental, same⟩ := each analysis
  obtain ⟨faults, entries, found⟩ := incremental analysis
  refine ⟨faults, entries, fun earlier distances => ?_⟩
  have here : step analysis = goes analysis := same analysis.faults analysis.distances
  rw [same, found, here]

end Incremental

/-! ### Single steps -/

variable (name : Token) (reference : Reference)

theorem incremental_report (token : Token) (fault : BindingFault) :
    Incremental (report token fault) :=
  fun _ => ⟨[.binding token fault], [], fun _ _ => rfl⟩

theorem incremental_bind : Incremental (bind reference) := by
  intro analysis
  cases found : analysis.scopes.findIdx? (·.contains reference.name.lexeme) with
  | none =>
      refine ⟨[], [], fun earlier distances => ?_⟩
      simp [bind, withFindings, found, Ledger.noted]
  | some distance =>
      refine ⟨[], [(reference.id, distance)], fun earlier distances => ?_⟩
      simp [bind, withFindings, found, Ledger.noted]

theorem incremental_bindVariable : Incremental (bindVariable reference) := by
  refine .of_each fun analysis => ?_
  by_cases pending : analysis.isPending reference.name.lexeme = true
  · exact ⟨_, incremental_report reference.name .readInOwnInitializer, fun _ _ => if_pos pending⟩
  · exact ⟨_, incremental_bind reference, fun _ _ => if_neg pending⟩

theorem incremental_bindThis : Incremental (bindThis reference) := by
  refine .of_each fun ⟨scopes, body, enclosure, _, _⟩ => ?_
  cases enclosure with
  | none => exact ⟨_, incremental_report reference.name .thisOutsideClass, fun _ _ => rfl⟩
  | baseClass => exact ⟨_, incremental_bind reference, fun _ _ => rfl⟩
  | subclass => exact ⟨_, incremental_bind reference, fun _ _ => rfl⟩

theorem incremental_bindSuper : Incremental (bindSuper reference) := by
  refine .of_each fun ⟨scopes, body, enclosure, _, _⟩ => ?_
  cases enclosure with
  | none => exact ⟨_, incremental_report reference.name .superOutsideClass, fun _ _ => rfl⟩
  | baseClass =>
      exact ⟨_, incremental_report reference.name .superWithoutSuperclass, fun _ _ => rfl⟩
  | subclass => exact ⟨_, incremental_bind reference, fun _ _ => rfl⟩

theorem incremental_checkReturn (keyword : Token) (hasValue : Bool) :
    Incremental (checkReturn keyword hasValue) := by
  refine .of_each fun ⟨scopes, body, enclosure, _, _⟩ => ?_
  cases body with
  | program => exact ⟨_, incremental_report keyword .returnAtTopLevel, fun _ _ => rfl⟩
  | «initializer» =>
      cases hasValue with
      | false => exact ⟨_, .refl, fun _ _ => rfl⟩
      | true => exact ⟨_, incremental_report keyword .valueFromInitializer, fun _ _ => rfl⟩
  | function => exact ⟨_, .refl, fun _ _ => rfl⟩
  | method => exact ⟨_, .refl, fun _ _ => rfl⟩

theorem incremental_checkSuperclass (superclass : Expr) :
    Incremental (checkSuperclass name superclass) := by
  refine .of_each fun analysis => ?_
  unfold checkSuperclass
  split
  · next reference =>
      by_cases same : reference.name.lexeme = name.lexeme
      · exact ⟨_, incremental_report reference.name .inheritsFromItself, fun _ _ => if_pos same⟩
      · exact ⟨_, .refl, fun _ _ => if_neg same⟩
  · exact ⟨_, .refl, fun _ _ => rfl⟩

theorem incremental_openScope : Incremental openScope := .of_quiet fun _ _ _ => rfl

theorem incremental_closeScope : Incremental closeScope := .of_quiet fun _ _ _ => rfl

theorem incremental_withBody (body : Body) : Incremental (withBody body) :=
  .of_quiet fun _ _ _ => rfl

theorem incremental_withEnclosure (enclosure : Enclosure) :
    Incremental (withEnclosure enclosure) :=
  .of_quiet fun _ _ _ => rfl

theorem incremental_define (text : String) : Incremental (define text) := by
  refine .of_quiet fun ⟨scopes, _, _, _, _⟩ _ _ => ?_
  cases scopes <;> rfl

theorem incremental_declare : Incremental (declare name) := by
  refine .of_each fun ⟨scopes, body, enclosure, _, _⟩ => ?_
  cases scopes with
  | nil => exact ⟨_, .refl, fun _ _ => rfl⟩
  | cons scope outer =>
      by_cases taken : scope.contains name.lexeme = true
      · exact ⟨_, incremental_report name .alreadyDeclared, fun _ _ => if_pos taken⟩
      · have put : Incremental fun analysis =>
            { analysis with scopes := scope.set name.lexeme .pending :: outer } :=
          .of_quiet fun _ _ _ => rfl
        exact ⟨_, put, fun _ _ => if_neg taken⟩

theorem incremental_introduce : Incremental (introduce name) :=
  (incremental_declare name).trans (incremental_define name.lexeme)

theorem incremental_introduceAll (names : List Token) :
    Incremental (fun analysis => names.foldl (fun analysis name => analysis.introduce name)
      analysis) := by
  induction names with
  | nil => exact .refl
  | cons first rest ih => exact (incremental_introduce first).trans ih

/-! ### Whole parts -/

mutual

theorem incremental_expr : (value : Expr) → Incremental (expr value)
  | .literal _ => .refl
  | .grouping inner => incremental_expr inner
  | .unary _ operand => incremental_expr operand
  | .binary left _ right => (incremental_expr left).trans (incremental_expr right)
  | .logical left _ right => (incremental_expr left).trans (incremental_expr right)
  | .variable reference => incremental_bindVariable reference
  | .assign reference value => (incremental_expr value).trans (incremental_bind reference)
  | .call callee _ arguments => (incremental_expr callee).trans (incremental_exprs arguments)
  | .get object _ => incremental_expr object
  | .set object _ value => (incremental_expr value).trans (incremental_expr object)
  | .this reference => incremental_bindThis reference
  | .super reference _ => incremental_bindSuper reference

theorem incremental_exprs : (values : List Expr) → Incremental (exprs values)
  | [] => .refl
  | first :: rest => (incremental_expr first).trans (incremental_exprs rest)

end

theorem incremental_optionalExpr : (value : Option Expr) → Incremental (optionalExpr value)
  | none => .refl
  | some value => incremental_expr value

theorem incremental_enterClass (superclass : Option Expr) :
    Incremental (enterClass name superclass) := by
  have declared := (incremental_withEnclosure .baseClass).trans (incremental_introduce name)
  have receiver := incremental_openScope.trans (incremental_define "this")
  cases superclass with
  | none => exact declared.trans receiver
  | some superclass =>
      have checked := (declared.trans (incremental_checkSuperclass name superclass)).trans
        (incremental_withEnclosure .subclass)
      have inherited := ((checked.trans (incremental_expr superclass)).trans
        incremental_openScope).trans (incremental_define "super")
      exact inherited.trans receiver

theorem incremental_leaveClass (superclass : Option Expr) (enclosure : Enclosure) :
    Incremental (leaveClass superclass enclosure) := by
  cases superclass with
  | none => exact incremental_closeScope.trans (incremental_withEnclosure enclosure)
  | some _ =>
      exact (incremental_closeScope.trans incremental_closeScope).trans
        (incremental_withEnclosure enclosure)

mutual

theorem incremental_stmt : (statement : Stmt) → Incremental (stmt statement)
  | .expression value => incremental_expr value
  | .print value => incremental_expr value
  | .var name initializer =>
      ((incremental_declare name).trans (incremental_optionalExpr initializer)).trans
        (incremental_define name.lexeme)
  | .block body =>
      (incremental_openScope.trans (incremental_stmts body)).trans incremental_closeScope
  | .conditional condition consequent alternative =>
      ((incremental_expr condition).trans (incremental_stmt consequent)).trans
        (incremental_optionalStmt alternative)
  | .whileLoop condition body => (incremental_expr condition).trans (incremental_stmt body)
  | .forLoop initializer condition increment body =>
      (((incremental_optionalStmt initializer).trans (incremental_optionalExpr condition)).trans
        (incremental_optionalExpr increment)).trans (incremental_stmt body)
  | .function declaration =>
      (incremental_introduce declaration.name).trans
        (incremental_functionBody declaration .function)
  | .returning keyword value =>
      (incremental_checkReturn keyword value.isSome).trans (incremental_optionalExpr value)
  | .classDecl name superclass methods => by
      -- The class to return to is read off the analysis, but it is not a finding.
      have whole (enclosure : Enclosure) := ((incremental_enterClass name superclass).trans
        (incremental_methodBodies methods)).trans (incremental_leaveClass superclass enclosure)
      exact .of_each fun analysis => ⟨_, whole analysis.enclosure, fun _ _ => rfl⟩

theorem incremental_stmts : (statements : List Stmt) → Incremental (stmts statements)
  | [] => .refl
  | first :: rest => (incremental_stmt first).trans (incremental_stmts rest)

theorem incremental_optionalStmt : (statement : Option Stmt) →
    Incremental (optionalStmt statement)
  | none => .refl
  | some statement => incremental_stmt statement

theorem incremental_functionBody : (declaration : FunctionDecl) → (body : Body) →
    Incremental (functionBody declaration body)
  | ⟨_, parameters, statements⟩, body => by
      have entered := ((incremental_withBody body).trans incremental_openScope).trans
        (incremental_introduceAll parameters)
      have whole (outer : Body) := ((entered.trans (incremental_stmts statements)).trans
        incremental_closeScope).trans (incremental_withBody outer)
      exact .of_each fun analysis => ⟨_, whole analysis.body, fun _ _ => rfl⟩

theorem incremental_methodBodies : (methods : List FunctionDecl) →
    Incremental (methodBodies methods)
  | [] => .refl
  | first :: rest =>
      (incremental_functionBody first (methodBody first.name.lexeme)).trans
        (incremental_methodBodies rest)

end

end Analysis

/-! ## Programs in one pass or in two -/

/-- Distances that are noted over others hide these and no more. -/
theorem Ledger.get?_noted (entries : List (Nat × Nat)) (distances : Distances) (number : Nat) :
    (noted entries distances).get? number =
      ((noted entries .empty).get? number).or (distances.get? number) := by
  induction entries generalizing distances with
  | nil => rfl
  | cons entry rest ih =>
      have first : (noted (entry :: rest) .empty).get? number =
          ((noted rest .empty).get? number).or
            ((Distances.empty.note entry.1 entry.2).get? number) := ih _
      have further : (noted (entry :: rest) distances).get? number =
          ((noted rest .empty).get? number).or
            ((distances.note entry.1 entry.2).get? number) := ih _
      rw [first, further, Distances.get?_note, Distances.get?_note, Option.or_assoc]
      split <;> simp

/-- The start of a program, with the findings of earlier ones. -/
def Analysis.resumed (faults : List Diagnostic) (distances : Distances) : Analysis :=
  (Analysis.start distances).withFindings faults distances

/-- A program has faults and entries of its own, which come behind what was found before. -/
theorem exists_findings (program : List Stmt) : ∃ faults entries, ∀ earlier distances,
    Analysis.stmts program (.resumed earlier distances) =
      .resumed (earlier ++ faults) (Ledger.noted entries distances) := by
  obtain ⟨faults, entries, found⟩ := Analysis.incremental_stmts program (.start .empty)
  refine ⟨faults, entries, fun earlier distances => (found earlier distances).trans ?_⟩
  have passes := Analysis.passes_stmts program (.start .empty)
  have scopes : (Analysis.stmts program (.start .empty)).scopes = [] := passes.scopes
  have body : (Analysis.stmts program (.start .empty)).body = .program := passes.body
  have enclosure : (Analysis.stmts program (.start .empty)).enclosure = .none := passes.enclosure
  unfold Analysis.withFindings
  rw [scopes, body, enclosure]
  rfl

/-- The analysis of any expression or statement, at any point, leaves everything around it as
it was and takes no name from the innermost scope. So a program in two parts has the faults of
the first part and then those of the second, and the distances that one pass notes for it are
those that a pass for each part notes. What a pass finds does not depend on the distances that
were noted before. -/
theorem analysis_balanced :
    (∀ (value : Expr) (analysis : Analysis), analysis.Balanced (Analysis.expr value analysis)) ∧
    (∀ (statement : Stmt) (analysis : Analysis),
      analysis.Balanced (Analysis.stmt statement analysis)) ∧
    (∀ (front back : List Stmt) (distances : Distances),
      bindProgram (front ++ back) distances =
        ((bindProgram front distances).1 ++
          (bindProgram back (bindProgram front distances).2).1,
          (bindProgram back (bindProgram front distances).2).2)) ∧
    ∀ (program : List Stmt) (distances : Distances),
      (bindProgram program distances).1 = (bindProgram program .empty).1 ∧
      ∀ number, (bindProgram program distances).2.get? number =
        ((bindProgram program .empty).2.get? number).or (distances.get? number) := by
  have bound {program : List Stmt} {distances noted : Distances} {faults : List Diagnostic}
      (found : Analysis.stmts program (.resumed [] distances) = .resumed faults noted) :
      bindProgram program distances = (faults, noted) := by
    change ((Analysis.stmts program (.resumed [] distances)).faults,
      (Analysis.stmts program (.resumed [] distances)).distances) = _
    rw [found]
    rfl
  refine ⟨fun value analysis => (Analysis.passes_expr value analysis).balanced,
    fun statement analysis => (Analysis.passes_stmt statement analysis).balanced, ?_, ?_⟩
  · intro front back distances
    obtain ⟨faults, entries, found⟩ := exists_findings front
    obtain ⟨more, others, foundMore⟩ := exists_findings back
    have whole : Analysis.stmts (front ++ back) (.resumed [] distances) =
        .resumed (faults ++ more) (Ledger.noted others (Ledger.noted entries distances)) := by
      rw [Analysis.stmts_append, found, foundMore]
      rfl
    rw [bound whole, bound (found [] distances), bound (foundMore [] _)]
    rfl
  · intro program distances
    obtain ⟨faults, entries, found⟩ := exists_findings program
    rw [bound (found [] distances), bound (found [] .empty)]
    exact ⟨rfl, Ledger.get?_noted entries distances⟩

end Lox
