import Lox.Binding.Analysis
import Lox.Proofs.Syntax.Numbers

/-!
# What the analysis of a part changes

The analysis of an expression or statement adds names to the innermost scope,
adds faults, and notes distances of the references in that part. It changes
nothing else, so what holds of the scopes around a part can be read off its
declarations.
-/

namespace Lox

/-! ## Declared names -/

mutual

/-- The names that a statement declares in the scope it stands in. -/
def Stmt.declares : Stmt → List String
  | .var name _ => [name.lexeme]
  | .conditional _ consequent alternative =>
      consequent.declares ++ Stmt.optionDeclares alternative
  | .whileLoop _ body => body.declares
  | .forLoop initializer _ _ body => Stmt.optionDeclares initializer ++ body.declares
  | .function declaration => [declaration.name.lexeme]
  | .classDecl name _ _ => [name.lexeme]
  | .expression _ | .print _ | .block _ | .returning _ _ => []

/-- The names that a statement declares, if there is one. -/
def Stmt.optionDeclares : Option Stmt → List String
  | none => []
  | some statement => statement.declares

end

/-- The names that statements declare in the scope they stand in. -/
def Stmt.listDeclares (statements : List Stmt) : List String :=
  statements.flatMap Stmt.declares

/-- Scopes after names have been declared in the innermost one. Outside of all
scopes a declaration leaves no trace. -/
def declaring (names : List String) : List (Bindings Readiness) → List (Bindings Readiness)
  | [] => []
  | scope :: outer => names.foldl (fun scope name => scope.set name .ready) scope :: outer

/-- A scope has the names that were declared in it and those it had before. -/
theorem contains_declared (names : List String) (scope : Bindings Readiness) (name : String) :
    (names.foldl (fun scope name => scope.set name .ready) scope).contains name = true ↔
      name ∈ names ∨ scope.contains name = true := by
  induction names generalizing scope with
  | nil => simp
  | cons first rest ih =>
      rw [List.foldl_cons, ih, Bindings.contains_set, Bool.or_eq_true, decide_eq_true_eq,
        List.mem_cons, eq_comm, or_left_comm, or_assoc]

@[simp] theorem declaring_nil (scopes : List (Bindings Readiness)) :
    declaring [] scopes = scopes := by
  cases scopes <;> rfl

@[simp] theorem declaring_single (name : String) (scope : Bindings Readiness)
    (outer : List (Bindings Readiness)) :
    declaring [name] (scope :: outer) = scope.set name .ready :: outer := rfl

theorem declaring_append (front back : List String) (scopes : List (Bindings Readiness)) :
    declaring (front ++ back) scopes = declaring back (declaring front scopes) := by
  cases scopes with
  | nil => rfl
  | cons scope outer => simp [declaring]

@[simp] theorem declaring_twice (name : String) (scopes : List (Bindings Readiness)) :
    declaring [name] (declaring [name] scopes) = declaring [name] scopes := by
  cases scopes with
  | nil => rfl
  | cons scope outer => simp

@[simp] theorem tail_declaring (names : List String) (scopes : List (Bindings Readiness)) :
    (declaring names scopes).tail = scopes.tail := by
  cases scopes <;> rfl

@[simp] theorem length_declaring (names : List String) (scopes : List (Bindings Readiness)) :
    (declaring names scopes).length = scopes.length := by
  cases scopes <;> rfl

namespace Analysis

/-! ## Passing over a part -/

/-- From one analysis to another on the way through some references: faults are
never taken back, and distances of other references stay. -/
structure Advances (before after : Analysis) (numbers : List Nat) : Prop where
  faults : before.faults <+: after.faults
  distances : ∀ number ∉ numbers,
    after.distances.get? number = before.distances.get? number

/-- From one analysis to another over a part that declares some names and has
some references in it. -/
structure Passes (before after : Analysis) (names : List String) (numbers : List Nat) :
    Prop extends before.Advances after numbers where
  scopes : after.scopes = declaring names before.scopes
  body : after.body = before.body
  enclosure : after.enclosure = before.enclosure

namespace Advances

variable {before middle after : Analysis} {numbers first second : List Nat}

/-- Nothing has been found on the way. -/
theorem of_eq (faults : after.faults = before.faults)
    (distances : after.distances = before.distances) : before.Advances after [] := by
  constructor
  · simp [faults]
  · intro number _
    rw [distances]

theorem trans (one : before.Advances middle first) (other : middle.Advances after second) :
    before.Advances after (first ++ second) := by
  constructor
  · exact one.faults.trans other.faults
  · intro number outside
    rw [List.mem_append, not_or] at outside
    rw [other.distances number outside.2, one.distances number outside.1]

/-- More references may be allowed for. -/
theorem weaken (advances : before.Advances after first) (subset : first ⊆ second) :
    before.Advances after second := by
  constructor
  · exact advances.faults
  · exact fun number outside => advances.distances number fun inside => outside (subset inside)

/-- Where no fault is found in the end, none was found on the way. -/
theorem clean (advances : before.Advances after numbers) (quiet : after.faults = []) :
    before.faults = [] :=
  List.prefix_nil.mp (quiet ▸ advances.faults)

end Advances

namespace Passes

variable {before middle after : Analysis} {names front back : List String}
variable {numbers first second : List Nat}

theorem refl (analysis : Analysis) : analysis.Passes analysis [] [] :=
  ⟨.of_eq rfl rfl, by simp, rfl, rfl⟩

theorem trans (one : before.Passes middle front first) (other : middle.Passes after back second) :
    before.Passes after (front ++ back) (first ++ second) := by
  constructor
  · exact one.toAdvances.trans other.toAdvances
  · rw [other.scopes, one.scopes, declaring_append]
  · exact other.body.trans one.body
  · exact other.enclosure.trans one.enclosure

theorem weaken (passes : before.Passes after names first) (subset : first ⊆ second) :
    before.Passes after names second :=
  ⟨passes.toAdvances.weaken subset, passes.scopes, passes.body, passes.enclosure⟩

end Passes

/-! ## Single steps -/

variable (analysis : Analysis) (name : Token) (reference : Reference)

theorem passes_report (token : Token) (fault : BindingFault) :
    analysis.Passes (analysis.report token fault) [] [] := by
  refine ⟨⟨?_, fun _ _ => rfl⟩, ?_, rfl, rfl⟩
  · exact List.prefix_append _ _
  · simp [report]

theorem passes_bind : analysis.Passes (analysis.bind reference) [] [reference.id] := by
  unfold bind
  split
  · refine ⟨⟨List.prefix_rfl, ?_⟩, by simp, rfl, rfl⟩
    intro number outside
    rw [Distances.get?_note, if_neg]
    exact fun same => outside (by simp [same])
  · exact (Passes.refl analysis).weaken (List.nil_subset _)

theorem passes_bindVariable :
    analysis.Passes (analysis.bindVariable reference) [] [reference.id] := by
  unfold bindVariable
  split
  · exact (passes_report analysis _ _).weaken (List.nil_subset _)
  · exact passes_bind analysis reference

theorem passes_bindThis : analysis.Passes (analysis.bindThis reference) [] [reference.id] := by
  unfold bindThis
  split
  · exact (passes_report analysis _ _).weaken (List.nil_subset _)
  · exact passes_bind analysis reference

theorem passes_bindSuper : analysis.Passes (analysis.bindSuper reference) [] [reference.id] := by
  unfold bindSuper
  split
  · exact (passes_report analysis _ _).weaken (List.nil_subset _)
  · exact (passes_report analysis _ _).weaken (List.nil_subset _)
  · exact passes_bind analysis reference

theorem passes_checkReturn (keyword : Token) (hasValue : Bool) :
    analysis.Passes (analysis.checkReturn keyword hasValue) [] [] := by
  unfold checkReturn
  split
  · exact passes_report analysis _ _
  · split
    · exact passes_report analysis _ _
    · exact Passes.refl analysis
  · exact Passes.refl analysis

theorem passes_checkSuperclass (superclass : Expr) :
    analysis.Passes (analysis.checkSuperclass name superclass) [] [] := by
  unfold checkSuperclass
  split
  · split
    · exact passes_report analysis _ _
    · exact Passes.refl analysis
  · exact Passes.refl analysis

/-! ## Scopes and declarations -/

/-- Outside of the scopes nothing changes when a name is declared. -/
theorem advances_declare : analysis.Advances (analysis.declare name) [] := by
  unfold declare
  split
  · exact .of_eq rfl rfl
  · split
    · exact (passes_report analysis _ _).toAdvances
    · exact .of_eq rfl rfl

theorem advances_define (text : String) : analysis.Advances (analysis.define text) [] := by
  unfold define
  split <;> exact .of_eq rfl rfl

theorem advances_introduce : analysis.Advances (analysis.introduce name) [] :=
  (advances_declare analysis name).trans (advances_define _ _)

/-- Neither the body nor the class around a declaration changes. -/
theorem around_declare : (analysis.declare name).body = analysis.body ∧
    (analysis.declare name).enclosure = analysis.enclosure := by
  unfold declare
  split
  · simp
  · split <;> simp [report]

theorem around_define (text : String) : (analysis.define text).body = analysis.body ∧
    (analysis.define text).enclosure = analysis.enclosure := by
  unfold define
  split <;> simp

/-- A name declared and defined is in the innermost scope, also if nothing but
the scopes agrees between the two. -/
theorem scopes_define_declare {middle : Analysis}
    (same : middle.scopes = (analysis.declare name).scopes) :
    (middle.define name.lexeme).scopes = declaring [name.lexeme] analysis.scopes := by
  unfold declare at same
  unfold define
  cases around : analysis.scopes with
  | nil =>
      rw [around] at same
      rw [same]
      simp [declaring, same, around]
  | cons scope outer =>
      rw [around] at same
      by_cases taken : scope.contains name.lexeme = true
      · simp only [taken, if_true, report, around] at same
        rw [same]
        simp [declaring]
      · simp only [taken] at same
        rw [same]
        simp [declaring]

/-- Declaring and defining a name, with a part in between that declares nothing,
puts the name into the innermost scope. -/
theorem passes_define {after : Analysis} {numbers : List Nat}
    (passes : (analysis.declare name).Passes after [] numbers) :
    analysis.Passes (after.define name.lexeme) [name.lexeme] numbers := by
  obtain ⟨declaredBody, declaredEnclosure⟩ := around_declare analysis name
  obtain ⟨definedBody, definedEnclosure⟩ := around_define after name.lexeme
  constructor
  · have advances := ((advances_declare analysis name).trans passes.toAdvances).trans
      (advances_define after name.lexeme)
    simpa using advances
  · exact scopes_define_declare analysis name (by rw [passes.scopes, declaring_nil])
  · rw [definedBody, passes.body, declaredBody]
  · rw [definedEnclosure, passes.enclosure, declaredEnclosure]

theorem passes_introduce : analysis.Passes (analysis.introduce name) [name.lexeme] [] :=
  passes_define analysis name (Passes.refl _)

theorem passes_introduceAll (names : List Token) :
    analysis.Passes (names.foldl (fun analysis name => analysis.introduce name) analysis)
      (names.map Token.lexeme) [] := by
  induction names generalizing analysis with
  | nil => exact Passes.refl analysis
  | cons name rest ih =>
      exact (passes_introduce analysis name).trans (ih (analysis.introduce name))

/-! ## Scopes of their own -/

/-- What is declared in a scope is gone when the scope is closed. -/
theorem Passes.close {before after : Analysis} {names : List String} {numbers : List Nat}
    (passes : before.openScope.Passes after names numbers) :
    before.Passes after.closeScope [] numbers := by
  refine ⟨⟨passes.faults, passes.distances⟩, ?_, passes.body, passes.enclosure⟩
  simp [closeScope, passes.scopes, openScope]

/-- The start of a function body: its parameters in a scope of their own. -/
def enterFunction (declaration : FunctionDecl) (body : Body) (analysis : Analysis) : Analysis :=
  declaration.parameters.foldl (fun analysis name => analysis.introduce name)
    (analysis.withBody body).openScope

theorem functionBody_eq (declaration : FunctionDecl) (body : Body) :
    functionBody declaration body analysis =
      ((stmts declaration.body (analysis.enterFunction declaration body)).closeScope).withBody
        analysis.body := by
  obtain ⟨_, _, _⟩ := declaration
  rw [functionBody]
  rfl

theorem passes_enterFunction (declaration : FunctionDecl) (body : Body) :
    (analysis.withBody body).openScope.Passes (analysis.enterFunction declaration body)
      (declaration.parameters.map Token.lexeme) [] :=
  passes_introduceAll _ declaration.parameters

theorem scopes_enterFunction (declaration : FunctionDecl) (body : Body) :
    (analysis.enterFunction declaration body).scopes =
      declaring (declaration.parameters.map Token.lexeme) (.empty :: analysis.scopes) :=
  (passes_enterFunction analysis declaration body).scopes

/-- The point at which a superclass is read. -/
def atSuperclass (superclass : Expr) (analysis : Analysis) : Analysis :=
  (((analysis.withEnclosure .baseClass).introduce name).checkSuperclass name
    superclass).withEnclosure .subclass

/-- The class that encloses the methods of a class. -/
def enclosureOf : Option Expr → Enclosure
  | none => .baseClass
  | some _ => .subclass

/-- The scope that holds `this`, and the one around it that holds `super` where
there is a superclass. -/
def receiverScopes : Option Expr → List (Bindings Readiness)
  | none => [Bindings.empty.set "this" .ready]
  | some _ => [Bindings.empty.set "this" .ready, Bindings.empty.set "super" .ready]

theorem enterClass_none : analysis.enterClass name none =
    (((analysis.withEnclosure .baseClass).introduce name).openScope).define "this" := rfl

theorem enterClass_some (superclass : Expr) : analysis.enterClass name (some superclass) =
    ((((expr superclass (analysis.atSuperclass name superclass)).openScope).define
      "super").openScope).define "this" := rfl

/-- Opening a scope with one name in it. -/
theorem passes_openWith (text : String) :
    ((analysis.openScope).define text).scopes =
        Bindings.empty.set text .ready :: analysis.scopes ∧
      ((analysis.openScope).define text).body = analysis.body ∧
      ((analysis.openScope).define text).enclosure = analysis.enclosure ∧
      analysis.Advances ((analysis.openScope).define text) [] :=
  ⟨rfl, rfl, rfl, .of_eq rfl rfl⟩

theorem scopes_atSuperclass (superclass : Expr) :
    (analysis.atSuperclass name superclass).scopes =
      declaring [name.lexeme] analysis.scopes := by
  have checked := passes_checkSuperclass ((analysis.withEnclosure .baseClass).introduce name)
    name superclass
  have introduced := passes_introduce (analysis.withEnclosure .baseClass) name
  change (((analysis.withEnclosure .baseClass).introduce name).checkSuperclass name
    superclass).scopes = _
  rw [checked.scopes, declaring_nil, introduced.scopes]
  rfl

theorem advances_atSuperclass (superclass : Expr) :
    analysis.Advances (analysis.atSuperclass name superclass) [] := by
  have checked := (passes_checkSuperclass ((analysis.withEnclosure .baseClass).introduce name)
    name superclass).toAdvances
  have introduced := (passes_introduce (analysis.withEnclosure .baseClass) name).toAdvances
  have both := introduced.trans checked
  exact ⟨both.faults, both.distances⟩

theorem body_atSuperclass (superclass : Expr) :
    (analysis.atSuperclass name superclass).body = analysis.body := by
  have checked := passes_checkSuperclass ((analysis.withEnclosure .baseClass).introduce name)
    name superclass
  have introduced := passes_introduce (analysis.withEnclosure .baseClass) name
  exact checked.body.trans introduced.body

/-! ## Whole parts -/

mutual

/-- Analysing an expression declares nothing. -/
theorem passes_expr (value : Expr) (analysis : Analysis) :
    analysis.Passes (expr value analysis) [] value.numbers := by
  cases value with
  | literal _ => exact Passes.refl analysis
  | grouping inner => exact passes_expr inner analysis
  | unary _ operand => exact passes_expr operand analysis
  | binary left _ right => exact (passes_expr left analysis).trans (passes_expr right _)
  | logical left _ right => exact (passes_expr left analysis).trans (passes_expr right _)
  | «variable» reference => exact passes_bindVariable analysis reference
  | assign reference value => exact (passes_expr value analysis).trans (passes_bind _ reference)
  | call callee _ arguments => exact (passes_expr callee analysis).trans (passes_exprs arguments _)
  | get object _ => exact passes_expr object analysis
  | set object _ value =>
      have passes := (passes_expr value analysis).trans (passes_expr object _)
      apply passes.weaken
      intro number inside
      simpa [or_comm] using inside
  | this reference => exact passes_bindThis analysis reference
  | super reference _ => exact passes_bindSuper analysis reference

theorem passes_exprs (values : List Expr) (analysis : Analysis) :
    analysis.Passes (exprs values analysis) [] (Expr.listNumbers values) := by
  cases values with
  | nil => exact Passes.refl analysis
  | cons first rest => exact (passes_expr first analysis).trans (passes_exprs rest _)

end

@[simp] theorem scopes_expr (value : Expr) : (expr value analysis).scopes = analysis.scopes := by
  rw [(passes_expr value analysis).scopes, declaring_nil]

@[simp] theorem scopes_exprs (values : List Expr) :
    (exprs values analysis).scopes = analysis.scopes := by
  rw [(passes_exprs values analysis).scopes, declaring_nil]

theorem passes_optionalExpr (value : Option Expr) :
    analysis.Passes (optionalExpr value analysis) [] (Expr.optionNumbers value) := by
  cases value with
  | none => exact Passes.refl analysis
  | some value => exact passes_expr value analysis

@[simp] theorem scopes_optionalExpr (value : Option Expr) :
    (optionalExpr value analysis).scopes = analysis.scopes := by
  rw [(passes_optionalExpr analysis value).scopes, declaring_nil]

/-- A class opens the scopes of its receiver inside the scope of its name. -/
theorem enterClass_passes (superclass : Option Expr) :
    analysis.Advances (analysis.enterClass name superclass) (Expr.optionNumbers superclass) ∧
      (analysis.enterClass name superclass).scopes =
        receiverScopes superclass ++ declaring [name.lexeme] analysis.scopes ∧
      (analysis.enterClass name superclass).body = analysis.body ∧
      (analysis.enterClass name superclass).enclosure = enclosureOf superclass := by
  cases superclass with
  | none =>
      have introduced := passes_introduce (analysis.withEnclosure .baseClass) name
      obtain ⟨scopes, body, enclosure, advances⟩ :=
        passes_openWith ((analysis.withEnclosure .baseClass).introduce name) "this"
      rw [enterClass_none]
      refine ⟨?_, ?_, ?_, ?_⟩
      · have both := introduced.toAdvances.trans advances
        exact ⟨both.faults, both.distances⟩
      · rw [scopes, introduced.scopes]
        rfl
      · rw [body, introduced.body]
        rfl
      · rw [enclosure, introduced.enclosure]
        rfl
  | some superclass =>
      have passes := passes_expr superclass (analysis.atSuperclass name superclass)
      obtain ⟨innerScopes, innerBody, innerEnclosure, innerAdvances⟩ :=
        passes_openWith (expr superclass (analysis.atSuperclass name superclass)) "super"
      obtain ⟨scopes, body, enclosure, advances⟩ :=
        passes_openWith
          (((expr superclass (analysis.atSuperclass name superclass)).openScope).define
          "super") "this"
      rw [enterClass_some]
      refine ⟨?_, ?_, ?_, ?_⟩
      · have all := (((advances_atSuperclass analysis name superclass).trans
          passes.toAdvances).trans innerAdvances).trans advances
        simpa [Expr.optionNumbers] using all
      · rw [scopes, innerScopes, passes.scopes, declaring_nil, scopes_atSuperclass]
        rfl
      · rw [body, innerBody, passes.body, body_atSuperclass]
      · rw [enclosure, innerEnclosure, passes.enclosure]
        rfl

theorem scopes_leaveClass (superclass : Option Expr) (enclosure : Enclosure)
    {outer : List (Bindings Readiness)}
    (inside : analysis.scopes = receiverScopes superclass ++ outer) :
    (analysis.leaveClass superclass enclosure).scopes = outer := by
  cases superclass <;>
    simp [leaveClass, withEnclosure, closeScope, inside, receiverScopes]

theorem leaveClass_around (superclass : Option Expr) (enclosure : Enclosure) :
    (analysis.leaveClass superclass enclosure).body = analysis.body ∧
      (analysis.leaveClass superclass enclosure).enclosure = enclosure ∧
      analysis.Advances (analysis.leaveClass superclass enclosure) [] := by
  cases superclass <;> exact ⟨rfl, rfl, .of_eq rfl rfl⟩

mutual

/-- Analysing a statement declares its names in the scope it stands in. -/
theorem passes_stmt (statement : Stmt) (analysis : Analysis) :
    analysis.Passes (stmt statement analysis) statement.declares statement.numbers := by
  cases statement with
  | expression value =>
      rw [stmt]
      exact passes_expr value analysis
  | print value =>
      rw [stmt]
      exact passes_expr value analysis
  | var name initializer =>
      rw [stmt]
      exact passes_define analysis name (passes_optionalExpr _ initializer)
  | block body =>
      rw [stmt]
      exact (passes_stmts body analysis.openScope).close
  | conditional condition consequent alternative =>
      rw [stmt, Stmt.declares, Stmt.numbers]
      have front := (passes_expr condition analysis).trans (passes_stmt consequent _)
      exact front.trans (passes_optionalStmt alternative _)
  | whileLoop condition body =>
      rw [stmt, Stmt.declares, Stmt.numbers]
      exact (passes_expr condition analysis).trans (passes_stmt body _)
  | forLoop initializer condition increment body =>
      rw [stmt, Stmt.declares, Stmt.numbers]
      have clauses := ((passes_optionalStmt initializer analysis).trans
        (passes_optionalExpr _ condition)).trans (passes_optionalExpr _ increment)
      simpa using clauses.trans (passes_stmt body _)
  | function declaration =>
      rw [stmt, Stmt.declares, Stmt.numbers]
      exact (passes_introduce analysis declaration.name).trans
        (passes_functionBody declaration .function _)
  | returning keyword value =>
      rw [stmt, Stmt.declares, Stmt.numbers]
      exact (passes_checkReturn analysis keyword value.isSome).trans (passes_optionalExpr _ value)
  | classDecl name superclass methods =>
      rw [stmt, Stmt.declares, Stmt.numbers]
      obtain ⟨entered, enteredScopes, enteredBody, -⟩ :=
        enterClass_passes analysis name superclass
      have members := passes_methodBodies methods (analysis.enterClass name superclass)
      obtain ⟨leftBody, leftEnclosure, left⟩ :=
        leaveClass_around (methodBodies methods (analysis.enterClass name superclass))
          superclass analysis.enclosure
      constructor
      · simpa using (entered.trans members.toAdvances).trans left
      · apply scopes_leaveClass
        rw [members.scopes, declaring_nil, enteredScopes]
      · rw [leftBody, members.body, enteredBody]
      · exact leftEnclosure

theorem passes_stmts (statements : List Stmt) (analysis : Analysis) :
    analysis.Passes (stmts statements analysis) (Stmt.listDeclares statements)
      (Stmt.listNumbers statements) := by
  cases statements with
  | nil =>
      rw [stmts]
      exact Passes.refl analysis
  | cons first rest =>
      rw [stmts]
      exact (passes_stmt first analysis).trans (passes_stmts rest _)

theorem passes_optionalStmt (statement : Option Stmt) (analysis : Analysis) :
    analysis.Passes (optionalStmt statement analysis) (Stmt.optionDeclares statement)
      (Stmt.optionNumbers statement) := by
  cases statement with
  | none =>
      rw [optionalStmt]
      exact Passes.refl analysis
  | some statement =>
      rw [optionalStmt]
      exact passes_stmt statement analysis

/-- Analysing a function body declares nothing around it. -/
theorem passes_functionBody (declaration : FunctionDecl) (body : Body) (analysis : Analysis) :
    analysis.Passes (functionBody declaration body analysis) [] declaration.numbers := by
  obtain ⟨name, parameters, statements⟩ := declaration
  rw [functionBody_eq]
  have entered := passes_enterFunction analysis ⟨name, parameters, statements⟩ body
  have closed := (entered.trans (passes_stmts statements _)).close
  exact ⟨⟨closed.faults, closed.distances⟩, closed.scopes, rfl, closed.enclosure⟩

theorem passes_methodBodies (methods : List FunctionDecl) (analysis : Analysis) :
    analysis.Passes (methodBodies methods analysis) [] (FunctionDecl.listNumbers methods) := by
  cases methods with
  | nil =>
      rw [methodBodies]
      exact Passes.refl analysis
  | cons first rest =>
      rw [methodBodies]
      exact (passes_functionBody first _ analysis).trans (passes_methodBodies rest _)

end

theorem scopes_stmt (statement : Stmt) :
    (stmt statement analysis).scopes = declaring statement.declares analysis.scopes :=
  (passes_stmt statement analysis).scopes

theorem scopes_stmts (statements : List Stmt) :
    (stmts statements analysis).scopes =
      declaring (Stmt.listDeclares statements) analysis.scopes :=
  (passes_stmts statements analysis).scopes

@[simp] theorem scopes_methodBodies (methods : List FunctionDecl) :
    (methodBodies methods analysis).scopes = analysis.scopes := by
  rw [(passes_methodBodies methods analysis).scopes, declaring_nil]

end Analysis

end Lox
