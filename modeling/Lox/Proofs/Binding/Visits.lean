import Lox.Proofs.Binding.Passes
import Lox.Proofs.Syntax.Placement

/-!
# What the analysis visits

A visit is an expression or statement together with what is known at the point
where the analysis comes to it. Visits contain each other as the parts of a
program do. What the analysis notes about a use of a name is stated here at its
visit, against the distances that stand at the end.
-/

namespace Lox

/-! ## Names that may be left unbound -/

/-- The names that the parts of a statement declare without standing in a list of
statements. A run may leave out such a part, and its names with it. -/
def Stmt.bareNames : Stmt → List String
  | .conditional _ consequent alternative =>
      consequent.declares ++ Stmt.optionDeclares alternative
  | .whileLoop _ body => body.declares
  | .forLoop _ _ _ body => body.declares
  | _ => []

/-- The names that the parts of several statements declare in this way. -/
def Stmt.listBareNames (statements : List Stmt) : List String :=
  statements.flatMap Stmt.bareNames

mutual

/-- Whether a loop with a variable of its own is in a statement, outside of all blocks. -/
def Stmt.hasBareVariable : Stmt → Bool
  | .conditional _ consequent alternative =>
      consequent.hasBareVariable || Stmt.optionHasBareVariable alternative
  | .whileLoop _ body => body.hasBareVariable
  | .forLoop (some (.var _ _)) _ _ _ => true
  | .forLoop _ _ _ body => body.hasBareVariable
  | _ => false

/-- Whether such a loop is in a statement, if there is one. -/
def Stmt.optionHasBareVariable : Option Stmt → Bool
  | none => false
  | some statement => statement.hasBareVariable

end

mutual

/-- A statement that is no declaration and has no such loop declares nothing. -/
theorem Stmt.declares_of_not_bare (statement : Stmt) (placed : statement.Placed)
    (plain : statement.isDeclaration = false) (bare : statement.hasBareVariable = false) :
    statement.declares = [] := by
  cases statement with
  | conditional _ consequent alternative =>
      rw [Stmt.hasBareVariable, Bool.or_eq_false_iff] at bare
      rw [Stmt.declares, consequent.declares_of_not_bare placed.2.1.2 placed.2.1.1 bare.1,
        Stmt.optionDeclares_of_not_bare alternative placed.2.2 bare.2, List.append_nil]
  | whileLoop _ body =>
      rw [Stmt.declares]
      exact body.declares_of_not_bare placed.2.2 placed.2.1 bare
  | forLoop initializer _ _ body =>
      cases initializer with
      | none => exact body.declares_of_not_bare placed.2.2.2.2 placed.2.2.2.1 bare
      | some clause =>
          rcases placed.1.1 with ⟨_, _, rfl⟩ | ⟨_, rfl⟩
          · cases bare
          · exact body.declares_of_not_bare placed.2.2.2.2 placed.2.2.2.1 bare
  | var _ _ => cases plain
  | function _ => cases plain
  | classDecl _ _ _ => cases plain
  | _ => rfl

theorem Stmt.optionDeclares_of_not_bare :
    (statement : Option Stmt) → Stmt.OptionPlaced statement →
      Stmt.optionHasBareVariable statement = false → Stmt.optionDeclares statement = []
  | none, _, _ => rfl
  | some statement, placed, bare => statement.declares_of_not_bare placed.2 placed.1 bare

end

/-- Names left unbound in each scope, behind a part of the innermost one. -/
def passing (names : List String) : List (List String) → List (List String)
  | [] => []
  | scope :: outer => (scope ++ names) :: outer

@[simp] theorem passing_nil (loose : List (List String)) : passing [] loose = loose := by
  cases loose with
  | nil => rfl
  | cons scope outer => simp [passing]

theorem passing_append (front back : List String) (loose : List (List String)) :
    passing (front ++ back) loose = passing back (passing front loose) := by
  cases loose with
  | nil => rfl
  | cons scope outer => simp [passing]

/-! ## Visits -/

/-- What can be visited. -/
inductive Node where
  | expr (value : Expr)
  | stmt (statement : Stmt)

/-- An expression or statement with what is known in front of it. -/
structure Visit where
  node : Node
  analysis : Analysis
  /-- For each scope around, the names that earlier statements in it may have left
  unbound. -/
  loose : List (List String)

namespace Node

/-- The reference numbers of an expression or statement. -/
def numbers : Node → List Nat
  | .expr value => value.numbers
  | .stmt statement => statement.numbers

@[simp] theorem numbers_expr (value : Expr) : (expr value).numbers = value.numbers := rfl

@[simp] theorem numbers_stmt (statement : Stmt) :
    (stmt statement).numbers = statement.numbers := rfl

/-- The names and declarations in an expression or statement stand where they
may. -/
def Placed : Node → Prop
  | .expr value => value.Placed
  | .stmt statement => statement.Placed

/-- What is known behind an expression or statement. -/
def analysed : Node → Analysis → Analysis
  | .expr value, analysis => analysis.expr value
  | .stmt statement, analysis => analysis.stmt statement

end Node

namespace Visit

open Analysis

/-- What is known behind a visit. -/
def after (visit : Visit) : Analysis :=
  visit.node.analysed visit.analysis

/-- One visit contains another one directly. A loop behind its first clause
counts as a loop of its own. -/
inductive Contains : Visit → Visit → Prop where
  | grouping {inner : Expr} {analysis : Analysis} {loose : List (List String)} :
      Contains ⟨.expr (.grouping inner), analysis, loose⟩ ⟨.expr inner, analysis, loose⟩
  | operand {operator : Token} {operand : Expr} {analysis : Analysis} {loose : List (List String)} :
      Contains ⟨.expr (.unary operator operand), analysis, loose⟩ ⟨.expr operand, analysis, loose⟩
  | left {left right : Expr} {operator : Token} {analysis : Analysis} {loose : List (List String)} :
      Contains ⟨.expr (.binary left operator right), analysis, loose⟩ ⟨.expr left, analysis, loose⟩
  | right {left right : Expr} {operator : Token}
      {analysis : Analysis} {loose : List (List String)} :
      Contains ⟨.expr (.binary left operator right), analysis, loose⟩
        ⟨.expr right, expr left analysis, loose⟩
  | logicalLeft {left right : Expr} {operator : Token}
      {analysis : Analysis} {loose : List (List String)} :
      Contains ⟨.expr (.logical left operator right), analysis, loose⟩ ⟨.expr left, analysis, loose⟩
  | logicalRight {left right : Expr} {operator : Token}
      {analysis : Analysis} {loose : List (List String)} :
      Contains ⟨.expr (.logical left operator right), analysis, loose⟩
        ⟨.expr right, expr left analysis, loose⟩
  | assigned {reference : Reference} {value : Expr}
      {analysis : Analysis} {loose : List (List String)} :
      Contains ⟨.expr (.assign reference value), analysis, loose⟩ ⟨.expr value, analysis, loose⟩
  | callee {callee : Expr} {paren : Token} {arguments : List Expr}
      {analysis : Analysis} {loose : List (List String)} :
      Contains ⟨.expr (.call callee paren arguments), analysis, loose⟩
        ⟨.expr callee, analysis, loose⟩
  | argument {callee value : Expr} {paren : Token} {front back : List Expr}
      {analysis : Analysis} {loose : List (List String)} :
      Contains ⟨.expr (.call callee paren (front ++ value :: back)), analysis, loose⟩
        ⟨.expr value, exprs front (expr callee analysis), loose⟩
  | object {object : Expr} {name : Token} {analysis : Analysis} {loose : List (List String)} :
      Contains ⟨.expr (.get object name), analysis, loose⟩ ⟨.expr object, analysis, loose⟩
  | stored {object value : Expr} {name : Token} {analysis : Analysis} {loose : List (List String)} :
      Contains ⟨.expr (.set object name value), analysis, loose⟩ ⟨.expr value, analysis, loose⟩
  | changed {object value : Expr} {name : Token}
      {analysis : Analysis} {loose : List (List String)} :
      Contains ⟨.expr (.set object name value), analysis, loose⟩
        ⟨.expr object, expr value analysis, loose⟩
  | effect {value : Expr} {analysis : Analysis} {loose : List (List String)} :
      Contains ⟨.stmt (.expression value), analysis, loose⟩ ⟨.expr value, analysis, loose⟩
  | printed {value : Expr} {analysis : Analysis} {loose : List (List String)} :
      Contains ⟨.stmt (.print value), analysis, loose⟩ ⟨.expr value, analysis, loose⟩
  | initializer {name : Token} {value : Expr} {analysis : Analysis} {loose : List (List String)} :
      Contains ⟨.stmt (.var name (some value)), analysis, loose⟩
        ⟨.expr value, analysis.declare name, loose⟩
  | member {front back : List Stmt} {statement : Stmt}
      {analysis : Analysis} {loose : List (List String)} :
      Contains ⟨.stmt (.block (front ++ statement :: back)), analysis, loose⟩
        ⟨.stmt statement, stmts front analysis.openScope,
          passing (Stmt.listBareNames front) ([] :: loose)⟩
  | condition {condition : Expr} {consequent : Stmt} {alternative : Option Stmt}
      {analysis : Analysis} {loose : List (List String)} :
      Contains ⟨.stmt (.conditional condition consequent alternative), analysis, loose⟩
        ⟨.expr condition, analysis, loose⟩
  | consequent {condition : Expr} {consequent : Stmt} {alternative : Option Stmt}
      {analysis : Analysis} {loose : List (List String)} :
      Contains ⟨.stmt (.conditional condition consequent alternative), analysis, loose⟩
        ⟨.stmt consequent, expr condition analysis, loose⟩
  | alternative {condition : Expr} {consequent alternative : Stmt}
      {analysis : Analysis} {loose : List (List String)} :
      Contains ⟨.stmt (.conditional condition consequent (some alternative)), analysis, loose⟩
        ⟨.stmt alternative, stmt consequent (expr condition analysis),
          passing consequent.declares loose⟩
  | whileCondition {condition : Expr} {body : Stmt}
      {analysis : Analysis} {loose : List (List String)} :
      Contains ⟨.stmt (.whileLoop condition body), analysis, loose⟩
        ⟨.expr condition, analysis, loose⟩
  | whileBody {condition : Expr} {body : Stmt} {analysis : Analysis} {loose : List (List String)} :
      Contains ⟨.stmt (.whileLoop condition body), analysis, loose⟩
        ⟨.stmt body, expr condition analysis, loose⟩
  | forInitializer {initializer : Stmt} {condition increment : Option Expr} {body : Stmt}
      {analysis : Analysis} {loose : List (List String)} :
      Contains ⟨.stmt (.forLoop (some initializer) condition increment body), analysis, loose⟩
        ⟨.stmt initializer, analysis, loose⟩
  | forRest {initializer : Stmt} {condition increment : Option Expr} {body : Stmt}
      {analysis : Analysis} {loose : List (List String)} :
      Contains ⟨.stmt (.forLoop (some initializer) condition increment body), analysis, loose⟩
        ⟨.stmt (.forLoop none condition increment body), stmt initializer analysis, loose⟩
  | forCondition {condition : Expr} {increment : Option Expr} {body : Stmt}
      {analysis : Analysis} {loose : List (List String)} :
      Contains ⟨.stmt (.forLoop none (some condition) increment body), analysis, loose⟩
        ⟨.expr condition, analysis, loose⟩
  | forIncrement {condition : Option Expr} {increment : Expr} {body : Stmt}
      {analysis : Analysis} {loose : List (List String)} :
      Contains ⟨.stmt (.forLoop none condition (some increment) body), analysis, loose⟩
        ⟨.expr increment, optionalExpr condition analysis, loose⟩
  | forBody {condition increment : Option Expr} {body : Stmt}
      {analysis : Analysis} {loose : List (List String)} :
      Contains ⟨.stmt (.forLoop none condition increment body), analysis, loose⟩
        ⟨.stmt body, optionalExpr increment (optionalExpr condition analysis), loose⟩
  | functionBody {declaration : FunctionDecl} {front back : List Stmt} {statement : Stmt}
      {analysis : Analysis} {loose : List (List String)}
      (body : declaration.body = front ++ statement :: back) :
      Contains ⟨.stmt (.function declaration), analysis, loose⟩
        ⟨.stmt statement,
          stmts front ((analysis.introduce declaration.name).enterFunction declaration .function),
          passing (Stmt.listBareNames front) ([] :: loose)⟩
  | returned {keyword : Token} {value : Expr} {analysis : Analysis} {loose : List (List String)} :
      Contains ⟨.stmt (.returning keyword (some value)), analysis, loose⟩
        ⟨.expr value, analysis.checkReturn keyword true, loose⟩
  | superclass {name : Token} {superclass : Expr} {methods : List FunctionDecl}
      {analysis : Analysis} {loose : List (List String)} :
      Contains ⟨.stmt (.classDecl name (some superclass) methods), analysis, loose⟩
        ⟨.expr superclass, analysis.atSuperclass name superclass, loose⟩
  | methodBody {name : Token} {superclass : Option Expr} {earlier later : List FunctionDecl}
      {method : FunctionDecl} {front back : List Stmt} {statement : Stmt}
      {analysis : Analysis} {loose : List (List String)}
      (body : method.body = front ++ statement :: back) :
      Contains ⟨.stmt (.classDecl name superclass (earlier ++ method :: later)), analysis, loose⟩
        ⟨.stmt statement,
          stmts front ((methodBodies earlier (analysis.enterClass name superclass)).enterFunction
            method (methodBody method.name.lexeme)),
          passing (Stmt.listBareNames front)
            ([] :: (receiverScopes superclass).map (fun _ => []) ++ loose)⟩

end Visit

namespace Analysis

/-! ## Lists part by part -/

theorem exprs_append (front back : List Expr) (analysis : Analysis) :
    exprs (front ++ back) analysis = exprs back (exprs front analysis) := by
  induction front generalizing analysis with
  | nil => rfl
  | cons first rest ih => exact ih (expr first analysis)

theorem stmts_append (front back : List Stmt) (analysis : Analysis) :
    stmts (front ++ back) analysis = stmts back (stmts front analysis) := by
  induction front generalizing analysis with
  | nil => rw [List.nil_append, stmts]
  | cons first rest ih => rw [List.cons_append, stmts, stmts, ih]

theorem methodBodies_append (front back : List FunctionDecl) (analysis : Analysis) :
    methodBodies (front ++ back) analysis = methodBodies back (methodBodies front analysis) := by
  induction front generalizing analysis with
  | nil => rw [List.nil_append, methodBodies]
  | cons first rest ih => rw [List.cons_append, methodBodies, methodBodies, ih]

end Analysis

@[simp] theorem Expr.listNumbers_append (front back : List Expr) :
    Expr.listNumbers (front ++ back) = Expr.listNumbers front ++ Expr.listNumbers back := by
  simp [Expr.listNumbers_eq_flatMap]

@[simp] theorem Stmt.listNumbers_append (front back : List Stmt) :
    Stmt.listNumbers (front ++ back) = Stmt.listNumbers front ++ Stmt.listNumbers back := by
  induction front with
  | nil => simp
  | cons first rest ih => simp [ih]

@[simp] theorem FunctionDecl.listNumbers_append (front back : List FunctionDecl) :
    FunctionDecl.listNumbers (front ++ back) =
      FunctionDecl.listNumbers front ++ FunctionDecl.listNumbers back := by
  induction front with
  | nil => simp
  | cons first rest ih => simp [ih]

/-! ## Names being given their initial value -/

/-- No name in the scopes is being given its initial value. -/
def AllReady (scopes : List (Bindings Readiness)) : Prop :=
  ∀ scope ∈ scopes, ∀ name, scope.get? name ≠ some .pending

namespace AllReady

variable {scopes : List (Bindings Readiness)}

theorem tail (ready : AllReady scopes) : AllReady scopes.tail :=
  fun scope inside => ready scope (List.mem_of_mem_tail inside)

theorem cons {scope : Bindings Readiness} (own : ∀ name, scope.get? name ≠ some .pending)
    (ready : AllReady scopes) : AllReady (scope :: scopes) := by
  intro other inside
  rcases List.mem_cons.mp inside with rfl | outer
  · exact own
  · exact ready other outer

theorem openScope (ready : AllReady scopes) : AllReady (.empty :: scopes) :=
  ready.cons (by simp)

theorem openWith (ready : AllReady scopes) (text : String) :
    AllReady (Bindings.empty.set text .ready :: scopes) := by
  apply ready.cons
  intro name
  rw [Bindings.get?_set]
  split <;> simp

theorem declaring (ready : AllReady scopes) (names : List String) :
    AllReady (declaring names scopes) := by
  induction names generalizing scopes with
  | nil => simpa using ready
  | cons name rest ih =>
      have split := declaring_append [name] rest scopes
      rw [List.singleton_append] at split
      rw [split]
      apply ih
      cases scopes with
      | nil => exact ready
      | cons scope outer =>
          rw [declaring_single]
          apply AllReady.cons
          · intro other
            rw [Bindings.get?_set]
            split
            · simp
            · exact ready scope (List.mem_cons_self ..) other
          · exact ready.tail

theorem receiver (ready : AllReady scopes) (superclass : Option Expr) :
    AllReady (Analysis.receiverScopes superclass ++ scopes) := by
  cases superclass with
  | none => exact ready.openWith "this"
  | some _ => exact (ready.openWith "super").openWith "this"

end AllReady

/-- What is being given an initial value in front of an expression or statement:
nothing, apart from the variable whose initial value the expression is. -/
def Node.Ready : Node → List (Bindings Readiness) → Prop
  | .expr _, scopes => AllReady scopes.tail
  | .stmt _, scopes => AllReady scopes

namespace Analysis

variable (analysis : Analysis) (declaration : FunctionDecl) (body : Body)
variable {front back : List Stmt} {statement : Stmt}

theorem advances_enterFunction :
    analysis.Advances (analysis.enterFunction declaration body) [] := by
  have passes := passes_enterFunction analysis declaration body
  exact ⟨passes.faults, passes.distances⟩

/-- From an expression of a list to the end of the list. -/
theorem advances_exprs_behind (front : List Expr) (value : Expr) (back : List Expr) :
    (expr value (exprs front analysis)).Advances (exprs (front ++ value :: back) analysis)
      (Expr.listNumbers back) := by
  rw [exprs_append]
  exact (passes_exprs back _).toAdvances

/-- From a statement of a list to the end of the list. -/
theorem advances_stmts_behind (front : List Stmt) (statement : Stmt) (back : List Stmt) :
    (stmt statement (stmts front analysis)).Advances (stmts (front ++ statement :: back) analysis)
      (Stmt.listNumbers back) := by
  rw [stmts_append, stmts]
  exact (passes_stmts back _).toAdvances

/-- From a statement of a function body to the end of the function. -/
theorem advances_functionBody_behind
    (shape : declaration.body = front ++ statement :: back) :
    (stmt statement (stmts front (analysis.enterFunction declaration body))).Advances
      (functionBody declaration body analysis) (Stmt.listNumbers back) := by
  rw [functionBody_eq, shape]
  have behind := advances_stmts_behind (analysis.enterFunction declaration body) front
    statement back
  exact ⟨behind.faults, behind.distances⟩

theorem allReady_enterFunction (ready : AllReady analysis.scopes) :
    AllReady (analysis.enterFunction declaration body).scopes := by
  rw [scopes_enterFunction]
  exact ready.openScope.declaring _

theorem allReady_stmts (ready : AllReady analysis.scopes) (statements : List Stmt) :
    AllReady (stmts statements analysis).scopes := by
  rw [scopes_stmts]
  exact ready.declaring _

theorem allReady_stmt (ready : AllReady analysis.scopes) (statement : Stmt) :
    AllReady (stmt statement analysis).scopes := by
  rw [scopes_stmt]
  exact ready.declaring _

theorem tail_scopes_declare (name : Token) :
    (analysis.declare name).scopes.tail = analysis.scopes.tail := by
  unfold declare
  cases around : analysis.scopes with
  | nil => simp [around]
  | cons scope outer =>
      simp only
      split
      · simp [report, around]
      · simp

end Analysis

theorem FunctionDecl.numbers_eq (declaration : FunctionDecl) :
    declaration.numbers = Stmt.listNumbers declaration.body := by
  obtain ⟨_, _, _⟩ := declaration
  rw [FunctionDecl.numbers]

theorem FunctionDecl.Placed.name {declaration : FunctionDecl} (placed : declaration.Placed) :
    declaration.name.IsOrdinary := by
  obtain ⟨_, _, _⟩ := declaration
  exact placed.1

theorem FunctionDecl.Placed.parameters {declaration : FunctionDecl} (placed : declaration.Placed) :
    ∀ parameter ∈ declaration.parameters, parameter.IsOrdinary := by
  obtain ⟨_, _, _⟩ := declaration
  exact placed.2.1

theorem FunctionDecl.Placed.body {declaration : FunctionDecl} (placed : declaration.Placed) :
    Stmt.ListPlaced declaration.body := by
  obtain ⟨_, _, _⟩ := declaration
  exact placed.2.2

/-- The uses in a whole are those in front of a part, those in the part and those
behind it, and the analysis of the whole goes through the part. -/
structure Visit.Encloses (outer inner : Visit) (front back : List Nat) : Prop where
  numbers : outer.node.numbers.Perm (front ++ inner.node.numbers ++ back)
  into : outer.analysis.Advances inner.analysis front
  out : inner.after.Advances outer.after back

namespace Visit.Contains

open Analysis

variable {outer inner : Visit} {analysis : Analysis} {loose : List (List String)}

theorem encloses_expr {value : Expr} (contains : Contains ⟨.expr value, analysis, loose⟩ inner) :
    ∃ front back, Encloses ⟨.expr value, analysis, loose⟩ inner front back := by
  cases contains with
  | grouping =>
      refine ⟨[], [], ?_, .of_eq rfl rfl, .of_eq rfl rfl⟩
      simp
  | operand =>
      refine ⟨[], [], ?_, .of_eq rfl rfl, .of_eq rfl rfl⟩
      simp
  | left =>
      refine ⟨[], _, ?_, .of_eq rfl rfl, (passes_expr _ _).toAdvances⟩
      simp
  | right =>
      refine ⟨_, [], ?_, (passes_expr _ _).toAdvances, .of_eq rfl rfl⟩
      simp
  | logicalLeft =>
      refine ⟨[], _, ?_, .of_eq rfl rfl, (passes_expr _ _).toAdvances⟩
      simp
  | logicalRight =>
      refine ⟨_, [], ?_, (passes_expr _ _).toAdvances, .of_eq rfl rfl⟩
      simp
  | assigned =>
      refine ⟨[], _, ?_, .of_eq rfl rfl, (passes_bind _ _).toAdvances⟩
      simp
  | callee =>
      refine ⟨[], _, ?_, .of_eq rfl rfl, (passes_exprs _ _).toAdvances⟩
      simp
  | @argument callee value paren front back =>
      have into := (passes_expr callee analysis).trans (passes_exprs front _)
      have out := advances_exprs_behind (expr callee analysis) front value back
      refine ⟨_, _, ?_, into.toAdvances, out⟩
      simp
  | object =>
      refine ⟨[], [], ?_, .of_eq rfl rfl, .of_eq rfl rfl⟩
      simp
  | stored =>
      -- the value is analysed first, though the object stands in front of it
      refine ⟨[], _, ?_, .of_eq rfl rfl, (passes_expr _ _).toAdvances⟩
      simpa using List.perm_append_comm
  | changed =>
      refine ⟨_, [], ?_, (passes_expr _ _).toAdvances, .of_eq rfl rfl⟩
      simpa using List.perm_append_comm

theorem encloses_conditional {condition : Expr} {consequent : Stmt} {alternative : Option Stmt}
    (contains :
      Contains ⟨.stmt (.conditional condition consequent alternative), analysis, loose⟩ inner) :
    ∃ front back,
      Encloses ⟨.stmt (.conditional condition consequent alternative), analysis, loose⟩ inner
        front back := by
  cases contains with
  | condition =>
      have out : (expr condition analysis).Advances
          (stmt (.conditional condition consequent alternative) analysis)
          (consequent.numbers ++ Stmt.optionNumbers alternative) := by
        rw [stmt]
        exact ((passes_stmt consequent _).trans (passes_optionalStmt alternative _)).toAdvances
      refine ⟨[], _, ?_, .of_eq rfl rfl, out⟩
      simp
  | consequent =>
      have out : (stmt consequent (expr condition analysis)).Advances
          (stmt (.conditional condition consequent alternative) analysis)
          (Stmt.optionNumbers alternative) := by
        rw [stmt]
        exact (passes_optionalStmt alternative _).toAdvances
      refine ⟨_, _, ?_, (passes_expr _ _).toAdvances, out⟩
      simp
  | @alternative _ _ alternative =>
      have into := (passes_expr condition analysis).trans (passes_stmt consequent _)
      have out : (stmt alternative (stmt consequent (expr condition analysis))).Advances
          (stmt (.conditional condition consequent (some alternative)) analysis) [] := by
        rw [stmt, optionalStmt]
        exact .of_eq rfl rfl
      refine ⟨_, [], ?_, into.toAdvances, out⟩
      simp

theorem encloses_whileLoop {condition : Expr} {body : Stmt}
    (contains : Contains ⟨.stmt (.whileLoop condition body), analysis, loose⟩ inner) :
    ∃ front back,
      Encloses ⟨.stmt (.whileLoop condition body), analysis, loose⟩ inner front back := by
  cases contains with
  | whileCondition =>
      have out : (expr condition analysis).Advances (stmt (.whileLoop condition body) analysis)
          body.numbers := by
        rw [stmt]
        exact (passes_stmt body _).toAdvances
      refine ⟨[], _, ?_, .of_eq rfl rfl, out⟩
      simp
  | whileBody =>
      have out : (stmt body (expr condition analysis)).Advances
          (stmt (.whileLoop condition body) analysis) [] := by
        rw [stmt]
        exact .of_eq rfl rfl
      refine ⟨_, [], ?_, (passes_expr _ _).toAdvances, out⟩
      simp

theorem encloses_forLoop {initializer : Option Stmt} {condition increment : Option Expr}
    {body : Stmt}
    (contains :
      Contains ⟨.stmt (.forLoop initializer condition increment body), analysis, loose⟩ inner) :
    ∃ front back,
      Encloses ⟨.stmt (.forLoop initializer condition increment body), analysis, loose⟩ inner
        front back := by
  cases contains with
  | @forInitializer initializer =>
      have clauses := (passes_optionalExpr (stmt initializer analysis) condition).trans
        (passes_optionalExpr _ increment)
      have out : (stmt initializer analysis).Advances
          (stmt (.forLoop (some initializer) condition increment body) analysis)
          (Expr.optionNumbers condition ++ Expr.optionNumbers increment ++ body.numbers) := by
        rw [stmt, optionalStmt]
        exact (clauses.trans (passes_stmt body _)).toAdvances
      refine ⟨[], _, ?_, .of_eq rfl rfl, out⟩
      simp
  | @forRest initializer =>
      have out :
          (stmt (.forLoop none condition increment body) (stmt initializer analysis)).Advances
            (stmt (.forLoop (some initializer) condition increment body) analysis) [] := by
        rw [stmt, stmt, optionalStmt, optionalStmt]
        exact .of_eq rfl rfl
      refine ⟨_, [], ?_, (passes_stmt _ _).toAdvances, out⟩
      simp
  | @forCondition condition =>
      have out : (expr condition analysis).Advances
          (stmt (.forLoop none (some condition) increment body) analysis)
          (Expr.optionNumbers increment ++ body.numbers) := by
        rw [stmt, optionalStmt]
        exact ((passes_optionalExpr _ increment).trans (passes_stmt body _)).toAdvances
      refine ⟨[], _, ?_, .of_eq rfl rfl, out⟩
      simp [Expr.optionNumbers]
  | @forIncrement _ increment =>
      have out : (expr increment (optionalExpr condition analysis)).Advances
          (stmt (.forLoop none condition (some increment) body) analysis) body.numbers := by
        rw [stmt, optionalStmt]
        exact (passes_stmt body _).toAdvances
      refine ⟨_, _, ?_, (passes_optionalExpr _ _).toAdvances, out⟩
      simp [Expr.optionNumbers]
  | forBody =>
      have into := (passes_optionalExpr analysis condition).trans (passes_optionalExpr _ increment)
      have out : (stmt body (optionalExpr increment (optionalExpr condition analysis))).Advances
          (stmt (.forLoop none condition increment body) analysis) [] := by
        rw [stmt, optionalStmt]
        exact .of_eq rfl rfl
      refine ⟨_, [], ?_, into.toAdvances, out⟩
      simp

theorem encloses_function {declaration : FunctionDecl}
    (contains : Contains ⟨.stmt (.function declaration), analysis, loose⟩ inner) :
    ∃ front back, Encloses ⟨.stmt (.function declaration), analysis, loose⟩ inner front back := by
  cases contains with
  | @functionBody _ front back statement _ _ shape =>
      have named := advances_introduce analysis declaration.name
      have entered := advances_enterFunction (analysis.introduce declaration.name) declaration
        .function
      have into := (named.trans entered).trans (passes_stmts front _).toAdvances
      have behind := advances_functionBody_behind (analysis.introduce declaration.name)
        declaration .function shape
      have out : (stmt statement (stmts front ((analysis.introduce
          declaration.name).enterFunction declaration .function))).Advances
          (stmt (.function declaration) analysis) (Stmt.listNumbers back) := by
        rw [stmt]
        exact behind
      refine ⟨_, _, ?_, into, out⟩
      simp [FunctionDecl.numbers_eq, shape]

theorem encloses_classDecl {name : Token} {superclass : Option Expr} {methods : List FunctionDecl}
    (contains : Contains ⟨.stmt (.classDecl name superclass methods), analysis, loose⟩ inner) :
    ∃ front back,
      Encloses ⟨.stmt (.classDecl name superclass methods), analysis, loose⟩ inner front back := by
  cases contains with
  | @superclass _ superclass =>
      have opened := (passes_openWith (expr superclass (analysis.atSuperclass name superclass))
        "super").2.2.2
      have inside := (passes_openWith (((expr superclass (analysis.atSuperclass name
        superclass)).openScope).define "super") "this").2.2.2
      have left := (leaveClass_around (methodBodies methods (analysis.enterClass name
        (some superclass))) (some superclass) analysis.enclosure).2.2
      have out : (expr superclass (analysis.atSuperclass name superclass)).Advances
          (stmt (.classDecl name (some superclass) methods) analysis)
          (FunctionDecl.listNumbers methods) := by
        rw [stmt]
        have members := passes_methodBodies methods (analysis.enterClass name (some superclass))
        simpa using ((opened.trans inside).trans members.toAdvances).trans left
      refine ⟨_, _, ?_, advances_atSuperclass _ _ _, out⟩
      simp [Expr.optionNumbers]
  | @methodBody _ _ earlier later method front back statement _ _ shape =>
      have entered := (enterClass_passes analysis name superclass).1
      have members := passes_methodBodies earlier (analysis.enterClass name superclass)
      have begun := advances_enterFunction
        (methodBodies earlier (analysis.enterClass name superclass)) method
        (Analysis.methodBody method.name.lexeme)
      have into := ((entered.trans members.toAdvances).trans begun).trans
        (passes_stmts front _).toAdvances
      have behind := advances_functionBody_behind
        (methodBodies earlier (analysis.enterClass name superclass)) method
        (Analysis.methodBody method.name.lexeme) shape
      have left := (leaveClass_around (methodBodies (earlier ++ method :: later)
        (analysis.enterClass name superclass)) superclass analysis.enclosure).2.2
      have out : (stmt statement (stmts front ((methodBodies earlier (analysis.enterClass name
          superclass)).enterFunction method (Analysis.methodBody method.name.lexeme)))).Advances
          (stmt (.classDecl name superclass (earlier ++ method :: later)) analysis)
          (Stmt.listNumbers back ++ FunctionDecl.listNumbers later) := by
        rw [stmt]
        rw [methodBodies_append, methodBodies] at left ⊢
        simpa using (behind.trans (passes_methodBodies later _).toAdvances).trans left
      refine ⟨_, _, ?_, into, out⟩
      simp [FunctionDecl.numbers_eq, shape]

/-- A part that is visited directly is enclosed. -/
theorem encloses (contains : outer.Contains inner) :
    ∃ front back, outer.Encloses inner front back := by
  have contained := contains
  cases contains with
  | @effect value analysis =>
      have out : (expr value analysis).Advances (stmt (.expression value) analysis) [] := by
        rw [stmt]
        exact .of_eq rfl rfl
      refine ⟨[], [], ?_, .of_eq rfl rfl, out⟩
      simp
  | @printed value analysis =>
      have out : (expr value analysis).Advances (stmt (.print value) analysis) [] := by
        rw [stmt]
        exact .of_eq rfl rfl
      refine ⟨[], [], ?_, .of_eq rfl rfl, out⟩
      simp
  | @initializer name value analysis =>
      have out : (expr value (analysis.declare name)).Advances
          (stmt (.var name (some value)) analysis) [] := by
        rw [stmt]
        exact advances_define _ _
      refine ⟨[], [], ?_, advances_declare _ _, out⟩
      simp [Expr.optionNumbers]
  | @member front back statement analysis =>
      have into := (passes_stmts front analysis.openScope).toAdvances
      have behind := advances_stmts_behind analysis.openScope front statement back
      have out : (stmt statement (stmts front analysis.openScope)).Advances
          (stmt (.block (front ++ statement :: back)) analysis) (Stmt.listNumbers back) := by
        rw [stmt]
        exact ⟨behind.faults, behind.distances⟩
      refine ⟨_, _, ?_, ⟨into.faults, into.distances⟩, out⟩
      simp
  | @returned keyword value analysis =>
      have out : (expr value (analysis.checkReturn keyword true)).Advances
          (stmt (.returning keyword (some value)) analysis) [] := by
        rw [stmt]
        exact .of_eq rfl rfl
      refine ⟨_, [], ?_, (passes_checkReturn analysis keyword true).toAdvances, out⟩
      simp [Expr.optionNumbers]
  | condition | consequent | alternative => exact contained.encloses_conditional
  | whileCondition | whileBody => exact contained.encloses_whileLoop
  | forInitializer | forRest | forCondition | forIncrement | forBody =>
      exact contained.encloses_forLoop
  | functionBody => exact contained.encloses_function
  | superclass | methodBody => exact contained.encloses_classDecl
  | _ => exact contained.encloses_expr

/-- The uses of names in a part are among those in the whole. -/
theorem numbers (contains : outer.Contains inner) :
    inner.node.numbers ⊆ outer.node.numbers := by
  obtain ⟨front, back, encloses⟩ := contains.encloses
  intro number inside
  rw [encloses.numbers.mem_iff]
  simp [inside]

/-- What is placed as a whole is placed in its parts. -/
theorem placed (contains : outer.Contains inner) (placed : outer.node.Placed) :
    inner.node.Placed := by
  cases contains with
  | grouping => exact placed
  | operand => exact placed
  | left => exact placed.1
  | right => exact placed.2
  | logicalLeft => exact placed.1
  | logicalRight => exact placed.2
  | assigned => exact placed.2
  | callee => exact placed.1
  | argument => exact Expr.listPlaced_iff.mp placed.2 _ (by simp)
  | object => exact placed
  | stored => exact placed.2
  | changed => exact placed.1
  | effect => exact placed
  | printed => exact placed
  | initializer => exact placed.2
  | member => exact Stmt.listPlaced_iff.mp placed _ (by simp)
  | condition => exact placed.1
  | consequent => exact placed.2.1.2
  | alternative => exact placed.2.2.2
  | whileCondition => exact placed.1
  | whileBody => exact placed.2.2
  | forInitializer => exact placed.1.2
  | forRest => exact ⟨trivial, placed.2⟩
  | forCondition => exact placed.2.1
  | forIncrement => exact placed.2.2.1
  | forBody => exact placed.2.2.2.2
  | functionBody shape =>
      have body := FunctionDecl.Placed.body placed
      exact Stmt.listPlaced_iff.mp body _ (by simp [shape])
  | returned => exact placed
  | superclass =>
      obtain ⟨reference, rfl⟩ := placed.2.1
      trivial
  | @methodBody _ _ _ _ method _ _ _ _ _ shape =>
      have inside := FunctionDecl.listPlaced_iff.mp placed.2.2 method (by simp)
      exact Stmt.listPlaced_iff.mp inside.body _ (by simp [shape])

/-- Only an initial value is visited while its name is not ready. -/
theorem ready (contains : outer.Contains inner) (ready : outer.node.Ready outer.analysis.scopes) :
    inner.node.Ready inner.analysis.scopes := by
  cases contains with
  | grouping => exact ready
  | operand => exact ready
  | left => exact ready
  | right => simpa [Node.Ready] using ready
  | logicalLeft => exact ready
  | logicalRight => simpa [Node.Ready] using ready
  | assigned => exact ready
  | callee => exact ready
  | argument => simpa [Node.Ready] using ready
  | object => exact ready
  | stored => exact ready
  | changed => simpa [Node.Ready] using ready
  | effect => exact AllReady.tail ready
  | printed => exact AllReady.tail ready
  | initializer =>
      change AllReady _
      rw [tail_scopes_declare]
      exact AllReady.tail ready
  | member => exact allReady_stmts _ (AllReady.openScope ready) _
  | condition => exact AllReady.tail ready
  | consequent => simpa [Node.Ready] using ready
  | alternative =>
      apply allReady_stmt
      simpa [Node.Ready] using ready
  | whileCondition => exact AllReady.tail ready
  | whileBody => simpa [Node.Ready] using ready
  | forInitializer => exact ready
  | forRest => exact allReady_stmt _ ready _
  | forCondition => exact AllReady.tail ready
  | forIncrement => simpa [Node.Ready] using AllReady.tail ready
  | forBody => simpa [Node.Ready] using ready
  | functionBody _ =>
      apply allReady_stmts
      apply allReady_enterFunction
      rw [(passes_introduce _ _).scopes]
      exact AllReady.declaring ready _
  | returned =>
      change AllReady _
      rw [(passes_checkReturn _ _ true).scopes, declaring_nil]
      exact AllReady.tail ready
  | superclass =>
      change AllReady _
      rw [scopes_atSuperclass, tail_declaring]
      exact AllReady.tail ready
  | methodBody _ =>
      apply allReady_stmts
      apply allReady_enterFunction
      rw [scopes_methodBodies, (enterClass_passes _ _ _).2.1]
      exact (AllReady.declaring ready _).receiver _

end Visit.Contains

/-! ## Accepted visits -/

/-- A visit that finds no fault, in a program in which every use of a name has a
number of its own, and what it notes still stands at the end. -/
structure Visit.Accepted (final : Distances) (visit : Visit) : Prop where
  clean : visit.after.faults = []
  nodup : visit.node.numbers.Nodup
  /-- The uses in it have not been seen before. -/
  unseen : ∀ number ∈ visit.node.numbers, visit.analysis.distances.get? number = none
  settled : ∀ number ∈ visit.node.numbers,
    final.get? number = visit.after.distances.get? number
  placed : visit.node.Placed
  ready : visit.node.Ready visit.analysis.scopes

namespace Visit.Accepted

open Analysis

variable {final : Distances} {outer inner : Visit} {front back : List Nat}

/-- A part of something that finds no fault is accepted, given what comes before
it and what comes after it. -/
theorem of_split {start finish : Analysis} {numbers : List Nat} (clean : finish.faults = [])
    (nodup : numbers.Nodup) (unseen : ∀ number ∈ numbers, start.distances.get? number = none)
    (settled : ∀ number ∈ numbers, final.get? number = finish.distances.get? number)
    (split : numbers.Perm (front ++ inner.node.numbers ++ back))
    (into : start.Advances inner.analysis front) (out : inner.after.Advances finish back)
    (placed : inner.node.Placed) (ready : inner.node.Ready inner.analysis.scopes) :
    inner.Accepted final := by
  have apart := split.nodup_iff.mp nodup
  rw [List.nodup_append, List.nodup_append] at apart
  obtain ⟨⟨-, own, apartFront⟩, -, apartBack⟩ := apart
  have within (number : Nat) (inside : number ∈ inner.node.numbers) : number ∈ numbers := by
    rw [split.mem_iff]
    simp [inside]
  constructor
  · exact out.clean clean
  · exact own
  · intro number inside
    rw [into.distances number fun before => apartFront number before number inside rfl]
    exact unseen number (within number inside)
  · intro number inside
    rw [settled number (within number inside)]
    apply out.distances number
    exact fun behind => apartBack number (by simp [inside]) number behind rfl
  · exact placed
  · exact ready

/-- Other distances may change later. -/
theorem keep {later : Distances} (accepted : inner.Accepted final)
    (same : ∀ number ∈ inner.node.numbers, later.get? number = final.get? number) :
    inner.Accepted later := by
  constructor
  · exact accepted.clean
  · exact accepted.nodup
  · exact accepted.unseen
  · intro number inside
    rw [same number inside, accepted.settled number inside]
  · exact accepted.placed
  · exact accepted.ready

/-- What an accepted visit contains is accepted. -/
theorem contains (accepted : outer.Accepted final) (contains : outer.Contains inner) :
    inner.Accepted final := by
  obtain ⟨front, back, encloses⟩ := contains.encloses
  exact of_split accepted.clean accepted.nodup accepted.unseen accepted.settled encloses.numbers
    encloses.into encloses.out (contains.placed accepted.placed) (contains.ready accepted.ready)

end Visit.Accepted

/-- The statements of an accepted program are accepted at their places. -/
theorem Visit.accepted_of_program {program front back : List Stmt} {statement : Stmt}
    {distances : Distances} (loose : List (List String))
    (clean : (Analysis.stmts program (.start distances)).faults = [])
    (nodup : (Stmt.listNumbers program).Nodup)
    (unseen : ∀ number ∈ Stmt.listNumbers program, distances.get? number = none)
    (placed : Stmt.ListPlaced program) (shape : program = front ++ statement :: back) :
    Visit.Accepted (Analysis.stmts program (.start distances)).distances
      ⟨.stmt statement, Analysis.stmts front (.start distances), loose⟩ := by
  subst shape
  have into := (Analysis.passes_stmts front (.start distances)).toAdvances
  have out := Analysis.advances_stmts_behind (.start distances) front statement back
  have split : (Stmt.listNumbers (front ++ statement :: back)).Perm
      (Stmt.listNumbers front ++ statement.numbers ++ Stmt.listNumbers back) := by
    simp
  refine Accepted.of_split clean nodup unseen (fun _ _ => rfl) split into out ?_ ?_
  · exact Stmt.listPlaced_iff.mp placed statement (by simp)
  · apply Analysis.allReady_stmts
    exact fun scope inside => nomatch inside

/-! ## What is noted about a use of a name -/

/-- The nearest scope that has a name, counted outward. -/
def nearest (scopes : List (Bindings Readiness)) (name : String) : Option Nat :=
  scopes.findIdx? (·.contains name)

/-- A name that is nowhere pending is ready in the nearest scope that has it. -/
theorem ready_of_awake {scopes : List (Bindings Readiness)} {name : String} {distance : Nat}
    {scope : Bindings Readiness} (awake : ∀ scope ∈ scopes, scope.get? name ≠ some .pending)
    (found : nearest scopes name = some distance) (here : scopes[distance]? = some scope) :
    scope.get? name = some .ready := by
  obtain ⟨less, bound, -⟩ := List.findIdx?_eq_some_iff_getElem.mp found
  rw [List.getElem?_eq_getElem less, Option.some.injEq] at here
  rw [here] at bound
  cases stands : scope.get? name with
  | none => simp [Bindings.contains, stands] at bound
  | some readiness =>
      cases readiness with
      | pending => exact absurd stands (awake scope (List.mem_of_getElem here))
      | ready => rfl

/-- The scope of the analysis at the distance of a name has the name ready, apart
from initial values. -/
theorem ready_of_nearest {analysis : Analysis} {name : String} {distance : Nat}
    {scope : Bindings Readiness} (ready : AllReady analysis.scopes.tail)
    (settled : analysis.isPending name = false)
    (found : nearest analysis.scopes name = some distance)
    (here : analysis.scopes[distance]? = some scope) : scope.get? name = some .ready := by
  apply ready_of_awake _ found here
  unfold Analysis.isPending at settled
  cases around : analysis.scopes with
  | nil => exact fun _ inside => nomatch inside
  | cons first outer =>
      rw [around] at ready settled
      rw [List.forall_mem_cons]
      exact ⟨by simpa using settled, fun scope inside => ready scope inside name⟩

theorem Analysis.distance_bind {reference : Reference} (analysis : Analysis)
    (unseen : analysis.distances.get? reference.id = none) :
    (analysis.bind reference).distances.get? reference.id =
      nearest analysis.scopes reference.name.lexeme := by
  unfold bind nearest
  split
  · next found => simp [Distances.get?_note, found]
  · next absent => rw [unseen, absent]

theorem report_faults_ne_nil {analysis : Analysis} {token : Token} {fault : BindingFault} :
    (analysis.report token fault).faults ≠ [] := by
  simp [Analysis.report]

namespace Visit.Accepted

variable {final : Distances} {analysis : Analysis} {reference : Reference}
variable {loose : List (List String)}

/-- A variable is bound to the nearest scope that has it, and not in its own
initial value. -/
theorem «variable» (accepted : Accepted final ⟨.expr (.variable reference), analysis, loose⟩) :
    final.get? reference.id = nearest analysis.scopes reference.name.lexeme ∧
      analysis.isPending reference.name.lexeme = false := by
  have unseen := accepted.unseen reference.id (List.mem_singleton_self _)
  have settled := accepted.settled reference.id (List.mem_singleton_self _)
  have clean := accepted.clean
  change (analysis.bindVariable reference).faults = [] at clean
  change _ = (analysis.bindVariable reference).distances.get? reference.id at settled
  unfold Analysis.bindVariable at clean settled
  split at clean
  · exact absurd clean report_faults_ne_nil
  · next ready =>
      rw [if_neg ready] at settled
      exact ⟨settled.trans (analysis.distance_bind unseen), by simpa using ready⟩

/-- The target of an assignment is bound to the nearest scope that has it. -/
theorem assign {value : Expr}
    (accepted : Accepted final ⟨.expr (.assign reference value), analysis, loose⟩) :
    final.get? reference.id = nearest analysis.scopes reference.name.lexeme := by
  have own : reference.id ∈ (Expr.assign reference value).numbers := by simp
  have nodup : (value.numbers ++ [reference.id]).Nodup := accepted.nodup
  have outside : reference.id ∉ value.numbers := by
    rw [List.nodup_append] at nodup
    exact fun inside => nodup.2.2 _ inside _ (List.mem_singleton_self _) rfl
  have unseen : (Analysis.expr value analysis).distances.get? reference.id = none := by
    rw [(Analysis.passes_expr value analysis).distances _ outside]
    exact accepted.unseen reference.id own
  have settled := accepted.settled reference.id own
  rw [settled]
  have noted := (Analysis.expr value analysis).distance_bind unseen
  rwa [Analysis.scopes_expr] at noted

/-- `this` stands in a class and is bound to the nearest scope that has it. -/
theorem this (accepted : Accepted final ⟨.expr (.this reference), analysis, loose⟩) :
    final.get? reference.id = nearest analysis.scopes reference.name.lexeme := by
  have unseen := accepted.unseen reference.id (List.mem_singleton_self _)
  have settled := accepted.settled reference.id (List.mem_singleton_self _)
  have clean := accepted.clean
  change (analysis.bindThis reference).faults = [] at clean
  change _ = (analysis.bindThis reference).distances.get? reference.id at settled
  unfold Analysis.bindThis at clean settled
  split at clean
  · exact absurd clean report_faults_ne_nil
  · next inClass =>
      rw [settled]
      split
      · exact absurd ‹_› inClass
      · exact analysis.distance_bind unseen

/-- `super` stands in a subclass and is bound to the nearest scope that has
it. -/
theorem super {method : Token}
    (accepted : Accepted final ⟨.expr (.super reference method), analysis, loose⟩) :
    final.get? reference.id = nearest analysis.scopes reference.name.lexeme ∧
      analysis.enclosure = .subclass := by
  have unseen := accepted.unseen reference.id (List.mem_singleton_self _)
  have settled := accepted.settled reference.id (List.mem_singleton_self _)
  have clean := accepted.clean
  change (analysis.bindSuper reference).faults = [] at clean
  change _ = (analysis.bindSuper reference).distances.get? reference.id at settled
  unfold Analysis.bindSuper at clean settled
  cases around : analysis.enclosure with
  | none =>
      rw [around] at clean
      exact absurd clean report_faults_ne_nil
  | baseClass =>
      rw [around] at clean
      exact absurd clean report_faults_ne_nil
  | subclass =>
      rw [around] at settled
      exact ⟨settled.trans (analysis.distance_bind unseen), rfl⟩

end Visit.Accepted

/-- No class is its own superclass. -/
theorem Visit.Accepted.ne_superclass {final : Distances} {name : Token} {reference : Reference}
    {around : Analysis} {loose : List (List String)}
    (accepted : Visit.Accepted final
      ⟨.expr (.variable reference), around.atSuperclass name (.variable reference), loose⟩) :
    reference.name.lexeme ≠ name.lexeme := by
  intro same
  have clean := (Analysis.passes_expr (.variable reference)
    (around.atSuperclass name (.variable reference))).clean accepted.clean
  unfold Analysis.atSuperclass Analysis.checkSuperclass at clean
  simp only [if_pos same] at clean
  exact report_faults_ne_nil clean

end Lox
