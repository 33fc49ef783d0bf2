import Lox.Proofs.Binding.Passes

/-!
# The distances that an analysis notes

An analysis that enters each distance into a ledger as it notes it. Forgetting the ledger
gives the analysis, and its entries say how the distances have changed: they are those from
before with the entries noted one after another. Over a part of a program, a number is
entered at most as often as it is the number of a use there.
-/

namespace Lox

/-- An analysis and the distances it has noted, in order, each with the number of its use. -/
structure Ledger where
  analysis : Analysis
  entries : List (Nat × Nat)

namespace Ledger

/-! ## Analysis with a ledger -/

/-- Note a distance and enter it. Nothing else in this analysis notes distances. -/
def note (reference distance : Nat) (ledger : Ledger) : Ledger where
  analysis :=
    { ledger.analysis with distances := ledger.analysis.distances.note reference distance }
  entries := ledger.entries ++ [(reference, distance)]

/-- Take a step of the analysis that notes no distance. -/
def pass (step : Analysis → Analysis) (ledger : Ledger) : Ledger :=
  { ledger with analysis := step ledger.analysis }

def bind (reference : Reference) (ledger : Ledger) : Ledger :=
  match ledger.analysis.scopes.findIdx? (·.contains reference.name.lexeme) with
  | some distance => ledger.note reference.id distance
  | none => ledger

def bindVariable (reference : Reference) (ledger : Ledger) : Ledger :=
  if ledger.analysis.isPending reference.name.lexeme then
    ledger.pass (Analysis.report reference.name .readInOwnInitializer)
  else ledger.bind reference

def bindThis (reference : Reference) (ledger : Ledger) : Ledger :=
  match ledger.analysis.enclosure with
  | .none => ledger.pass (Analysis.report reference.name .thisOutsideClass)
  | _ => ledger.bind reference

def bindSuper (reference : Reference) (ledger : Ledger) : Ledger :=
  match ledger.analysis.enclosure with
  | .none => ledger.pass (Analysis.report reference.name .superOutsideClass)
  | .baseClass => ledger.pass (Analysis.report reference.name .superWithoutSuperclass)
  | .subclass => ledger.bind reference

mutual

/-- Analyse an expression with a ledger. -/
def expr : Expr → Ledger → Ledger
  | .literal _, ledger => ledger
  | .grouping inner, ledger => expr inner ledger
  | .unary _ operand, ledger => expr operand ledger
  | .binary left _ right, ledger => expr right (expr left ledger)
  | .logical left _ right, ledger => expr right (expr left ledger)
  | .variable reference, ledger => ledger.bindVariable reference
  | .assign reference value, ledger => (expr value ledger).bind reference
  | .call callee _ arguments, ledger => exprs arguments (expr callee ledger)
  | .get object _, ledger => expr object ledger
  | .set object _ value, ledger => expr object (expr value ledger)
  | .this reference, ledger => ledger.bindThis reference
  | .super reference _, ledger => ledger.bindSuper reference

/-- Analyse expressions in order. -/
def exprs : List Expr → Ledger → Ledger
  | [], ledger => ledger
  | first :: rest, ledger => exprs rest (expr first ledger)

end

/-- Analyse an expression where there is one. -/
def optionalExpr : Option Expr → Ledger → Ledger
  | none, ledger => ledger
  | some value, ledger => expr value ledger

/-- The part of a class in front of its methods. -/
def enterClass (name : Token) : Option Expr → Ledger → Ledger
  | none, ledger => ledger.pass fun analysis => analysis.enterClass name none
  | some superclass, ledger =>
      let before := ledger.pass fun analysis => analysis.atSuperclass name superclass
      (expr superclass before).pass fun analysis =>
        (analysis.openScope.define "super").openScope.define "this"

mutual

/-- Analyse a statement with a ledger. -/
def stmt : Stmt → Ledger → Ledger
  | .expression value, ledger => expr value ledger
  | .print value, ledger => expr value ledger
  | .var name initializer, ledger =>
      (optionalExpr initializer (ledger.pass (Analysis.declare name))).pass
        (Analysis.define name.lexeme)
  | .block body, ledger => (stmts body (ledger.pass Analysis.openScope)).pass Analysis.closeScope
  | .conditional condition consequent alternative, ledger =>
      optionalStmt alternative (stmt consequent (expr condition ledger))
  | .whileLoop condition body, ledger => stmt body (expr condition ledger)
  | .forLoop initializer condition increment body, ledger =>
      stmt body (optionalExpr increment (optionalExpr condition
        (optionalStmt initializer ledger)))
  | .function declaration, ledger =>
      functionBody declaration .function (ledger.pass (Analysis.introduce declaration.name))
  | .returning keyword value, ledger =>
      optionalExpr value (ledger.pass (Analysis.checkReturn keyword value.isSome))
  | .classDecl name superclass methods, ledger =>
      (methodBodies methods (enterClass name superclass ledger)).pass
        (Analysis.leaveClass superclass ledger.analysis.enclosure)

/-- Analyse statements in order. -/
def stmts : List Stmt → Ledger → Ledger
  | [], ledger => ledger
  | first :: rest, ledger => stmts rest (stmt first ledger)

/-- Analyse a statement where there is one. -/
def optionalStmt : Option Stmt → Ledger → Ledger
  | none, ledger => ledger
  | some statement, ledger => stmt statement ledger

/-- Analyse a function body in one scope with its parameters. -/
def functionBody : FunctionDecl → Body → Ledger → Ledger
  | ⟨name, parameters, statements⟩, body, ledger =>
      (stmts statements (ledger.pass (Analysis.enterFunction ⟨name, parameters, statements⟩
        body))).pass fun analysis => analysis.closeScope.withBody ledger.analysis.body

/-- Analyse the methods of a class in order. -/
def methodBodies : List FunctionDecl → Ledger → Ledger
  | [], ledger => ledger
  | first :: rest, ledger =>
      methodBodies rest (functionBody first (Analysis.methodBody first.name.lexeme) ledger)

end

/-! ## What is entered -/

/-- Distances with the entries of a ledger noted one after another. -/
def noted (entries : List (Nat × Nat)) (distances : Distances) : Distances :=
  entries.foldl (fun distances entry => distances.note entry.1 entry.2) distances

/-- A step with a ledger that does what a step of the analysis does. It enters what it
notes, a number at most as often as it is in a list. -/
structure Records (recorded : Ledger → Ledger) (step : Analysis → Analysis)
    (numbers : List Nat) : Prop where
  forget : ∀ ledger, (recorded ledger).analysis = step ledger.analysis
  entered : ∀ ledger, ∃ entries, (recorded ledger).entries = ledger.entries ++ entries ∧
    (step ledger.analysis).distances = noted entries ledger.analysis.distances ∧
    ∀ number, (entries.map Prod.fst).count number ≤ numbers.count number

namespace Records

variable {recorded further : Ledger → Ledger} {step next : Analysis → Analysis}
variable {numbers front back : List Nat}

/-- Nothing is noted. -/
theorem pass (quiet : ∀ analysis, (step analysis).distances = analysis.distances) :
    Records (Ledger.pass step) step [] := by
  refine ⟨fun _ => rfl, fun ledger => ⟨[], ?_, quiet ledger.analysis, by simp⟩⟩
  exact (List.append_nil _).symm

theorem refl : Records id id [] := pass fun _ => rfl

/-- One step after another. The second may depend on the analysis in front of the first. -/
theorem follow {further : Analysis → Ledger → Ledger} {next : Analysis → Analysis → Analysis}
    (first : Records recorded step front)
    (second : ∀ start, Records (further start) (next start) back) :
    Records (fun ledger => further ledger.analysis (recorded ledger))
      (fun analysis => next analysis (step analysis)) (front ++ back) := by
  constructor
  · intro ledger
    rw [(second ledger.analysis).forget, first.forget]
  · intro ledger
    obtain ⟨entries, added, changed, few⟩ := first.entered ledger
    obtain ⟨more, addedMore, changedMore, fewMore⟩ :=
      (second ledger.analysis).entered (recorded ledger)
    refine ⟨entries ++ more, ?_, ?_, ?_⟩
    · rw [addedMore, added, List.append_assoc]
    · rw [first.forget] at changedMore
      rw [changedMore, changed, noted, noted, noted, List.foldl_append]
    · intro number
      rw [List.map_append, List.count_append, List.count_append]
      exact Nat.add_le_add (few number) (fewMore number)

theorem trans (first : Records recorded step front) (second : Records further next back) :
    Records (fun ledger => further (recorded ledger)) (fun analysis => next (step analysis))
      (front ++ back) :=
  first.follow fun _ => second

/-- The numbers may come in another order. -/
theorem perm (records : Records recorded step front) (same : front.Perm back) :
    Records recorded step back := by
  refine ⟨records.forget, fun ledger => ?_⟩
  obtain ⟨entries, added, changed, few⟩ := records.entered ledger
  exact ⟨entries, added, changed, fun number => same.count_eq number ▸ few number⟩

end Records

/-! ## Steps that note nothing -/

section Quiet

variable (name : Token) (analysis : Analysis)

theorem distances_define (text : String) :
    (analysis.define text).distances = analysis.distances := by
  unfold Analysis.define
  split <;> rfl

theorem distances_declare : (analysis.declare name).distances = analysis.distances := by
  unfold Analysis.declare
  split
  · rfl
  · split <;> rfl

theorem distances_introduce : (analysis.introduce name).distances = analysis.distances :=
  (distances_define _ _).trans (distances_declare name analysis)

theorem distances_enterFunction (declaration : FunctionDecl) (body : Body) :
    (analysis.enterFunction declaration body).distances = analysis.distances := by
  have introduced (parameters : List Token) (analysis : Analysis) :
      (parameters.foldl (fun analysis name => analysis.introduce name) analysis).distances =
        analysis.distances := by
    induction parameters generalizing analysis with
    | nil => rfl
    | cons first rest ih => exact (ih _).trans (distances_introduce first analysis)
  exact introduced declaration.parameters _

theorem distances_checkReturn (keyword : Token) (hasValue : Bool) :
    (analysis.checkReturn keyword hasValue).distances = analysis.distances := by
  unfold Analysis.checkReturn
  split
  · rfl
  · split <;> rfl
  · rfl

theorem distances_atSuperclass (superclass : Expr) :
    (analysis.atSuperclass name superclass).distances = analysis.distances := by
  refine Eq.trans ?_ (distances_introduce name (analysis.withEnclosure .baseClass))
  change (Analysis.checkSuperclass name superclass _).distances = _
  unfold Analysis.checkSuperclass
  split
  · split <;> rfl
  · rfl

theorem distances_enterClass :
    (analysis.enterClass name none).distances = analysis.distances :=
  (distances_define _ "this").trans (distances_introduce name _)

theorem distances_leaveClass (superclass : Option Expr) (enclosure : Enclosure) :
    (analysis.leaveClass superclass enclosure).distances = analysis.distances := by
  cases superclass <;> rfl

end Quiet

/-! ## Uses of names -/

theorem records_bind (reference : Reference) :
    Records (bind reference) (Analysis.bind reference) [reference.id] := by
  constructor
  · intro ledger
    unfold bind Analysis.bind
    cases ledger.analysis.scopes.findIdx? (·.contains reference.name.lexeme) <;> rfl
  · intro ledger
    unfold bind Analysis.bind
    cases ledger.analysis.scopes.findIdx? (·.contains reference.name.lexeme) with
    | some distance => exact ⟨[(reference.id, distance)], rfl, rfl, fun _ => Nat.le_refl _⟩
    | none => exact ⟨[], (List.append_nil _).symm, rfl, fun _ => Nat.zero_le _⟩

theorem records_report (token : Token) (fault : BindingFault) (number : Nat) :
    Records (pass (Analysis.report token fault)) (Analysis.report token fault) [number] := by
  refine ⟨fun _ => rfl, fun ledger => ⟨[], ?_, rfl, fun _ => Nat.zero_le _⟩⟩
  exact (List.append_nil _).symm

/-- Where the analysis may take different steps, each of them may be looked at alone. -/
theorem Records.of_each {recorded : Ledger → Ledger} {step : Analysis → Analysis}
    {numbers : List Nat}
    (each : ∀ ledger, ∃ taken goes, Records taken goes numbers ∧
      recorded ledger = taken ledger ∧ step ledger.analysis = goes ledger.analysis) :
    Records recorded step numbers := by
  constructor
  · intro ledger
    obtain ⟨taken, goes, records, same, alike⟩ := each ledger
    rw [same, alike]
    exact records.forget ledger
  · intro ledger
    obtain ⟨taken, goes, records, same, alike⟩ := each ledger
    rw [same, alike]
    exact records.entered ledger

theorem records_bindVariable (reference : Reference) :
    Records (bindVariable reference) (Analysis.bindVariable reference) [reference.id] := by
  apply Records.of_each
  intro ledger
  unfold bindVariable Analysis.bindVariable
  split
  · exact ⟨_, _, records_report _ _ _, rfl, rfl⟩
  · exact ⟨_, _, records_bind reference, rfl, rfl⟩

theorem records_bindThis (reference : Reference) :
    Records (bindThis reference) (Analysis.bindThis reference) [reference.id] := by
  apply Records.of_each
  intro ledger
  unfold bindThis Analysis.bindThis
  cases ledger.analysis.enclosure with
  | none => exact ⟨_, _, records_report _ _ _, rfl, rfl⟩
  | baseClass | subclass => exact ⟨_, _, records_bind reference, rfl, rfl⟩

theorem records_bindSuper (reference : Reference) :
    Records (bindSuper reference) (Analysis.bindSuper reference) [reference.id] := by
  apply Records.of_each
  intro ledger
  unfold bindSuper Analysis.bindSuper
  cases ledger.analysis.enclosure with
  | none | baseClass => exact ⟨_, _, records_report _ _ _, rfl, rfl⟩
  | subclass => exact ⟨_, _, records_bind reference, rfl, rfl⟩

/-! ## Whole parts -/

mutual

theorem records_expr : (value : Expr) → Records (expr value) (Analysis.expr value) value.numbers
  | .literal _ => .refl
  | .grouping inner => records_expr inner
  | .unary _ operand => records_expr operand
  | .binary left _ right => (records_expr left).trans (records_expr right)
  | .logical left _ right => (records_expr left).trans (records_expr right)
  | .variable reference => records_bindVariable reference
  | .assign reference value => (records_expr value).trans (records_bind reference)
  | .call callee _ arguments => (records_expr callee).trans (records_exprs arguments)
  | .get object _ => records_expr object
  | .set object _ value =>
      ((records_expr value).trans (records_expr object)).perm List.perm_append_comm
  | .this reference => records_bindThis reference
  | .super reference _ => records_bindSuper reference

theorem records_exprs : (values : List Expr) →
    Records (exprs values) (Analysis.exprs values) (Expr.listNumbers values)
  | [] => .refl
  | first :: rest => (records_expr first).trans (records_exprs rest)

end

theorem records_optionalExpr : (value : Option Expr) →
    Records (optionalExpr value) (Analysis.optionalExpr value) (Expr.optionNumbers value)
  | none => .refl
  | some value => records_expr value

theorem records_enterClass (name : Token) : (superclass : Option Expr) →
    Records (enterClass name superclass) (Analysis.enterClass name superclass)
      (Expr.optionNumbers superclass)
  | none => .pass (distances_enterClass name)
  | some superclass => by
      have before : Records (pass fun analysis => analysis.atSuperclass name superclass)
          (fun analysis => analysis.atSuperclass name superclass) [] :=
        .pass fun analysis => distances_atSuperclass name analysis superclass
      have opened : Records (pass fun analysis =>
          (analysis.openScope.define "super").openScope.define "this")
          (fun analysis => (analysis.openScope.define "super").openScope.define "this") [] :=
        .pass fun _ => rfl
      have whole := (before.trans (records_expr superclass)).trans opened
      rw [List.append_nil, List.nil_append] at whole
      exact whole

mutual

theorem records_stmt : (statement : Stmt) →
    Records (stmt statement) (Analysis.stmt statement) statement.numbers
  | .expression value => records_expr value
  | .print value => records_expr value
  | .var name initializer => by
      have declared : Records (pass (Analysis.declare name)) (Analysis.declare name) [] :=
        .pass (distances_declare name)
      have defined : Records (pass (Analysis.define name.lexeme))
          (Analysis.define name.lexeme) [] :=
        .pass fun analysis => distances_define analysis name.lexeme
      have whole := (declared.trans (records_optionalExpr initializer)).trans defined
      rw [List.append_nil, List.nil_append] at whole
      exact whole
  | .block body => by
      have opened : Records (pass Analysis.openScope) Analysis.openScope [] := .pass fun _ => rfl
      have closed : Records (pass Analysis.closeScope) Analysis.closeScope [] :=
        .pass fun _ => rfl
      have whole := (opened.trans (records_stmts body)).trans closed
      rw [List.append_nil, List.nil_append] at whole
      exact whole
  | .conditional condition consequent alternative =>
      ((records_expr condition).trans (records_stmt consequent)).trans
        (records_optionalStmt alternative)
  | .whileLoop condition body => (records_expr condition).trans (records_stmt body)
  | .forLoop initializer condition increment body =>
      (((records_optionalStmt initializer).trans (records_optionalExpr condition)).trans
        (records_optionalExpr increment)).trans (records_stmt body)
  | .function declaration => by
      have introduced : Records (pass (Analysis.introduce declaration.name))
          (Analysis.introduce declaration.name) [] :=
        .pass (distances_introduce declaration.name)
      exact introduced.trans (records_functionBody declaration .function)
  | .returning keyword value => by
      have checked : Records (pass (Analysis.checkReturn keyword value.isSome))
          (Analysis.checkReturn keyword value.isSome) [] :=
        .pass fun analysis => distances_checkReturn analysis keyword value.isSome
      exact checked.trans (records_optionalExpr value)
  | .classDecl name superclass methods => by
      have left (start : Analysis) :
          Records (pass (Analysis.leaveClass superclass start.enclosure))
            (Analysis.leaveClass superclass start.enclosure) [] :=
        .pass fun analysis => distances_leaveClass analysis superclass start.enclosure
      have whole :=
        ((records_enterClass name superclass).trans (records_methodBodies methods)).follow left
      rw [List.append_nil] at whole
      exact whole

theorem records_stmts : (statements : List Stmt) →
    Records (stmts statements) (Analysis.stmts statements) (Stmt.listNumbers statements)
  | [] => .refl
  | first :: rest => (records_stmt first).trans (records_stmts rest)

theorem records_optionalStmt : (statement : Option Stmt) →
    Records (optionalStmt statement) (Analysis.optionalStmt statement)
      (Stmt.optionNumbers statement)
  | none => .refl
  | some statement => records_stmt statement

theorem records_functionBody : (declaration : FunctionDecl) → (body : Body) →
    Records (functionBody declaration body) (Analysis.functionBody declaration body)
      declaration.numbers
  | ⟨name, parameters, statements⟩, body => by
      have entered : Records (pass (Analysis.enterFunction ⟨name, parameters, statements⟩ body))
          (Analysis.enterFunction ⟨name, parameters, statements⟩ body) [] :=
        .pass fun analysis => distances_enterFunction analysis _ body
      have left (start : Analysis) :
          Records (pass fun analysis => analysis.closeScope.withBody start.body)
            (fun analysis => analysis.closeScope.withBody start.body) [] :=
        .pass fun _ => rfl
      have whole := (entered.trans (records_stmts statements)).follow left
      rw [List.append_nil, List.nil_append] at whole
      exact whole

theorem records_methodBodies : (methods : List FunctionDecl) →
    Records (methodBodies methods) (Analysis.methodBodies methods)
      (FunctionDecl.listNumbers methods)
  | [] => .refl
  | first :: rest =>
      (records_functionBody first (Analysis.methodBody first.name.lexeme)).trans
        (records_methodBodies rest)

end

/-! ## Whole programs -/

/-- The ledger of a program that is bound where some distances are noted already. -/
def ofProgram (program : List Stmt) (distances : Distances) : Ledger :=
  stmts program ⟨.start distances, []⟩

theorem ofProgram_forget (program : List Stmt) (distances : Distances) :
    (ofProgram program distances).analysis = Analysis.stmts program (.start distances) :=
  (records_stmts program).forget _

/-- What binding a program adds to the distances is what is entered. -/
theorem noted_ofProgram (program : List Stmt) (distances : Distances) :
    (bindProgram program distances).2 = noted (ofProgram program distances).entries distances := by
  obtain ⟨entries, added, changed, -⟩ := (records_stmts program).entered ⟨.start distances, []⟩
  rw [ofProgram, added]
  exact changed

/-- A number is entered at most as often as the program has it. -/
theorem count_ofProgram (program : List Stmt) (distances : Distances) (number : Nat) :
    ((ofProgram program distances).entries.map Prod.fst).count number ≤
      (Stmt.listNumbers program).count number := by
  obtain ⟨entries, added, -, few⟩ := (records_stmts program).entered ⟨.start distances, []⟩
  rw [ofProgram, added]
  exact few number

end Ledger

end Lox
