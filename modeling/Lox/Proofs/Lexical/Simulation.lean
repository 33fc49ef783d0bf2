import Lox.Proofs.Lexical.Functions

/-!
# The direct evaluator follows the machine

Where an expression or statement was visited and the names at hand match the scopes
around that visit, both sides end in the same way. Behind a statement the names match
the scopes behind its visit. As for the machine alone, everything goes by induction on
the steps, with expressions, statements and calls together.
-/

namespace Lox.Lexical

open Coupling

variable {setting : Setting} {before after : Coupling} {analysis : Analysis}
variable {loose : List (List String)} {names : Names} {steps : Nat}

/-! ## What holds behind statements -/

/-- A returned value is held, and behind any other flow the names match the scopes of
the analysis. -/
def Coupling.Follows (survey : Survey) (scopes : List (Bindings Readiness)) (after : Coupling)
    (names : Names) : Flow → Prop
  | .normal => after.Stands scopes names
  | .returned value => after.Holds survey value

/-- Both sides have come to the same flow, behind statements that lead to some
scopes of the analysis. -/
def Coupling.Behind (survey : Survey) (scopes : List (Bindings Readiness)) (after : Coupling)
    (flow : Flow) (result : Flow × Names) : Prop :=
  result.1 = flow.erased ∧ after.Follows survey scopes result.2 flow

/-- Everything that runs within a number of steps ends in the same way on both
sides. -/
structure Setting.Agrees (setting : Setting) (steps : Nat) : Prop where
  evaluate : ∀ {value : Expr} {analysis : Analysis} {loose : List (List String)} {names : Names}
      {before : Coupling},
    setting.survey.visited ⟨.expr value, analysis, loose⟩ → before.Sound setting.survey →
    before.machine.distances = setting.distances →
    before.Matches analysis.scopes before.machine.environment names →
    Simulates setting.survey [] before (Lox.evaluate steps value) (evaluate steps names value)
      (Same setting.survey)
  execute : ∀ {statement : Stmt} {analysis : Analysis} {loose : List (List String)} {names : Names}
      {before : Coupling},
    setting.survey.visited ⟨.stmt statement, analysis, loose⟩ → before.Sound setting.survey →
    before.machine.distances = setting.distances → before.Stands analysis.scopes names →
    Simulates setting.survey statement.declares before (Lox.execute steps statement)
      (execute steps names statement) (Behind setting.survey (analysis.stmt statement).scopes)
  invoke : ∀ {callable : Callable} {arguments : List Value} {line : Nat} {before : Coupling},
    before.HoldsCallable setting.survey callable →
    (∀ value ∈ arguments, before.Holds setting.survey value) →
    arguments.length = callable.arity → before.Sound setting.survey →
    before.machine.distances = setting.distances →
    Simulates setting.survey [] before (Lox.invoke steps callable arguments line)
      (invoke steps callable.erased (arguments.map Value.erased) line) (Same setting.survey)

/-! ## Lists -/

/-- Arguments are evaluated one after another. -/
theorem simulates_collect (agrees : setting.Agrees steps) {values : List Expr}
    (visited : ∀ front value back, values = front ++ value :: back →
      setting.survey.visited ⟨.expr value, analysis.exprs front, loose⟩)
    (sound : before.Sound setting.survey) (noted : before.machine.distances = setting.distances)
    (matching : before.Matches analysis.scopes before.machine.environment names) :
    Simulates setting.survey [] before (Run.collect (Lox.evaluate steps) values)
      (collect (evaluate steps names) values) fun after results results' =>
        results' = results.map Value.erased ∧
          ∀ result ∈ results, after.Holds setting.survey result := by
  induction values generalizing analysis before with
  | nil => exact simulates_pure sound ⟨rfl, by simp⟩
  | cons first rest ih =>
      apply (agrees.evaluate (visited [] first rest rfl) sound noted matching).bind
      rintro middle value _ grows ⟨rfl, held⟩
      have restVisited (front : List Expr) (value : Expr) (back : List Expr)
          (shape : rest = front ++ value :: back) :
          setting.survey.visited ⟨.expr value, (analysis.expr first).exprs front, loose⟩ :=
        visited (first :: front) value back (by rw [shape, List.cons_append])
      have restMatching : middle.Matches (analysis.expr first).scopes
          middle.machine.environment names := by
        rw [Analysis.scopes_expr]
        exact matching.follow grows
      apply (ih restVisited grows.sound (grows.distances.trans noted) restMatching).bind
      rintro after results _ growsOn ⟨rfl, heldRest⟩
      exact simulates_pure growsOn.sound
        ⟨rfl, List.forall_mem_cons.mpr ⟨held.grow growsOn.toExtends, heldRest⟩⟩

/-- Statements run one after another, each with the names that those before it have
declared. -/
theorem simulates_sequence (agrees : setting.Agrees steps) {statements : List Stmt}
    (lists : setting.survey.Lists statements analysis loose) (sound : before.Sound setting.survey)
    (noted : before.machine.distances = setting.distances)
    (stands : before.Stands analysis.scopes names) :
    Simulates setting.survey (Stmt.listDeclares statements) before
      (Flow.sequence (Lox.execute steps) statements) (sequence (execute steps) names statements)
      (Behind setting.survey (analysis.stmts statements).scopes) := by
  induction statements generalizing analysis loose before names with
  | nil =>
      refine simulates_pure sound ⟨rfl, ?_⟩
      rw [Analysis.stmts]
      exact stands
  | cons first rest ih =>
      rw [Analysis.stmts]
      apply ((agrees.execute lists.head sound noted stands).weaken
        (List.subset_append_left _ _)).bind
      rintro middle flow ⟨flow', names'⟩ grows ⟨rfl, follows⟩
      cases flow with
      | returned value => exact simulates_pure grows.sound ⟨rfl, follows⟩
      | normal =>
          exact (ih lists.tail grows.sound (grows.distances.trans noted) follows).weaken
            (List.subset_append_right _ _)

/-- Statements in a scope of their own. -/
theorem simulates_body (agrees : setting.Agrees steps) {statements : List Stmt}
    (lists : setting.survey.Lists statements analysis loose) {outer : Environment}
    {scopes : List (Bindings Readiness)} {entries : List (Token × Value)}
    (inside : analysis.scopes =
      declaring (entries.map fun entry => entry.1.lexeme) (.empty :: scopes))
    (sound : before.Sound setting.survey) (noted : before.machine.distances = setting.distances)
    (matching : before.Matches scopes outer names)
    (held : ∀ entry ∈ entries, before.Holds setting.survey entry.2) :
    Simulates setting.survey [] before
      (Run.newScope outer (entries.foldl
          (fun bindings entry => bindings.set entry.1.lexeme entry.2) .empty) >>= fun inner =>
        Run.within inner (Flow.sequence (Lox.execute steps) statements))
      (bindParameters (entries.map fun entry => (entry.1, entry.2.erased)) names.enter >>=
        fun names' => sequence (execute steps) names' statements)
      fun after flow result => result.1 = flow.erased ∧
        ∀ value, flow = .returned value → after.Holds setting.survey value := by
  apply (simulates_newScope sound matching held).scoped
  · rintro opened inner names' ⟨-, reference, rfl, fresh, -⟩ _ ⟨⟩
    exact fresh
  · rintro opened inner names' grows ⟨matchingInner, reference, rfl, -, tight⟩
    have stands : (opened.within (reference :: outer)).Stands analysis.scopes names' := by
      rw [inside]
      refine ⟨matchingInner.grow (opened.extends_within _), ?_⟩
      rintro scope beyond _ _ shape ⟨⟩ name placed
      cases shape
      exact Environment.Fits.contains_of_mem (tight name placed)
    have enclosed : (opened.within (reference :: outer)).Sound setting.survey :=
      grows.sound.within _
    have notedInner : (opened.within (reference :: outer)).machine.distances =
        setting.distances := grows.distances.trans noted
    apply (simulates_sequence agrees lists enclosed notedInner stands).imp
    rintro after flow ⟨flow', names''⟩ - - ⟨rfl, follows⟩
    refine ⟨rfl, ?_⟩
    rintro value rfl
    exact follows
  · rintro after flow result ⟨same, holds⟩
    exact ⟨same, fun value returned => (holds value returned).grow (after.extends_within _)⟩

/-! ## Expressions -/

/-- A name of the program is read. -/
theorem simulates_variable {reference : Reference}
    (visited : setting.survey.visited ⟨.expr (.variable reference), analysis, loose⟩)
    (sound : before.Sound setting.survey) (noted : before.machine.distances = setting.distances)
    (matching : before.Matches analysis.scopes before.machine.environment names) :
    Simulates setting.survey [] before (Run.read reference) (read names reference)
      (Same setting.survey) := by
  have accepted := setting.accepted _ visited
  have ready : AllReady analysis.scopes.tail := accepted.ready
  obtain ⟨distance, settled⟩ := accepted.variable
  apply simulates_read sound matching
  · rw [noted, distance]
  · exact fun _ _ found here => ready_of_nearest ready settled found here

/-- `this` is read. -/
theorem simulates_this {reference : Reference}
    (visited : setting.survey.visited ⟨.expr (.this reference), analysis, loose⟩)
    (sound : before.Sound setting.survey) (noted : before.machine.distances = setting.distances)
    (matching : before.Matches analysis.scopes before.machine.environment names) :
    Simulates setting.survey [] before (Run.read reference) (read names reference)
      (Same setting.survey) := by
  have accepted := setting.accepted _ visited
  have named : reference.name.lexeme = "this" := accepted.placed
  have receives := (setting.guarded _ visited).receives (by simp)
  apply simulates_read sound matching
  · rw [noted, accepted.this]
  · have keyword : ¬ IsOrdinaryName reference.name.lexeme := fun ordinary => ordinary.1 named
    exact fun _ _ found here =>
      ready_of_awake (fun scope inside => receives.awake scope inside _ keyword) found here

/-- The callee, the arguments from left to right, and what is called with them. -/
theorem simulates_calling (agrees : setting.Agrees steps) {callee : Expr} {paren : Token}
    {arguments : List Expr}
    (visited : setting.survey.visited ⟨.expr (.call callee paren arguments), analysis, loose⟩)
    (sound : before.Sound setting.survey) (noted : before.machine.distances = setting.distances)
    (matching : before.Matches analysis.scopes before.machine.environment names) :
    Simulates setting.survey [] before
      (Lox.evaluate (steps + 1) (.call callee paren arguments))
      (evaluate (steps + 1) names (.call callee paren arguments)) (Same setting.survey) := by
  apply (agrees.evaluate (setting.survey.contains visited .callee) sound noted matching).bind
  rintro middle function _ grows ⟨rfl, held⟩
  have inside : middle.Matches (analysis.expr callee).scopes
      middle.machine.environment names := by
    rw [Analysis.scopes_expr]
    exact matching.follow grows
  apply (simulates_collect agrees (visited_argument visited) grows.sound
    (grows.distances.trans noted) inside).bind
  rintro after values _ growsOn ⟨rfl, heldValues⟩
  rw [Value.callable?_erased]
  cases found : function.callable? with
  | none => exact simulates_fail growsOn.sound
  | some callable =>
      dsimp only [Option.map_some]
      rw [List.length_map, Callable.arity_erased]
      split
      · next enough =>
          exact agrees.invoke ((held.grow growsOn.toExtends).callable found) heldValues enough
            growsOn.sound ((growsOn.distances.trans grows.distances).trans noted)
      · exact simulates_fail growsOn.sound

theorem simulates_evaluate (agrees : setting.Agrees steps) {value : Expr}
    (visited : setting.survey.visited ⟨.expr value, analysis, loose⟩)
    (sound : before.Sound setting.survey) (noted : before.machine.distances = setting.distances)
    (matching : before.Matches analysis.scopes before.machine.environment names) :
    Simulates setting.survey [] before (Lox.evaluate (steps + 1) value)
      (evaluate (steps + 1) names value) (Same setting.survey) := by
  have contains {inner : Visit} (part : Visit.Contains ⟨.expr value, analysis, loose⟩ inner) :
      setting.survey.visited inner := setting.survey.contains visited part
  -- A part behind other ones is evaluated in the same scopes.
  have later {middle : Coupling} {part : Expr} {behind : Analysis}
      (grows : before.Grows setting.survey [] middle)
      (inside : setting.survey.visited ⟨.expr part, behind, loose⟩)
      (same : behind.scopes = analysis.scopes) :
      Simulates setting.survey [] middle (Lox.evaluate steps part) (evaluate steps names part)
        (Same setting.survey) :=
    agrees.evaluate inside grows.sound (grows.distances.trans noted)
      (same ▸ matching.follow grows)
  cases value with
  | literal literal =>
      exact simulates_pure sound
        ⟨(Value.erased_literal literal).symm, holds_of_isPlain (isPlain_literal literal)⟩
  | grouping inner => exact agrees.evaluate (contains .grouping) sound noted matching
  | unary operator operand =>
      apply (agrees.evaluate (contains .operand) sound noted matching).bind
      rintro middle value _ grows ⟨rfl, -⟩
      exact simulates_ofOperator grows.sound operator (Value.unary_erased _ _)
        fun _ computed => isPlain_unary computed
  | binary left operator right =>
      apply (agrees.evaluate (contains .left) sound noted matching).bind
      rintro middle one _ grows ⟨rfl, -⟩
      apply (later grows (contains .right) (by simp)).bind
      rintro after other _ growsOn ⟨rfl, -⟩
      exact simulates_ofOperator growsOn.sound operator (Value.binary_erased _ _ _)
        fun _ computed => isPlain_binary computed
  | logical left operator right =>
      apply (agrees.evaluate (contains .logicalLeft) sound noted matching).bind
      rintro middle one _ grows ⟨rfl, held⟩
      rw [Value.decides_erased]
      split
      · exact simulates_pure grows.sound ⟨rfl, held⟩
      · exact later grows (contains .logicalRight) (by simp)
  | «variable» reference => exact simulates_variable visited sound noted matching
  | assign reference value =>
      apply (agrees.evaluate (contains .assigned) sound noted matching).bind
      rintro middle result _ grows ⟨rfl, held⟩
      have distance : middle.machine.distances.get? reference.id =
          nearest analysis.scopes reference.name.lexeme := by
        rw [grows.distances, noted, (setting.accepted _ visited).assign]
      apply (simulates_write grows.sound (matching.follow grows) (setting.survey.placed visited).1
        distance ⟨rfl, held⟩).bind
      rintro after _ _ growsOn -
      exact simulates_pure growsOn.sound ⟨rfl, held.grow growsOn.toExtends⟩
  | call callee paren arguments => exact simulates_calling agrees visited sound noted matching
  | get object name =>
      apply (agrees.evaluate (contains .object) sound noted matching).bind
      rintro middle value _ grows ⟨rfl, held⟩
      cases value with
      | object found => exact simulates_property grows.sound held name
      | _ => exact simulates_fail grows.sound
  | set object name value =>
      apply (later (sound.grows) (contains .changed) (by simp)).bind
      rintro middle target _ grows ⟨rfl, held⟩
      cases target with
      | object found =>
          apply (later grows (contains .stored) rfl).bind
          rintro after result _ growsOn ⟨rfl, heldResult⟩
          apply (simulates_setProperty growsOn.sound found name ⟨rfl, heldResult⟩).bind
          rintro last _ _ growsLast -
          exact simulates_pure growsLast.sound ⟨rfl, heldResult.grow growsLast.toExtends⟩
      | _ => exact simulates_fail grows.sound
  | this reference => exact simulates_this visited sound noted matching
  | super reference method =>
      have guarded := setting.guarded _ visited
      obtain ⟨distance, found, object, above⟩ := (setting.accepted _ visited).super_bound guarded
      apply simulates_superMethod sound matching method _ object above
        (guarded.receives (by simp)).awake
      rw [noted, found]

/-! ## Statements -/

/-- A part of a statement that is no declaration and no loop with a variable of its
own declares nothing. -/
theorem Setting.declares_of_bare {statement : Stmt}
    (visited : setting.survey.visited ⟨.stmt statement, analysis, loose⟩)
    (plain : statement.isDeclaration = false) (loopless : statement.isDeclaringLoop = false) :
    statement.declares = [] :=
  statement.declares_of_bare (setting.survey.placed visited) (setting.orderly _ visited) plain
    loopless

/-- Behind a part that declares nothing, the names are those in front of it. -/
theorem simulates_part (agrees : setting.Agrees steps) {statement : Stmt}
    {scopes : List (Bindings Readiness)}
    (visited : setting.survey.visited ⟨.stmt statement, analysis, loose⟩)
    (same : analysis.scopes = scopes) (plain : statement.isDeclaration = false)
    (loopless : statement.isDeclaringLoop = false) (sound : before.Sound setting.survey)
    (noted : before.machine.distances = setting.distances) (stands : before.Stands scopes names) :
    Simulates setting.survey [] before (Lox.execute steps statement)
      (execute steps names statement)
      fun after flow result =>
        result.1 = flow.erased ∧ after.Follows setting.survey scopes names flow := by
  subst same
  have simulates := agrees.execute visited sound noted stands
  rw [setting.declares_of_bare visited plain loopless] at simulates
  apply simulates.imp
  rintro after flow ⟨flow', names'⟩ - grows ⟨rfl, follows⟩
  refine ⟨rfl, ?_⟩
  cases flow with
  | normal => exact stands.follow grows
  | returned value => exact follows

/-- The first clause of a loop. -/
theorem simulates_clause (agrees : setting.Agrees steps) {clause : Stmt}
    (visited : setting.survey.visited ⟨.stmt clause, analysis, loose⟩)
    (placed : Stmt.ClausePlaced (some clause)) (sound : before.Sound setting.survey)
    (noted : before.machine.distances = setting.distances)
    (stands : before.Stands analysis.scopes names) :
    Simulates setting.survey clause.declares before (Lox.execute steps clause)
      (execute steps names clause)
      fun after _ result => after.Stands (analysis.stmt clause).scopes result.2 := by
  apply (agrees.execute visited sound noted stands).imp
  rintro after flow ⟨flow', names'⟩ ran grows ⟨rfl, follows⟩
  rw [flow_of_clause placed ran] at follows
  exact follows

theorem simulates_goesOn (agrees : setting.Agrees steps) {condition : Option Expr}
    (visited : ∀ value, condition = some value →
      setting.survey.visited ⟨.expr value, analysis, loose⟩)
    (sound : before.Sound setting.survey) (noted : before.machine.distances = setting.distances)
    (matching : before.Matches analysis.scopes before.machine.environment names) :
    Simulates setting.survey [] before (Run.goesOn (Lox.evaluate steps) condition)
      (goesOn (evaluate steps names) condition) fun _ goesOn goesOn' => goesOn' = goesOn := by
  cases condition with
  | none => exact simulates_pure sound rfl
  | some value =>
      apply (agrees.evaluate (visited value rfl) sound noted matching).bind
      rintro middle result _ grows ⟨rfl, -⟩
      exact simulates_pure grows.sound (Value.isTruthy_erased result)

theorem simulates_block (agrees : setting.Agrees steps) {body : List Stmt}
    (visited : setting.survey.visited ⟨.stmt (.block body), analysis, loose⟩)
    (sound : before.Sound setting.survey) (noted : before.machine.distances = setting.distances)
    (stands : before.Stands analysis.scopes names) :
    Simulates setting.survey [] before (Lox.execute (steps + 1) (.block body))
      (execute (steps + 1) names (.block body))
      (Behind setting.survey (analysis.stmt (.block body)).scopes) := by
  have lists : setting.survey.Lists body analysis.openScope ([] :: loose) := by
    intro front statement back shape
    subst shape
    exact setting.survey.contains visited .member
  have inside : analysis.openScope.scopes =
      declaring (([] : List (Token × Value)).map fun entry => entry.1.lexeme)
        (.empty :: analysis.scopes) := rfl
  have behind : (analysis.stmt (.block body)).scopes = analysis.scopes := by
    rw [Analysis.scopes_stmt, Stmt.declares, declaring_nil]
  have simulates := simulates_body agrees lists inside sound noted stands.matching (by simp)
  rw [behind]
  apply simulates_look
  apply simulates.map
  rintro after flow ⟨flow', names'⟩ grows ⟨rfl, held⟩
  refine ⟨rfl, ?_⟩
  cases flow with
  | normal => exact stands.follow grows
  | returned value => exact held value rfl

theorem simulates_whileLoop (agrees : setting.Agrees steps) {condition : Expr} {body : Stmt}
    (visited : setting.survey.visited ⟨.stmt (.whileLoop condition body), analysis, loose⟩)
    (sound : before.Sound setting.survey) (noted : before.machine.distances = setting.distances)
    (stands : before.Stands analysis.scopes names) :
    Simulates setting.survey (Stmt.whileLoop condition body).declares before
      (Lox.execute (steps + 1) (.whileLoop condition body))
      (execute (steps + 1) names (.whileLoop condition body))
      (Behind setting.survey (analysis.stmt (.whileLoop condition body)).scopes) := by
  have bodyVisited := setting.survey.contains visited .whileBody
  have placed := setting.survey.placed visited
  have orderly := setting.orderly _ visited
  have bare : (Stmt.whileLoop condition body).declares = [] := by
    rw [Stmt.declares]
    exact setting.declares_of_bare bodyVisited placed.2.1 orderly.1
  have again {middle : Coupling} (grows : before.Grows setting.survey [] middle) :=
    agrees.execute visited grows.sound (grows.distances.trans noted) (stands.follow grows)
  rw [Analysis.scopes_stmt, bare, declaring_nil] at again ⊢
  apply (agrees.evaluate (setting.survey.contains visited .whileCondition) sound noted
    stands.matching).bind
  rintro middle value _ grows ⟨rfl, -⟩
  rw [Value.isTruthy_erased]
  split
  · apply (simulates_part agrees bodyVisited (by simp) placed.2.1 orderly.1 grows.sound
      (grows.distances.trans noted) (stands.follow grows)).bind
    rintro after flow ⟨flow', names'⟩ growsOn ⟨rfl, follows⟩
    cases flow with
    | returned value => exact simulates_pure growsOn.sound ⟨rfl, follows⟩
    | normal => exact again (grows.trans growsOn)
  · exact simulates_pure grows.sound ⟨rfl, stands.follow grows⟩

theorem simulates_forLoop (agrees : setting.Agrees steps) {condition increment : Option Expr}
    {body : Stmt}
    (visited : setting.survey.visited
      ⟨.stmt (.forLoop none condition increment body), analysis, loose⟩)
    (sound : before.Sound setting.survey) (noted : before.machine.distances = setting.distances)
    (stands : before.Stands analysis.scopes names) :
    Simulates setting.survey (Stmt.forLoop none condition increment body).declares before
      (Lox.execute (steps + 1) (.forLoop none condition increment body))
      (execute (steps + 1) names (.forLoop none condition increment body))
      (Behind setting.survey (analysis.stmt (.forLoop none condition increment body)).scopes) := by
  have bodyVisited := setting.survey.contains visited .forBody
  have placed := setting.survey.placed visited
  have orderly := setting.orderly _ visited
  have bare : (Stmt.forLoop none condition increment body).declares = [] := by
    rw [Stmt.declares, Stmt.optionDeclares, List.nil_append]
    exact setting.declares_of_bare bodyVisited placed.2.2.2.1 orderly.1
  have again {middle : Coupling} (grows : before.Grows setting.survey [] middle) :=
    agrees.execute visited grows.sound (grows.distances.trans noted) (stands.follow grows)
  rw [Analysis.scopes_stmt, bare, declaring_nil] at again ⊢
  have conditionVisited (value : Expr) (given : condition = some value) :
      setting.survey.visited ⟨.expr value, analysis, loose⟩ := by
    subst given
    exact setting.survey.contains visited .forCondition
  apply (simulates_goesOn agrees conditionVisited sound noted stands.matching).bind
  rintro middle goesOn _ grows rfl
  split
  · apply (simulates_part agrees bodyVisited (by simp) placed.2.2.2.1 orderly.1 grows.sound
      (grows.distances.trans noted) (stands.follow grows)).bind
    rintro after flow ⟨flow', names'⟩ growsOn ⟨rfl, follows⟩
    have growsAll := grows.trans growsOn
    cases flow with
    | returned value => exact simulates_pure growsOn.sound ⟨rfl, follows⟩
    | normal =>
        cases increment with
        | none => exact again growsAll
        | some step =>
            have stepScopes : (Analysis.optionalExpr condition analysis).scopes =
                analysis.scopes := by simp
            apply (agrees.evaluate (setting.survey.contains visited .forIncrement) growsAll.sound
              (growsAll.distances.trans noted)
              (stepScopes ▸ stands.matching.follow growsAll)).bind
            rintro last _ _ growsLast -
            exact again (growsAll.trans growsLast)
  · exact simulates_pure grows.sound ⟨rfl, stands.follow grows⟩

theorem simulates_var (agrees : setting.Agrees steps) {name : Token} {initializer : Option Expr}
    (visited : setting.survey.visited ⟨.stmt (.var name initializer), analysis, loose⟩)
    (sound : before.Sound setting.survey) (noted : before.machine.distances = setting.distances)
    (stands : before.Stands analysis.scopes names) :
    Simulates setting.survey [name.lexeme] before
      (Lox.execute (steps + 1) (.var name initializer))
      (execute (steps + 1) names (.var name initializer))
      (Behind setting.survey (declaring [name.lexeme] analysis.scopes)) := by
  have ordinary : IsOrdinaryName name.lexeme := (setting.survey.placed visited).1
  have clean : (analysis.declare name).faults = [] := by
    have whole : (analysis.stmt (.var name initializer)).faults = [] :=
      (setting.accepted _ visited).clean
    rw [Analysis.stmt] at whole
    exact ((Analysis.passes_optionalExpr _ initializer).toAdvances.trans
      (Analysis.advances_define _ _)).clean whole
  obtain ⟨ahead, names', ran, same, grows, matching⟩ :=
    declares_ahead sound stands clean (List.mem_singleton_self _)
  -- What is behind the declaration, once the name has a value.
  have bound {middle : Coupling} (growsOn : ahead.Grows setting.survey [name.lexeme] middle)
      {value value' : Value} (both : middle.Same setting.survey value value') :
      Simulates setting.survey [name.lexeme] middle
        (do Run.define name.lexeme value; return .normal)
        (do define names' name.lexeme value'; return (.normal, names'))
        (Behind setting.survey (declaring [name.lexeme] analysis.scopes)) := by
    apply (simulates_define growsOn.sound (matching.follow growsOn) ordinary
      (fun _ _ => contains_declare) both.1 fun _ growth _ => both.2.grow growth).bind
    rintro after _ _ growsLast matchingName
    rw [declaring_declare] at matchingName
    exact simulates_pure growsLast.sound
      ⟨rfl, stands.declaring ((grows.trans growsOn).trans growsLast) matchingName⟩
  cases initializer with
  | none => exact simulates_lead ran same grows (bound grows.sound.grows ⟨rfl, trivial⟩)
  | some value =>
      apply simulates_lead ran same grows
      have noted : ahead.machine.distances = setting.distances := same ▸ noted
      apply ((agrees.evaluate (setting.survey.contains visited .initializer) grows.sound noted
        matching).weaken (List.nil_subset _)).bind
      rintro middle result _ growsOn both
      exact bound growsOn both

theorem simulates_function {declaration : FunctionDecl}
    (visited : setting.survey.visited ⟨.stmt (.function declaration), analysis, loose⟩)
    (sound : before.Sound setting.survey) (stands : before.Stands analysis.scopes names) :
    Simulates setting.survey [declaration.name.lexeme] before
      (Lox.execute (steps + 1) (.function declaration))
      (execute (steps + 1) names (.function declaration))
      (Behind setting.survey (declaring [declaration.name.lexeme] analysis.scopes)) := by
  have clean : (analysis.declare declaration.name).faults = [] := by
    have whole : (analysis.stmt (.function declaration)).faults = [] :=
      (setting.accepted _ visited).clean
    rw [Analysis.stmt] at whole
    exact ((Analysis.advances_define _ _).trans
      (Analysis.passes_functionBody declaration _ _).toAdvances).clean whole
  obtain ⟨ahead, names', ran, same, grows, matching⟩ :=
    declares_ahead sound stands clean (List.mem_singleton_self _)
  apply simulates_lead ran same grows
  apply (simulates_declare grows.sound names' declaration false).bind
  rintro middle closure _ growsOn ⟨rfl, shape, environment, plain, known, captured⟩
  have erased : Value.function closure.erased = (Value.function closure).erased := rfl
  apply (simulates_define growsOn.sound (matching.follow growsOn)
    (setting.survey.placed visited).name (fun _ _ => contains_declare) erased ?_).bind
  · rintro after _ _ growsLast matchingName
    rw [declaring_declare] at matchingName
    exact simulates_pure growsLast.sound
      ⟨rfl, stands.declaring ((grows.trans growsOn).trans growsLast) matchingName⟩
  · intro after growth matchingName
    rw [declaring_declare, ← (Analysis.passes_introduce analysis declaration.name).scopes,
      ← environment] at matchingName
    refine ⟨analysis.introduce declaration.name, ?_⟩
    constructor
    · exact Nat.lt_of_lt_of_le known growth.identities
    · refine ⟨.function, [] :: loose, ?_⟩
      rw [shape]
      exact fun front statement back split => setting.survey.contains visited (.functionBody split)
    · rw [namesOf_grow growth known, captured]
      exact matchingName
    · rw [plain]
      simp

theorem simulates_superclassOf (name : Token) (superclass : Expr) {value : Value}
    (sound : before.Sound setting.survey) (held : before.Holds setting.survey value) :
    Simulates setting.survey [] before (Lox.superclassOf name superclass value)
      (superclassOf name superclass value.erased) fun after cls cls' =>
        cls' = cls.erased ∧ after.HoldsClass setting.survey cls := by
  cases value with
  | cls found => exact simulates_pure sound ⟨rfl, held⟩
  | _ => exact simulates_fail sound

/-- Only the declared name is pending. -/
theorem awake_declare (ready : AllReady analysis.scopes) {name : Token} {text : String}
    (different : name.lexeme ≠ text) :
    ∀ scope ∈ (analysis.declare name).scopes, scope.get? text ≠ some .pending := by
  unfold Analysis.declare
  cases around : analysis.scopes with
  | nil => exact fun scope inside => nomatch around ▸ inside
  | cons first outer =>
      rw [around] at ready
      dsimp only
      split
      · rw [Analysis.report, around]
        exact fun scope inside => ready scope inside text
      · rw [List.forall_mem_cons, Bindings.get?_set, if_neg different]
        exact ⟨ready first (.head _) text, fun scope inside => ready scope (.tail _ inside) text⟩

/-- The name of a superclass is read while that of the class is there already. -/
theorem simulates_superclass {name : Token} {reference : Reference}
    (visited : setting.survey.visited ⟨.expr (.variable reference),
      analysis.atSuperclass name (.variable reference), loose⟩)
    (ready : AllReady analysis.scopes) (sound : before.Sound setting.survey)
    (noted : before.machine.distances = setting.distances)
    (matching : before.Matches (analysis.declare name).scopes before.machine.environment names) :
    Simulates setting.survey [] before (Lox.evaluate steps (.variable reference))
      (evaluate steps names (.variable reference)) (Same setting.survey) := by
  have accepted := setting.accepted _ visited
  have different := accepted.ne_superclass
  cases steps with
  | zero => exact simulates_throw sound
  | succ steps =>
      apply simulates_read sound matching
      · rw [noted, accepted.variable.1, Analysis.scopes_atSuperclass, ← declaring_declare,
          nearest_declaring_of_not_mem (by simpa using different)]
      · exact fun _ _ found here =>
          ready_of_awake (awake_declare ready different.symm) found here

/-- Where nothing is wrong in front of the methods of a class, its name was declared
without a fault. -/
theorem clean_of_enterClass {name : Token} {superclass : Option Expr}
    (entered : (analysis.enterClass name superclass).faults = []) :
    (analysis.declare name).faults = [] := by
  have same : ((analysis.withEnclosure .baseClass).declare name).faults =
      (analysis.declare name).faults := by
    unfold Analysis.declare
    cases around : analysis.scopes with
    | nil =>
        rw [Analysis.withEnclosure, around]
    | cons scope outer =>
        rw [Analysis.withEnclosure, around]
        dsimp only
        split <;> rfl
  have introduced := Analysis.advances_define ((analysis.withEnclosure .baseClass).declare name)
    name.lexeme
  rw [← same]
  cases superclass with
  | none => exact introduced.clean ((Analysis.passes_openWith _ "this").2.2.2.clean entered)
  | some value =>
      have opened := (Analysis.passes_openWith _ "super").2.2.2.clean
        ((Analysis.passes_openWith _ "this").2.2.2.clean entered)
      have evaluated := (Analysis.passes_expr value _).toAdvances.clean opened
      exact introduced.clean
        ((Analysis.passes_checkSuperclass _ name value).toAdvances.clean evaluated)

theorem simulates_classDecl {name : Token} {superclass : Option Expr}
    {methods : List FunctionDecl}
    (visited : setting.survey.visited ⟨.stmt (.classDecl name superclass methods), analysis, loose⟩)
    (sound : before.Sound setting.survey) (noted : before.machine.distances = setting.distances)
    (stands : before.Stands analysis.scopes names) :
    Simulates setting.survey [name.lexeme] before
      (Lox.execute (steps + 1) (.classDecl name superclass methods))
      (execute (steps + 1) names (.classDecl name superclass methods))
      (Behind setting.survey (declaring [name.lexeme] analysis.scopes)) := by
  have accepted := setting.accepted _ visited
  have clean : (analysis.declare name).faults = [] := by
    have whole : (analysis.stmt (.classDecl name superclass methods)).faults = [] :=
      accepted.clean
    rw [Analysis.stmt] at whole
    have methodsClean :=
      (Analysis.leaveClass_around _ superclass analysis.enclosure).2.2.clean whole
    have entered := (Analysis.passes_methodBodies methods _).toAdvances.clean methodsClean
    exact clean_of_enterClass entered
  obtain ⟨ahead, names', ran, same, grows, matching⟩ :=
    declares_ahead sound stands clean (List.mem_singleton_self _)
  -- What is behind the declaration, once the superclass is known.
  have bound {middle : Coupling} (growsOn : ahead.Grows setting.survey [name.lexeme] middle)
      (found : Option Class) (sort : found.isSome = superclass.isSome)
      (inherited : ∀ cls, found = some cls → middle.HoldsClass setting.survey cls) :
      Simulates setting.survey [name.lexeme] middle
        (do Lox.declareClass name found methods; return .normal)
        (do defineClass names' name (found.map Class.erased) methods; return (.normal, names'))
        (Behind setting.survey (declaring [name.lexeme] analysis.scopes)) := by
    apply (simulates_declareClass visited sort growsOn.sound (matching.follow growsOn)
      inherited).bind
    rintro after _ _ growsLast matchingName
    exact simulates_pure growsLast.sound
      ⟨rfl, stands.declaring ((grows.trans growsOn).trans growsLast) matchingName⟩
  cases superclass with
  | none =>
      apply simulates_lead ran same grows
      exact bound grows.sound.grows none rfl (by simp)
  | some value =>
      obtain ⟨reference, rfl⟩ := (setting.survey.placed visited).2.1
      apply simulates_lead ran same grows
      have noted : ahead.machine.distances = setting.distances := same ▸ noted
      apply ((simulates_superclass (setting.survey.contains visited .superclass) accepted.ready
        grows.sound noted matching).weaken (List.nil_subset _)).bind
      rintro middle result _ growsOn ⟨rfl, held⟩
      apply ((simulates_superclassOf name _ growsOn.sound held).weaken (List.nil_subset _)).bind
      rintro after cls _ growsLast ⟨rfl, inherited⟩
      apply bound (growsOn.trans growsLast) (some cls) rfl
      rintro _ ⟨⟩
      exact inherited

theorem simulates_conditional (agrees : setting.Agrees steps) {condition : Expr}
    {consequent : Stmt} {alternative : Option Stmt}
    (visited : setting.survey.visited
      ⟨.stmt (.conditional condition consequent alternative), analysis, loose⟩)
    (sound : before.Sound setting.survey) (noted : before.machine.distances = setting.distances)
    (stands : before.Stands analysis.scopes names) :
    Simulates setting.survey (Stmt.conditional condition consequent alternative).declares before
      (Lox.execute (steps + 1) (.conditional condition consequent alternative))
      (execute (steps + 1) names (.conditional condition consequent alternative))
      (Behind setting.survey
        (analysis.stmt (.conditional condition consequent alternative)).scopes) := by
  have placed := setting.survey.placed visited
  have orderly := setting.orderly _ visited
  have consequentVisited := setting.survey.contains visited .consequent
  have bareConsequent : consequent.declares = [] :=
    setting.declares_of_bare consequentVisited placed.2.1.1 orderly.1.1
  have bareAlternative : Stmt.optionDeclares alternative = [] := by
    cases alternative with
    | none => rw [Stmt.optionDeclares]
    | some other =>
        rw [Stmt.optionDeclares]
        exact setting.declares_of_bare (setting.survey.contains visited .alternative)
          placed.2.2.1 orderly.2.1
  have bare : (Stmt.conditional condition consequent alternative).declares = [] := by
    rw [Stmt.declares, bareConsequent, bareAlternative, List.append_nil]
  rw [Analysis.scopes_stmt, bare, declaring_nil]
  apply (agrees.evaluate (setting.survey.contains visited .condition) sound noted
    stands.matching).bind
  rintro middle value _ grows ⟨rfl, -⟩
  rw [Value.isTruthy_erased]
  have notedOn := grows.distances.trans noted
  split
  · exact (simulates_part agrees consequentVisited (by simp) placed.2.1.1 orderly.1.1
      grows.sound notedOn (stands.follow grows)).map fun _ _ _ _ behind => behind
  · cases alternative with
    | none => exact simulates_pure grows.sound ⟨rfl, stands.follow grows⟩
    | some other =>
        have scopes : ((analysis.expr condition).stmt consequent).scopes = analysis.scopes := by
          rw [Analysis.scopes_stmt, bareConsequent, declaring_nil, Analysis.scopes_expr]
        exact (simulates_part agrees (setting.survey.contains visited .alternative) scopes
          placed.2.2.1 orderly.2.1 grows.sound notedOn (stands.follow grows)).map
            fun _ _ _ _ behind => behind

/-- A loop with a first clause goes on as the loop without it, with the name that the clause
declares. -/
theorem simulates_initializedLoop (agrees : setting.Agrees steps) {clause : Stmt}
    {condition increment : Option Expr} {body : Stmt}
    (visited : setting.survey.visited
      ⟨.stmt (.forLoop (some clause) condition increment body), analysis, loose⟩)
    (sound : before.Sound setting.survey) (noted : before.machine.distances = setting.distances)
    (stands : before.Stands analysis.scopes names) :
    Simulates setting.survey (Stmt.forLoop (some clause) condition increment body).declares before
      (Lox.execute (steps + 1) (.forLoop (some clause) condition increment body))
      (execute (steps + 1) names (.forLoop (some clause) condition increment body))
      (Behind setting.survey
        (analysis.stmt (.forLoop (some clause) condition increment body)).scopes) := by
  rw [Stmt.declares, Stmt.optionDeclares]
  apply ((simulates_clause agrees (setting.survey.contains visited .forInitializer)
    (setting.survey.placed visited).1 sound noted stands).weaken
      (List.subset_append_left _ _)).bind
  rintro middle flow ⟨flow', names'⟩ grows standsOn
  have rest := agrees.execute (setting.survey.contains visited .forRest) grows.sound
    (grows.distances.trans noted) standsOn
  rw [Stmt.declares, Stmt.optionDeclares, List.nil_append] at rest
  have behind : (analysis.stmt clause).stmt (.forLoop none condition increment body) =
      analysis.stmt (.forLoop (some clause) condition increment body) := by
    rw [Analysis.stmt, Analysis.stmt, Analysis.optionalStmt, Analysis.optionalStmt]
  rw [← behind]
  exact rest.weaken (List.subset_append_right _ _)

theorem simulates_execute (agrees : setting.Agrees steps) {statement : Stmt}
    (visited : setting.survey.visited ⟨.stmt statement, analysis, loose⟩)
    (sound : before.Sound setting.survey) (noted : before.machine.distances = setting.distances)
    (stands : before.Stands analysis.scopes names) :
    Simulates setting.survey statement.declares before (Lox.execute (steps + 1) statement)
      (execute (steps + 1) names statement)
      (Behind setting.survey (analysis.stmt statement).scopes) := by
  -- A statement without declarations leaves the names as they are.
  have unchanged {after : Coupling} (grows : before.Grows setting.survey [] after)
      (plain : statement.declares = []) :
      after.Behind setting.survey (analysis.stmt statement).scopes .normal (.normal, names) := by
    rw [Analysis.scopes_stmt, plain, declaring_nil]
    exact ⟨rfl, stands.follow grows⟩
  cases statement with
  | expression value =>
      apply (agrees.evaluate (setting.survey.contains visited .effect) sound noted
        stands.matching).bind
      rintro middle _ _ grows -
      exact simulates_pure grows.sound (unchanged grows (by rw [Stmt.declares]))
  | print value =>
      apply (agrees.evaluate (setting.survey.contains visited .printed) sound noted
        stands.matching).bind
      rintro middle result _ grows both
      apply (simulates_print grows.sound both).bind
      rintro after _ _ growsOn -
      exact simulates_pure growsOn.sound (unchanged (grows.trans growsOn) (by rw [Stmt.declares]))
  | var name initializer =>
      rw [Analysis.scopes_stmt, Stmt.declares]
      exact simulates_var agrees visited sound noted stands
  | block body =>
      rw [Stmt.declares]
      exact simulates_block agrees visited sound noted stands
  | conditional condition consequent alternative =>
      exact simulates_conditional agrees visited sound noted stands
  | whileLoop condition body => exact simulates_whileLoop agrees visited sound noted stands
  | forLoop initializer condition increment body =>
      cases initializer with
      | none => exact simulates_forLoop agrees visited sound noted stands
      | some clause => exact simulates_initializedLoop agrees visited sound noted stands
  | function declaration =>
      rw [Analysis.scopes_stmt, Stmt.declares]
      exact simulates_function visited sound stands
  | returning keyword value =>
      cases value with
      | none => exact simulates_pure sound ⟨rfl, trivial⟩
      | some value =>
          have checked : (analysis.checkReturn keyword true).scopes = analysis.scopes := by
            rw [(Analysis.passes_checkReturn analysis keyword true).scopes, declaring_nil]
          apply (agrees.evaluate (setting.survey.contains visited .returned) sound noted
            (checked ▸ stands.matching)).bind
          rintro middle result _ grows ⟨rfl, held⟩
          exact simulates_pure grows.sound ⟨rfl, held⟩
  | classDecl name superclass methods =>
      rw [Analysis.scopes_stmt, Stmt.declares]
      exact simulates_classDecl visited sound noted stands

/-! ## Calls -/

theorem simulates_call (agrees : setting.Agrees steps) {closure : Closure}
    {arguments : List Value} {line : Nat}
    (declares : ∃ analysis, before.Declares setting.survey closure analysis)
    (held : ∀ value ∈ arguments, before.Holds setting.survey value)
    (enough : arguments.length = closure.arity) (sound : before.Sound setting.survey)
    (noted : before.machine.distances = setting.distances) :
    Simulates setting.survey [] before
      (Lox.invoke (steps + 1) (.function closure) arguments line)
      (invoke (steps + 1) (.function closure.erased) (arguments.map Value.erased) line)
      (Same setting.survey) := by
  obtain ⟨analysis, declared⟩ := declares
  obtain ⟨body, loose, lists⟩ := declared.lists
  have lexemes : ((closure.declaration.parameters.zip arguments).map
      fun entry => entry.1.lexeme) = closure.declaration.parameters.map Token.lexeme := by
    have all := congrArg (List.map Token.lexeme) (List.map_fst_zip (Nat.le_of_eq enough.symm))
    rwa [List.map_map] at all
  have inside : (analysis.enterFunction closure.declaration body).scopes =
      declaring ((closure.declaration.parameters.zip arguments).map fun entry => entry.1.lexeme)
        (.empty :: analysis.scopes) := by
    rw [Analysis.scopes_enterFunction, lexemes]
  have heldEntries (entry : Token × Value)
      (member : entry ∈ closure.declaration.parameters.zip arguments) :
      before.Holds setting.survey entry.2 := held _ (List.of_mem_zip member).2
  have erased : closure.declaration.parameters.zip (arguments.map Value.erased) =
      (closure.declaration.parameters.zip arguments).map
        fun entry => (entry.1, entry.2.erased) := by
    rw [List.zip_map_right]
    rfl
  -- What the body has come to is the result of the call.
  have ended (after : Coupling) (flow : Flow) (result : Flow × Names)
      (grows : before.Grows setting.survey [] after)
      (both : result.1 = flow.erased ∧
        ∀ value, flow = .returned value → after.Holds setting.survey value) :
      Simulates setting.survey [] after (closure.result flow)
        (Lexical.result closure.erased result.1) (Same setting.survey) := by
    rw [both.1]
    exact simulates_result grows.sound ⟨analysis, declared.grow grows.toExtends⟩ both.2
  have whole := (simulates_body agrees lists inside sound noted declared.matching
    heldEntries).bind ended
  rw [← erased, bind_assoc, bind_assoc] at whole
  apply simulates_look'
  exact whole

theorem simulates_invoke (agrees : setting.Agrees steps) {callable : Callable}
    {arguments : List Value} {line : Nat}
    (held : before.HoldsCallable setting.survey callable)
    (heldArguments : ∀ value ∈ arguments, before.Holds setting.survey value)
    (enough : arguments.length = callable.arity) (sound : before.Sound setting.survey)
    (noted : before.machine.distances = setting.distances) :
    Simulates setting.survey [] before (Lox.invoke (steps + 1) callable arguments line)
      (invoke (steps + 1) callable.erased (arguments.map Value.erased) line)
      (Same setting.survey) := by
  cases callable with
  | native function => exact simulates_callHost sound function arguments _ line
  | function closure => exact simulates_call agrees held heldArguments enough sound noted
  | cls cls =>
      apply (simulates_newInstance sound cls).bind
      rintro opened object _ grows ⟨rfl, rfl⟩
      have heldClass : opened.HoldsClass setting.survey object.cls := held.grow grows.toExtends
      rw [Class.initializer?_erased]
      cases found : object.cls.initializer? with
      | none => exact simulates_pure grows.sound ⟨rfl, heldClass⟩
      | some initializer =>
          apply (simulates_bindMethod grows.sound (heldClass.method found) heldClass).bind
          rintro middle bound _ growsOn ⟨rfl, shape, declares⟩
          have enoughBound : arguments.length = (Callable.function bound).arity := by
            rw [enough]
            simp [Callable.arity, Class.arity, found, Closure.arity, shape]
          have heldNow (value : Value) (inside : value ∈ arguments) :
              middle.Holds setting.survey value :=
            (heldArguments value inside).grow (grows.trans growsOn).toExtends
          have declaresCall : middle.HoldsCallable setting.survey (.function bound) := declares
          apply (agrees.invoke declaresCall heldNow enoughBound growsOn.sound
            ((grows.trans growsOn).distances.trans noted)).bind
          rintro after _ _ growsLast -
          exact simulates_pure growsLast.sound
            ⟨rfl, heldClass.grow (growsOn.trans growsLast).toExtends⟩

/-! ## Whole runs -/

/-- Both sides agree for any number of steps. -/
theorem agrees_all (setting : Setting) (steps : Nat) : setting.Agrees steps := by
  induction steps with
  | zero =>
      constructor
      · exact fun _ sound _ _ => simulates_throw sound
      · exact fun _ sound _ _ => simulates_throw sound
      · exact fun _ _ _ sound _ => simulates_throw sound
  | succ steps ih =>
      constructor
      · exact simulates_evaluate ih
      · exact simulates_execute ih
      · exact simulates_invoke ih

/-- A program does the same on both sides, down to why it halts. -/
theorem simulates_interpret (steps : Nat) {program : List Stmt}
    (lists : setting.survey.Lists program analysis loose) (outside : analysis.scopes = [])
    (sound : before.Sound setting.survey)
    (noted : before.machine.distances = setting.distances)
    (around : before.machine.environment = globalEnvironment) :
    Simulates setting.survey (Stmt.listDeclares program) before (Lox.interpret steps program)
      (interpret steps program) fun _ _ _ => True := by
  induction program generalizing analysis loose before with
  | nil => exact simulates_flush sound
  | cons first rest ih =>
      have stands : before.Stands analysis.scopes none := by
        rw [outside]
        refine ⟨?_, fun _ _ _ _ shape => nomatch shape⟩
        rw [around]
        exact .outside
      apply (((agrees_all setting steps).execute lists.head sound noted stands).weaken
        (List.subset_append_left _ _)).bind
      rintro middle flow result grows -
      have outsideOn : (analysis.stmt first).scopes = [] := by
        rw [Analysis.scopes_stmt, outside]
        rfl
      exact (ih lists.tail outsideOn grows.sound (grows.distances.trans noted)
        (grows.environment.trans around)).weaken (List.subset_append_right _ _)

end Lox.Lexical
