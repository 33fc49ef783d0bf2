import Lox.Proofs.Evaluation.Keeping

/-!
# Running a program keeps the machine sound

Where an expression or statement was visited and the environment fits the scopes
around that visit, evaluation keeps the machine sound. What a statement declares
is bound behind it unless a `return` has left it. Everything goes by induction on
the steps, with expressions, statements and calls together, since each of them
runs the other two.
-/

namespace Lox

open Analysis

variable {survey : Survey} {before after : Machine} {analysis : Analysis}
variable {loose : List (List String)} {steps : Nat}

/-! ## What the three kinds of evaluation keep -/

/-- A flow with a located value, behind statements that lead from one point of the
analysis to another. -/
def Machine.Follows (survey : Survey) (behind : Analysis) (loose : List (List String))
    (machine : Machine) : Flow → Prop
  | .normal => machine.Fits behind.scopes loose
  | .returned value => survey.LocatedValue machine.store value

/-- A flow behind one statement. -/
def Machine.Behind (survey : Survey) (statement : Stmt) (analysis : Analysis)
    (loose : List (List String)) (machine : Machine) (flow : Flow) : Prop :=
  machine.Follows survey (analysis.stmt statement) (passing statement.bareNames loose) flow

/-- Something to call with nothing in it that is not located. -/
def Survey.LocatedCallable (survey : Survey) (store : Store) : Callable → Prop
  | .native _ => True
  | .function closure => survey.Located store closure
  | .cls cls => survey.LocatedClass store cls

theorem Survey.LocatedValue.callable {store : Store} {value : Value} {callable : Callable}
    (located : survey.LocatedValue store value) (found : value.callable? = some callable) :
    survey.LocatedCallable store callable := by
  cases value with
  | native host =>
      cases found
      trivial
  | function closure =>
      cases found
      exact located
  | cls cls =>
      cases found
      exact located
  | nil => cases found
  | bool _ => cases found
  | number _ => cases found
  | string _ => cases found
  | object _ => cases found

/-- Everything that runs within a number of steps keeps the machine sound. -/
structure Survey.Preserves (survey : Survey) (steps : Nat) : Prop where
  evaluate : ∀ {value : Expr} {analysis : Analysis} {loose : List (List String)}
      {before : Machine},
    survey.visited ⟨.expr value, analysis, loose⟩ → before.Sound survey →
    before.Fits analysis.scopes loose →
    (evaluate steps value).Keeps survey before fun after result =>
      survey.LocatedValue after.store result
  execute : ∀ {statement : Stmt} {analysis : Analysis} {loose : List (List String)}
      {before : Machine},
    survey.visited ⟨.stmt statement, analysis, loose⟩ → before.Sound survey →
    before.Fits analysis.scopes loose →
    (execute steps statement).Keeps survey before fun after flow =>
      after.Behind survey statement analysis loose flow
  invoke : ∀ {callable : Callable} {arguments : List Value} {line : Nat} {before : Machine},
    survey.LocatedCallable before.store callable →
    (∀ value ∈ arguments, survey.LocatedValue before.store value) →
    arguments.length = callable.arity → before.Sound survey →
    (invoke steps callable arguments line).Keeps survey before fun after result =>
      survey.LocatedValue after.store result

/-! ## Functions and classes -/

/-- Binding a method puts it into a scope that holds its object. -/
theorem keeps_bindMethod (sound : before.Sound survey) {method : Closure} {object : Instance}
    (located : survey.LocatedMethod before.store method)
    (receiver : survey.LocatedClass before.store object.cls) :
    (method.bind object).Keeps survey before fun after bound =>
      bound.declaration = method.declaration ∧ survey.Located after.store bound := by
  obtain ⟨analysis, body, outer, loose, lists, scopes, fits⟩ := located
  have held : survey.LocatedValue before.store (.object object) := receiver
  apply (Run.keeps_newScope_single "this" sound fits held).bind
  intro middle environment grows inside
  apply (Run.keeps_newIdentity grows.sound).bind
  intro last identity growsOn _
  apply Run.keeps_pure growsOn.sound
  refine ⟨rfl, analysis, body, [] :: loose, lists, ?_⟩
  rw [scopes]
  exact inside.grow growsOn.store

theorem keeps_property (sound : before.Sound survey) {object : Instance}
    (located : survey.LocatedClass before.store object.cls) (name : Token) :
    (object.property name).Keeps survey before fun after value =>
      survey.LocatedValue after.store value := by
  apply (Run.keeps_get sound).bind
  rintro _ _ _ ⟨rfl, rfl⟩
  cases held : (before.store.fieldsOf object.reference).get? name.lexeme with
  | some value => exact Run.keeps_pure sound (sound.fielded _ _ _ held)
  | none =>
      have found : (Run.orFail (object.cls.method? name.lexeme) (.propertyAt name)).Keeps survey
          before fun after method => before = after ∧ survey.LocatedMethod before.store method :=
        Run.keeps_orFail sound fun method found => ⟨rfl, located.method found⟩
      apply found.bind
      rintro _ method _ ⟨rfl, methodLocated⟩
      apply (keeps_bindMethod sound methodLocated located).bind
      intro after bound grows boundLocated
      exact Run.keeps_pure grows.sound boundLocated.2

theorem keeps_superMethod (sound : before.Sound survey) (reference : Reference)
    (method : Token) :
    (superMethod reference method).Keeps survey before fun after value =>
      survey.LocatedValue after.store value := by
  apply (Run.keeps_get sound).bind
  rintro _ _ _ ⟨rfl, rfl⟩
  have looked : (Run.orFail (before.distances.get? reference.id)
      (.variableAt reference.name)).Keeps survey before fun after _ => before = after :=
    Run.keeps_orFail sound fun _ _ => rfl
  apply looked.bind
  rintro _ distance _ rfl
  split
  · next superclass heldClass =>
      have classLocated : survey.LocatedClass before.store superclass :=
        Run.located_lookupAt sound heldClass
      have receiverLocated (outward : Nat) (object : Instance)
          (held : before.environment.lookupAt? before.store outward "this" =
            some (.object object)) : survey.LocatedClass before.store object.cls :=
        Run.located_lookupAt sound held
      simp only
      split
      · next object heldObject =>
          have objectLocated : survey.LocatedClass before.store object.cls := by
            cases distance with
            | zero => cases heldObject
            | succ outward => exact receiverLocated outward object heldObject
          have found : (Run.orFail (superclass.method? method.lexeme) (.propertyAt method)).Keeps
              survey before fun after found =>
                before = after ∧ survey.LocatedMethod before.store found :=
            Run.keeps_orFail sound fun found here => ⟨rfl, classLocated.method here⟩
          apply found.bind
          rintro _ found _ ⟨rfl, foundLocated⟩
          apply (keeps_bindMethod sound foundLocated objectLocated).bind
          intro after bound grows boundLocated
          exact Run.keeps_pure grows.sound boundLocated.2
      · exact Run.keeps_fail sound
  · exact Run.keeps_fail sound

/-- A declaration of a method whose body is visited inside scopes for its
receiver. -/
def Survey.VisitsMethod (survey : Survey) (outer : List (Bindings Readiness))
    (loose : List (List String)) (declaration : FunctionDecl) : Prop :=
  ∃ (analysis : Analysis) (body : Body),
    survey.Lists declaration.body (analysis.enterFunction declaration body)
        ([] :: [] :: loose) ∧
      analysis.scopes = Bindings.empty.set "this" .ready :: outer

/-- The bodies of the methods of a class are visited inside the scopes that the
class opens. -/
theorem visitsMethod_of_class {name : Token} {superclass : Option Expr}
    {methods : List FunctionDecl}
    (visited : survey.visited ⟨.stmt (.classDecl name superclass methods), analysis, loose⟩) :
    ∀ method ∈ methods, survey.VisitsMethod
      ((receiverScopes superclass).tail ++ declaring [name.lexeme] analysis.scopes)
      ((receiverScopes superclass).tail.map (fun _ => []) ++ loose) method := by
  intro method inside
  obtain ⟨earlier, later, rfl⟩ := List.append_of_mem inside
  refine ⟨methodBodies earlier (analysis.enterClass name superclass),
    methodBody method.name.lexeme, ?_, ?_⟩
  · intro front statement back shape
    have inside := survey.contains visited (.methodBody shape)
    cases superclass <;> exact inside
  · rw [scopes_methodBodies, (enterClass_passes analysis name superclass).2.1]
    cases superclass <;> rfl

theorem keeps_declareMethods {outer : List (Bindings Readiness)} {methods : List FunctionDecl}
    (visits : ∀ method ∈ methods, survey.VisitsMethod outer loose method)
    {members : Bindings Closure} (sound : before.Sound survey) (fits : before.Fits outer loose)
    (located : ∀ name method, members.get? name = some method →
      survey.LocatedMethod before.store method) :
    (declareMethods methods members).Keeps survey before fun after members =>
      ∀ name method, members.get? name = some method →
        survey.LocatedMethod after.store method := by
  induction methods generalizing before members with
  | nil => exact Run.keeps_pure sound located
  | cons declaration rest ih =>
      obtain ⟨analysis, body, lists, scopes⟩ := visits declaration (List.mem_cons_self ..)
      have declared : (Closure.declare declaration
          (declaration.name.lexeme = Class.initializerName)).Keeps survey before
          fun after method => survey.LocatedMethod after.store method := by
        apply (Run.keeps_newIdentity sound).bind
        intro middle identity grows _
        apply (Run.keeps_get grows.sound).bind
        rintro _ _ _ ⟨rfl, rfl⟩
        apply Run.keeps_pure grows.sound
        exact ⟨analysis, body, outer, loose, lists, scopes, fits.grow grows⟩
      apply declared.bind
      intro middle method grows methodLocated
      apply ih _ grows.sound (fits.grow grows)
      · intro other found held
        rw [Bindings.get?_set] at held
        split at held
        · cases held
          exact methodLocated
        · exact (located other found held).grow grows.store
      · exact fun method inside => visits method (List.mem_cons_of_mem _ inside)

/-- Declaring a class whose superclass is known binds its name to a class with
located methods. -/
theorem keeps_declareClass {name : Token} {superclass : Option Expr} {found : Option Class}
    {methods : List FunctionDecl}
    (visited : survey.visited ⟨.stmt (.classDecl name superclass methods), analysis, loose⟩)
    (same : found.isSome = superclass.isSome) (sound : before.Sound survey)
    (fits : before.Fits analysis.scopes loose)
    (inherited : ∀ cls, found = some cls → survey.LocatedClass before.store cls) :
    (declareClass name found methods).Keeps survey before fun after _ =>
      after.Fits (declaring [name.lexeme] analysis.scopes) loose := by
  have ordinary : IsOrdinaryName name.lexeme := (survey.placed visited).1
  apply (Run.keeps_define sound fits ordinary .nil fun _ _ _ => trivial).bind
  intro middle _ grows fitsName
  apply (Run.keeps_get grows.sound).bind
  rintro _ _ _ ⟨rfl, rfl⟩
  have entered : (methodEnvironment middle.environment found).Keeps survey middle
      fun after environment => Environment.Fits after.store
        ((receiverScopes superclass).tail ++ declaring [name.lexeme] analysis.scopes)
        ((receiverScopes superclass).tail.map (fun _ => []) ++ loose) environment := by
    cases found with
    | none =>
        cases superclass with
        | none => exact Run.keeps_pure grows.sound fitsName
        | some _ => cases same
    | some cls =>
        cases superclass with
        | none => cases same
        | some _ =>
            have held : survey.LocatedValue middle.store (.cls cls) :=
              (inherited cls rfl).grow grows.store
            exact Run.keeps_newScope_single "super" grows.sound fitsName held
  apply entered.bind
  intro inside environment growsOn fitsInside
  have declared : (Run.within environment (declareMethods methods .empty)).Keeps survey inside
      fun after members => ∀ name method, members.get? name = some method →
        survey.LocatedMethod after.store method :=
    Run.keeps_within (keeps_declareMethods (visitsMethod_of_class visited)
      (growsOn.sound.of_eq rfl rfl) fitsInside (by simp))
  apply declared.bind
  intro defined members growsDeclared membersLocated
  apply (Run.keeps_newIdentity growsDeclared.sound).bind
  intro last identity growsLast _
  have growsAll := (growsOn.trans growsDeclared).trans growsLast
  have located (store : Store) (growth : last.store.Extends store) :
      survey.LocatedClass store (.extend ⟨identity, name.lexeme, members⟩ found) := by
    intro layer inside text method held
    have own (here : members.get? text = some method) : survey.LocatedMethod store method :=
      ((membersLocated text method here).grow growsLast.store).grow growth
    cases found with
    | none =>
        obtain rfl := List.mem_singleton.mp inside
        exact own held
    | some cls =>
        rcases List.mem_cons.mp inside with rfl | outer
        · exact own held
        · have above := (inherited cls rfl).grow (grows.trans growsAll).store
          exact (above layer outer text method held).grow growth
  have bound := Run.keeps_define growsLast.sound (fitsName.grow growsAll) ordinary
    (.cls (.extend ⟨identity, name.lexeme, members⟩ found))
      fun store growth _ => located store growth
  rw [declaring_twice] at bound
  exact bound

/-! ## Lists -/

/-- Arguments are evaluated one after another. -/
theorem keeps_collect (preserves : survey.Preserves steps) {values : List Expr}
    (visited : ∀ front value back, values = front ++ value :: back →
      survey.visited ⟨.expr value, analysis.exprs front, loose⟩)
    (sound : before.Sound survey) (fits : before.Fits analysis.scopes loose) :
    (Run.collect (evaluate steps) values).Keeps survey before fun after results =>
      ∀ result ∈ results, survey.LocatedValue after.store result := by
  induction values generalizing analysis before with
  | nil => exact Run.keeps_pure sound (by simp)
  | cons first rest ih =>
      have head := visited [] first rest rfl
      apply (preserves.evaluate head sound fits).bind
      intro middle value grows valueLocated
      have restVisited (front : List Expr) (value : Expr) (back : List Expr)
          (shape : rest = front ++ value :: back) :
          survey.visited ⟨.expr value, (analysis.expr first).exprs front, loose⟩ := by
        exact visited (first :: front) value back (by rw [shape, List.cons_append])
      have restFits : middle.Fits (analysis.expr first).scopes loose := by
        rw [scopes_expr]
        exact fits.grow grows
      apply (ih restVisited grows.sound restFits).bind
      intro after values growsOn located
      apply Run.keeps_pure growsOn.sound
      intro result inside
      rcases List.mem_cons.mp inside with rfl | later
      · exact valueLocated.grow growsOn.store
      · exact located result later

/-- Statements run one after another, each in the scopes that those before it
have left. -/
theorem keeps_sequence (preserves : survey.Preserves steps) {statements : List Stmt}
    (lists : survey.Lists statements analysis loose) (sound : before.Sound survey)
    (fits : before.Fits analysis.scopes loose) :
    (Flow.sequence (execute steps) statements).Keeps survey before fun after flow =>
      after.Follows survey (analysis.stmts statements)
        (passing (Stmt.listBareNames statements) loose) flow := by
  induction statements generalizing analysis loose before with
  | nil =>
      apply Run.keeps_pure sound
      rw [Analysis.stmts, Stmt.listBareNames, List.flatMap_nil, passing_nil]
      exact fits
  | cons first rest ih =>
      apply (preserves.execute lists.head sound fits).bind
      intro middle flow grows follows
      cases flow with
      | returned value => exact Run.keeps_pure grows.sound follows
      | normal =>
          rw [Analysis.stmts, Stmt.listBareNames, List.flatMap_cons, passing_append]
          exact ih lists.tail grows.sound follows

/-- A flow with a located value, if it has one. -/
def Survey.LocatedFlow (survey : Survey) (store : Store) : Flow → Prop
  | .normal => True
  | .returned value => survey.LocatedValue store value

/-- Statements that run in an environment of their own. -/
theorem keeps_body (preserves : survey.Preserves steps) {statements : List Stmt}
    {environment : Environment} (lists : survey.Lists statements analysis loose)
    (sound : before.Sound survey)
    (fits : Environment.Fits before.store analysis.scopes loose environment) :
    (Run.within environment (Flow.sequence (execute steps) statements)).Keeps survey before
      fun after flow => survey.LocatedFlow after.store flow := by
  apply Run.keeps_within
  have inside : Machine.Sound survey { before with environment := environment } :=
    sound.of_eq rfl rfl
  apply (keeps_sequence preserves lists inside fits).imp
  intro after flow _ _ follows
  cases flow with
  | normal => trivial
  | returned value => exact follows

/-! ## Expressions -/

/-- The arguments of a call in front of one of them. -/
theorem visited_argument {callee : Expr} {paren : Token} {arguments : List Expr}
    (visited : survey.visited ⟨.expr (.call callee paren arguments), analysis, loose⟩) :
    ∀ front value back, arguments = front ++ value :: back →
      survey.visited ⟨.expr value, (analysis.expr callee).exprs front, loose⟩ := by
  intro front value back shape
  subst shape
  exact survey.contains visited .argument

theorem keeps_evaluate (preserves : survey.Preserves steps) {value : Expr}
    (visited : survey.visited ⟨.expr value, analysis, loose⟩) (sound : before.Sound survey)
    (fits : before.Fits analysis.scopes loose) :
    (evaluate (steps + 1) value).Keeps survey before fun after result =>
      survey.LocatedValue after.store result := by
  cases value with
  | literal literal =>
      exact Run.keeps_pure sound (Value.IsPlain.located (isPlain_literal literal) _)
  | grouping inner => exact preserves.evaluate (survey.contains visited .grouping) sound fits
  | unary operator operand =>
      apply (preserves.evaluate (survey.contains visited .operand) sound fits).bind
      intro middle value grows _
      exact Run.keeps_ofOperator grows.sound operator fun _ computed =>
        (isPlain_unary computed).located _
  | binary left operator right =>
      apply (preserves.evaluate (survey.contains visited .left) sound fits).bind
      intro middle one grows _
      have fitsRight : middle.Fits (analysis.expr left).scopes loose := by
        rw [scopes_expr]
        exact fits.grow grows
      apply (preserves.evaluate (survey.contains visited .right) grows.sound fitsRight).bind
      intro after other growsOn _
      exact Run.keeps_ofOperator growsOn.sound operator fun _ computed =>
        (isPlain_binary computed).located _
  | logical left operator right =>
      apply (preserves.evaluate (survey.contains visited .logicalLeft) sound fits).bind
      intro middle one grows located
      split
      · exact Run.keeps_pure grows.sound located
      · have fitsRight : middle.Fits (analysis.expr left).scopes loose := by
          rw [scopes_expr]
          exact fits.grow grows
        exact preserves.evaluate (survey.contains visited .logicalRight) grows.sound fitsRight
  | «variable» reference => exact Run.keeps_read sound reference
  | assign reference value =>
      apply (preserves.evaluate (survey.contains visited .assigned) sound fits).bind
      intro middle result grows located
      apply (Run.keeps_write grows.sound (survey.placed visited).1 located).bind
      intro after _ growsOn _
      exact Run.keeps_pure growsOn.sound (located.grow growsOn.store)
  | call callee paren arguments =>
      apply (preserves.evaluate (survey.contains visited .callee) sound fits).bind
      intro middle function grows functionLocated
      have fitsArguments : middle.Fits (analysis.expr callee).scopes loose := by
        rw [scopes_expr]
        exact fits.grow grows
      apply (keeps_collect preserves (visited_argument visited) grows.sound fitsArguments).bind
      intro after values growsOn valuesLocated
      cases found : function.callable? with
      | none => exact Run.keeps_fail growsOn.sound
      | some callable =>
          simp only
          split
          · next enough =>
              have located := (functionLocated.grow growsOn.store).callable found
              exact preserves.invoke located valuesLocated enough growsOn.sound
          · exact Run.keeps_fail growsOn.sound
  | get object name =>
      apply (preserves.evaluate (survey.contains visited .object) sound fits).bind
      intro middle value grows located
      cases value with
      | object found => exact keeps_property grows.sound located name
      | _ => exact Run.keeps_fail grows.sound
  | set object name value =>
      have fitsObject : before.Fits (analysis.expr value).scopes loose := by
        rwa [scopes_expr]
      apply (preserves.evaluate (survey.contains visited .changed) sound fitsObject).bind
      intro middle target grows located
      cases target with
      | object found =>
          apply (preserves.evaluate (survey.contains visited .stored) grows.sound
            (fits.grow grows)).bind
          intro after result growsOn resultLocated
          apply (Run.keeps_setProperty growsOn.sound found name resultLocated).bind
          intro last _ growsLast _
          exact Run.keeps_pure growsLast.sound (resultLocated.grow growsLast.store)
      | _ => exact Run.keeps_fail grows.sound
  | this reference => exact Run.keeps_read sound reference
  | super reference method => exact keeps_superMethod sound reference method

/-! ## Statements -/

/-- Names that a part may leave out are not counted on behind it. -/
theorem Machine.Behind.of_bare {statement : Stmt} (fits : after.Fits analysis.scopes loose)
    (all : statement.declares = statement.bareNames) :
    after.Behind survey statement analysis loose .normal := by
  unfold Behind Follows Fits
  rw [scopes_stmt, all]
  exact Environment.Fits.passing fits _

/-- Behind a declaration that stands in a list, its name is bound. -/
theorem Machine.Behind.of_declared {statement : Stmt}
    (fits : after.Fits (declaring statement.declares analysis.scopes) loose)
    (none : statement.bareNames = []) :
    after.Behind survey statement analysis loose .normal := by
  unfold Behind Follows
  rw [scopes_stmt, none, passing_nil]
  exact fits

/-- The first clause of a loop does not leave the function around it. -/
theorem flow_of_clause {clause : Stmt} {flow : Flow}
    (placed : Stmt.ClausePlaced (some clause))
    (ran : execute steps clause before = .ok flow after) : flow = .normal := by
  cases steps with
  | zero => cases ran
  | succ steps =>
      rcases placed.1 with ⟨name, initializer, rfl⟩ | ⟨value, rfl⟩
      · cases initializer with
        | none =>
            obtain ⟨_, _, _, returned⟩ := Run.bind_ok.mp ran
            cases returned
            rfl
        | some value =>
            obtain ⟨_, _, _, rest⟩ := Run.bind_ok.mp ran
            obtain ⟨_, _, _, returned⟩ := Run.bind_ok.mp rest
            cases returned
            rfl
      · obtain ⟨_, _, _, returned⟩ := Run.bind_ok.mp ran
        cases returned
        rfl

theorem bareNames_of_clause {clause : Stmt} (placed : Stmt.ClausePlaced (some clause)) :
    clause.bareNames = [] := by
  rcases placed.1 with ⟨name, initializer, rfl⟩ | ⟨value, rfl⟩
  · rfl
  · rfl

/-- Evaluating the name of a superclass needs no environment that fits. -/
theorem keeps_name (reference : Reference) (sound : before.Sound survey) :
    (evaluate steps (.variable reference)).Keeps survey before fun after result =>
      survey.LocatedValue after.store result := by
  cases steps with
  | zero => exact Run.keeps_throw sound
  | succ steps => exact Run.keeps_read sound reference

theorem keeps_superclassOf (name : Token) (superclass : Expr) {value : Value}
    (sound : before.Sound survey) (located : survey.LocatedValue before.store value) :
    (superclassOf name superclass value).Keeps survey before fun after cls =>
      survey.LocatedClass after.store cls := by
  cases value with
  | cls found => exact Run.keeps_pure sound located
  | _ => exact Run.keeps_fail sound

/-- A loop goes on only after its condition has been evaluated. -/
theorem keeps_goesOn (preserves : survey.Preserves steps) {condition : Option Expr}
    (visited : ∀ value, condition = some value → survey.visited ⟨.expr value, analysis, loose⟩)
    (sound : before.Sound survey) (fits : before.Fits analysis.scopes loose) :
    (Run.goesOn (evaluate steps) condition).Keeps survey before fun _ _ => True := by
  cases condition with
  | none => exact Run.keeps_pure sound trivial
  | some value =>
      apply (preserves.evaluate (visited value rfl) sound fits).bind
      intro middle result grows _
      exact Run.keeps_pure grows.sound trivial

theorem keeps_block (preserves : survey.Preserves steps) {body : List Stmt}
    (visited : survey.visited ⟨.stmt (.block body), analysis, loose⟩) (sound : before.Sound survey)
    (fits : before.Fits analysis.scopes loose) :
    (execute (steps + 1) (.block body)).Keeps survey before fun after flow =>
      after.Behind survey (.block body) analysis loose flow := by
  have lists : survey.Lists body analysis.openScope ([] :: loose) := by
    intro front statement back shape
    subst shape
    exact survey.contains visited .member
  apply (Run.keeps_get sound).bind
  rintro _ _ _ ⟨rfl, rfl⟩
  have entered := Run.keeps_newScope .empty .empty sound fits (by simp) (by simp) (by simp)
  apply entered.bind
  intro middle environment grows inside
  apply (keeps_body preserves lists grows.sound inside).imp
  intro after flow _ growsOn located
  cases flow with
  | returned value => exact located
  | normal =>
      apply Machine.Behind.of_declared _ rfl
      rw [Stmt.declares, declaring_nil]
      exact (fits.grow grows).grow growsOn

theorem keeps_whileLoop (preserves : survey.Preserves steps) {condition : Expr} {body : Stmt}
    (visited : survey.visited ⟨.stmt (.whileLoop condition body), analysis, loose⟩)
    (sound : before.Sound survey) (fits : before.Fits analysis.scopes loose) :
    (execute (steps + 1) (.whileLoop condition body)).Keeps survey before fun after flow =>
      after.Behind survey (.whileLoop condition body) analysis loose flow := by
  apply (preserves.evaluate (survey.contains visited .whileCondition) sound fits).bind
  intro middle value grows _
  split
  · have fitsBody : middle.Fits (analysis.expr condition).scopes loose := by
      rw [scopes_expr]
      exact fits.grow grows
    apply (preserves.execute (survey.contains visited .whileBody) grows.sound fitsBody).bind
    intro after flow growsOn follows
    cases flow with
    | returned value => exact Run.keeps_pure growsOn.sound follows
    | normal =>
        exact preserves.execute visited growsOn.sound ((fits.grow grows).grow growsOn)
  · apply Run.keeps_pure grows.sound
    exact .of_bare (fits.grow grows) rfl

theorem keeps_forLoop (preserves : survey.Preserves steps) {condition increment : Option Expr}
    {body : Stmt}
    (visited : survey.visited ⟨.stmt (.forLoop none condition increment body), analysis, loose⟩)
    (sound : before.Sound survey) (fits : before.Fits analysis.scopes loose) :
    (execute (steps + 1) (.forLoop none condition increment body)).Keeps survey before
      fun after flow =>
        after.Behind survey (.forLoop none condition increment body) analysis loose flow := by
  have conditionVisited (value : Expr) (given : condition = some value) :
      survey.visited ⟨.expr value, analysis, loose⟩ := by
    subst given
    exact survey.contains visited .forCondition
  apply (keeps_goesOn preserves conditionVisited sound fits).bind
  intro middle goesOn grows _
  split
  · have fitsBody : middle.Fits
        (optionalExpr increment (optionalExpr condition analysis)).scopes loose := by
      simpa using fits.grow grows
    apply (preserves.execute (survey.contains visited .forBody) grows.sound fitsBody).bind
    intro after flow growsOn follows
    have fitsAgain := (fits.grow grows).grow growsOn
    cases flow with
    | returned value => exact Run.keeps_pure growsOn.sound follows
    | normal =>
        cases increment with
        | none => exact preserves.execute visited growsOn.sound fitsAgain
        | some value =>
            have fitsIncrement : after.Fits (optionalExpr condition analysis).scopes loose := by
              simpa using fitsAgain
            apply (preserves.evaluate (survey.contains visited .forIncrement) growsOn.sound
              fitsIncrement).bind
            intro last _ growsLast _
            exact preserves.execute visited growsLast.sound (fitsAgain.grow growsLast)
  · apply Run.keeps_pure grows.sound
    exact .of_bare (fits.grow grows) rfl

theorem keeps_function {declaration : FunctionDecl}
    (visited : survey.visited ⟨.stmt (.function declaration), analysis, loose⟩)
    (sound : before.Sound survey) (fits : before.Fits analysis.scopes loose) :
    (execute (steps + 1) (.function declaration)).Keeps survey before fun after flow =>
      after.Behind survey (.function declaration) analysis loose flow := by
  have declared : (Closure.declare declaration false).Keeps survey before fun after closure =>
      closure.declaration = declaration ∧ closure.environment = after.environment := by
    apply (Run.keeps_newIdentity sound).bind
    intro middle identity grows _
    apply (Run.keeps_get grows.sound).bind
    rintro _ _ _ ⟨rfl, rfl⟩
    exact Run.keeps_pure grows.sound ⟨rfl, rfl⟩
  apply declared.bind
  rintro middle closure grows ⟨same, captured⟩
  have bound := Run.keeps_define grows.sound (fits.grow grows) (survey.placed visited).name
    (.function closure) (by
      intro store _ fitsName
      refine ⟨analysis.introduce declaration.name, .function, loose, ?_, ?_⟩
      · intro front statement back shape
        rw [same] at shape ⊢
        exact survey.contains visited (.functionBody shape)
      · rw [(passes_introduce analysis declaration.name).scopes, captured]
        exact fitsName)
  apply bound.bind
  intro after _ growsOn fitsName
  exact Run.keeps_pure growsOn.sound (.of_declared fitsName rfl)

theorem keeps_var (preserves : survey.Preserves steps) {name : Token} {initializer : Option Expr}
    (visited : survey.visited ⟨.stmt (.var name initializer), analysis, loose⟩)
    (sound : before.Sound survey) (fits : before.Fits analysis.scopes loose) :
    (execute (steps + 1) (.var name initializer)).Keeps survey before fun after flow =>
      after.Behind survey (.var name initializer) analysis loose flow := by
  -- What is behind the declaration, once the name has a value.
  have bound {middle : Machine} (grows : before.Grows survey middle) (value : Value)
      (located : survey.LocatedValue middle.store value) :
      (do Run.define name.lexeme value; return .normal : Run Flow).Keeps survey middle
        fun after flow => after.Behind survey (.var name initializer) analysis loose flow := by
    apply (Run.keeps_define grows.sound (fits.grow grows) (survey.placed visited).1 value
      fun _ growth _ => located.grow growth).bind
    intro after _ growsOn fitsName
    exact Run.keeps_pure growsOn.sound (.of_declared fitsName rfl)
  cases initializer with
  | none => exact bound sound.grows .nil trivial
  | some value =>
      have pending : before.Fits (analysis.declare name).scopes loose :=
        Environment.Fits.pending fits name
      apply (preserves.evaluate (survey.contains visited .initializer) sound pending).bind
      intro middle result grows located
      exact bound grows result located

theorem keeps_conditional (preserves : survey.Preserves steps) {condition : Expr}
    {consequent : Stmt} {alternative : Option Stmt}
    (visited :
      survey.visited ⟨.stmt (.conditional condition consequent alternative), analysis, loose⟩)
    (sound : before.Sound survey) (fits : before.Fits analysis.scopes loose) :
    (execute (steps + 1) (.conditional condition consequent alternative)).Keeps survey before
      fun after flow =>
        after.Behind survey (.conditional condition consequent alternative) analysis loose
          flow := by
  apply (preserves.evaluate (survey.contains visited .condition) sound fits).bind
  intro middle value grows _
  have leave {after : Machine} (growsOn : middle.Grows survey after) :
      after.Behind survey (.conditional condition consequent alternative) analysis loose .normal :=
    .of_bare ((fits.grow grows).grow growsOn) rfl
  have fitsBranch : middle.Fits (analysis.expr condition).scopes loose := by
    rw [scopes_expr]
    exact fits.grow grows
  split
  · apply (preserves.execute (survey.contains visited .consequent) grows.sound fitsBranch).imp
    intro after flow _ growsOn follows
    cases flow with
    | normal => exact leave growsOn
    | returned value => exact follows
  · cases alternative with
    | none => exact Run.keeps_pure grows.sound (leave grows.sound.grows)
    | some other =>
        -- The other branch was analysed behind the one that is left out.
        have fitsOther : middle.Fits ((analysis.expr condition).stmt consequent).scopes
            (passing consequent.declares loose) := by
          rw [scopes_stmt]
          exact Environment.Fits.passing fitsBranch _
        apply (preserves.execute (survey.contains visited .alternative) grows.sound fitsOther).imp
        intro after flow _ growsOn follows
        cases flow with
        | normal => exact leave growsOn
        | returned value => exact follows

/-- A loop with a first clause goes on as the loop without it. -/
theorem keeps_initializedLoop (preserves : survey.Preserves steps) {clause : Stmt}
    {condition increment : Option Expr} {body : Stmt}
    (visited :
      survey.visited ⟨.stmt (.forLoop (some clause) condition increment body), analysis, loose⟩)
    (sound : before.Sound survey) (fits : before.Fits analysis.scopes loose) :
    (execute (steps + 1) (.forLoop (some clause) condition increment body)).Keeps survey before
      fun after flow =>
        after.Behind survey (.forLoop (some clause) condition increment body) analysis loose
          flow := by
  have started := (preserves.execute (survey.contains visited .forInitializer) sound fits).imp
    fun middle flow ran _ follows =>
      And.intro (flow_of_clause (survey.placed visited).1 ran) follows
  apply started.bind
  rintro middle _ grows ⟨rfl, follows⟩
  unfold Machine.Behind Machine.Follows at follows
  rw [bareNames_of_clause (survey.placed visited).1, passing_nil] at follows
  apply (preserves.execute (survey.contains visited .forRest) grows.sound follows).imp
  intro after flow _ _ follows
  cases flow with
  | returned value => exact follows
  | normal =>
      unfold Machine.Behind Machine.Follows at follows ⊢
      rw [stmt] at follows ⊢
      exact follows

theorem keeps_classDecl {name : Token} {superclass : Option Expr} {methods : List FunctionDecl}
    (visited : survey.visited ⟨.stmt (.classDecl name superclass methods), analysis, loose⟩)
    (sound : before.Sound survey) (fits : before.Fits analysis.scopes loose) :
    (execute (steps + 1) (.classDecl name superclass methods)).Keeps survey before
      fun after flow =>
        after.Behind survey (.classDecl name superclass methods) analysis loose flow := by
  -- What is behind the declaration, once the superclass is known.
  have bound {middle : Machine} (grows : before.Grows survey middle) (found : Option Class)
      (same : found.isSome = superclass.isSome)
      (inherited : ∀ cls, found = some cls → survey.LocatedClass middle.store cls) :
      (do declareClass name found methods; return .normal : Run Flow).Keeps survey middle
        fun after flow =>
          after.Behind survey (.classDecl name superclass methods) analysis loose flow := by
    apply (keeps_declareClass visited same grows.sound (fits.grow grows) inherited).bind
    intro after _ growsOn fitsName
    exact Run.keeps_pure growsOn.sound (.of_declared fitsName rfl)
  cases superclass with
  | none => exact bound sound.grows none rfl (by simp)
  | some value =>
      obtain ⟨reference, rfl⟩ := (survey.placed visited).2.1
      apply (keeps_name reference sound).bind
      intro middle result grows located
      apply (keeps_superclassOf name _ grows.sound located).bind
      intro after cls growsOn inherited
      apply bound (grows.trans growsOn) (some cls) rfl
      rintro _ ⟨⟩
      exact inherited

theorem keeps_execute (preserves : survey.Preserves steps) {statement : Stmt}
    (visited : survey.visited ⟨.stmt statement, analysis, loose⟩) (sound : before.Sound survey)
    (fits : before.Fits analysis.scopes loose) :
    (execute (steps + 1) statement).Keeps survey before fun after flow =>
      after.Behind survey statement analysis loose flow := by
  -- A statement without declarations leaves the scopes as they are.
  have unchanged {after : Machine} (grows : before.Grows survey after)
      (plain : statement.declares = [])
      (bare : statement.bareNames = []) : after.Behind survey statement analysis loose .normal := by
    unfold Machine.Behind Machine.Follows
    rw [scopes_stmt, plain, declaring_nil, bare, passing_nil]
    exact fits.grow grows
  cases statement with
  | expression value =>
      apply (preserves.evaluate (survey.contains visited .effect) sound fits).bind
      intro middle _ grows _
      exact Run.keeps_pure grows.sound (unchanged grows rfl rfl)
  | print value =>
      apply (preserves.evaluate (survey.contains visited .printed) sound fits).bind
      intro middle result grows _
      apply (Run.keeps_print grows.sound result).bind
      intro after _ growsOn _
      exact Run.keeps_pure growsOn.sound (unchanged (grows.trans growsOn) rfl rfl)
  | var name initializer => exact keeps_var preserves visited sound fits
  | block body => exact keeps_block preserves visited sound fits
  | conditional condition consequent alternative =>
      exact keeps_conditional preserves visited sound fits
  | whileLoop condition body => exact keeps_whileLoop preserves visited sound fits
  | forLoop initializer condition increment body =>
      cases initializer with
      | none => exact keeps_forLoop preserves visited sound fits
      | some clause => exact keeps_initializedLoop preserves visited sound fits
  | function declaration => exact keeps_function visited sound fits
  | returning keyword value =>
      cases value with
      | none => exact Run.keeps_pure sound trivial
      | some value =>
          have checked : before.Fits (analysis.checkReturn keyword true).scopes loose := by
            rw [(passes_checkReturn analysis keyword true).scopes, declaring_nil]
            exact fits
          apply (preserves.evaluate (survey.contains visited .returned) sound checked).bind
          intro middle result grows located
          exact Run.keeps_pure grows.sound located
  | classDecl name superclass methods => exact keeps_classDecl visited sound fits

/-! ## Calls -/

theorem keeps_result (closure : Closure) (flow : Flow) (sound : before.Sound survey)
    (located : survey.LocatedFlow before.store flow) :
    (closure.result flow).Keeps survey before fun after result =>
      survey.LocatedValue after.store result := by
  unfold Closure.result
  split
  · apply (Run.keeps_get sound).bind
    rintro _ _ _ ⟨rfl, rfl⟩
    exact Run.keeps_orFail sound fun _ found => Run.located_lookupAt sound found
  · cases flow with
    | returned value => exact Run.keeps_pure sound located
    | normal => exact Run.keeps_pure sound trivial

/-- With an argument for every parameter, every parameter is bound. -/
theorem contains_parameterBindings {closure : Closure} {arguments : List Value}
    (enough : arguments.length = closure.arity) {name : String}
    (parameter : name ∈ closure.declaration.parameters.map Token.lexeme) :
    (closure.parameterBindings arguments).contains name = true := by
  have kept (entries : List (Token × Value)) (bindings : Bindings Value)
      (bound : bindings.contains name = true) :
      (entries.foldl (fun bindings entry => bindings.set entry.1.lexeme entry.2)
        bindings).contains name = true := by
    induction entries generalizing bindings with
    | nil => exact bound
    | cons entry rest ih =>
        apply ih
        rw [Bindings.contains_set, bound, Bool.or_true]
  have added (parameters : List Token) (arguments : List Value)
      (enough : arguments.length = parameters.length)
      (parameter : name ∈ parameters.map Token.lexeme) (bindings : Bindings Value) :
      ((parameters.zip arguments).foldl (fun bindings entry =>
        bindings.set entry.1.lexeme entry.2) bindings).contains name = true := by
    induction parameters generalizing arguments bindings with
    | nil => cases parameter
    | cons first rest ih =>
        cases arguments with
        | nil => cases enough
        | cons value values =>
            rw [List.map_cons, List.mem_cons] at parameter
            rcases parameter with here | later
            · apply kept (rest.zip values) (bindings.set first.lexeme value)
              rw [Bindings.contains_set]
              simp [here]
            · exact ih values (Nat.succ.inj enough) later _
  exact added _ arguments enough parameter .empty

/-- Nothing but parameters is bound. -/
theorem mem_of_contains_parameterBindings {closure : Closure} {arguments : List Value}
    {name : String} (bound : (closure.parameterBindings arguments).contains name = true) :
    name ∈ closure.declaration.parameters.map Token.lexeme := by
  have among (entries : List (Token × Value)) (bindings : Bindings Value)
      (bound : (entries.foldl (fun bindings entry => bindings.set entry.1.lexeme entry.2)
        bindings).contains name = true) :
      (∃ entry ∈ entries, entry.1.lexeme = name) ∨ bindings.contains name = true := by
    induction entries generalizing bindings with
    | nil => exact .inr bound
    | cons entry rest ih =>
        rcases ih _ bound with ⟨later, inside, same⟩ | here
        · exact .inl ⟨later, List.mem_cons_of_mem _ inside, same⟩
        · rw [Bindings.contains_set, Bool.or_eq_true, decide_eq_true_eq] at here
          rcases here with same | earlier
          · exact .inl ⟨entry, List.mem_cons_self .., same⟩
          · exact .inr earlier
  rcases among _ .empty bound with ⟨entry, zipped, rfl⟩ | impossible
  · exact List.mem_map_of_mem (List.of_mem_zip zipped).1
  · cases impossible

/-- Parameters are bound to arguments and to nothing else. -/
theorem mem_of_parameterBindings {closure : Closure} {arguments : List Value} {name : String}
    {value : Value} (held : (closure.parameterBindings arguments).get? name = some value) :
    value ∈ arguments := by
  have among (entries : List (Token × Value)) (bindings : Bindings Value)
      (held : (entries.foldl (fun bindings entry => bindings.set entry.1.lexeme entry.2)
        bindings).get? name = some value) :
      value ∈ entries.map Prod.snd ∨ bindings.get? name = some value := by
    induction entries generalizing bindings with
    | nil => exact .inr held
    | cons entry rest ih =>
        rcases ih _ held with later | here
        · exact .inl (List.mem_cons_of_mem _ later)
        · rw [Bindings.get?_set] at here
          split at here
          · cases here
            exact .inl (List.mem_cons_self ..)
          · exact .inr here
  rcases among _ .empty held with inside | impossible
  · obtain ⟨entry, zipped, rfl⟩ := List.mem_map.mp inside
    exact (List.of_mem_zip zipped).2
  · cases impossible

/-- The scope of the parameters of a function, once it has its arguments. -/
theorem keeps_parameters {closure : Closure} {arguments : List Value} (body : Body)
    (fits : Environment.Fits before.store analysis.scopes loose closure.environment)
    (argumentsLocated : ∀ value ∈ arguments, survey.LocatedValue before.store value)
    (enough : arguments.length = closure.arity) (sound : before.Sound survey) :
    (Run.newScope closure.environment (closure.parameterBindings arguments)).Keeps survey before
      fun after environment => Environment.Fits after.store
        (analysis.enterFunction closure.declaration body).scopes ([] :: loose) environment := by
  rw [scopes_enterFunction, declaring]
  apply Run.keeps_newScope _ _ sound fits
  · exact fun _ _ held => argumentsLocated _ (mem_of_parameterBindings held)
  · intro name ready
    rcases Environment.Fits.ready_of_declared _ ready with parameter | impossible
    · exact contains_parameterBindings enough parameter
    · cases impossible
  · exact fun name _ bound =>
      Environment.Fits.contains_of_mem (mem_of_contains_parameterBindings bound)

theorem keeps_call (preserves : survey.Preserves steps) {closure : Closure}
    {arguments : List Value} {line : Nat} (located : survey.Located before.store closure)
    (argumentsLocated : ∀ value ∈ arguments, survey.LocatedValue before.store value)
    (enough : arguments.length = closure.arity) (sound : before.Sound survey) :
    (invoke (steps + 1) (.function closure) arguments line).Keeps survey before fun after result =>
      survey.LocatedValue after.store result := by
  obtain ⟨analysis, body, loose, lists, fits⟩ := located
  apply (keeps_parameters body fits argumentsLocated enough sound).bind
  intro middle environment grows inside
  apply (keeps_body preserves lists grows.sound inside).bind
  intro after flow growsOn flowLocated
  exact keeps_result closure flow growsOn.sound flowLocated

theorem keeps_invoke (preserves : survey.Preserves steps) {callable : Callable}
    {arguments : List Value} {line : Nat}
    (located : survey.LocatedCallable before.store callable)
    (argumentsLocated : ∀ value ∈ arguments, survey.LocatedValue before.store value)
    (enough : arguments.length = callable.arity) (sound : before.Sound survey) :
    (invoke (steps + 1) callable arguments line).Keeps survey before fun after result =>
      survey.LocatedValue after.store result := by
  cases callable with
  | native function => exact Run.keeps_callHost sound function arguments line
  | function closure => exact keeps_call preserves located argumentsLocated enough sound
  | cls found =>
      apply (Run.keeps_newInstance sound found located).bind
      intro middle object grows instanceLocated
      obtain ⟨same, objectLocated⟩ := instanceLocated
      cases initializer : found.initializer? with
      | none => exact Run.keeps_pure grows.sound objectLocated
      | some method =>
          rw [same] at objectLocated
          have methodLocated := objectLocated.method initializer
          rw [← same] at objectLocated
          apply (keeps_bindMethod grows.sound methodLocated objectLocated).bind
          rintro after bound growsOn ⟨declaration, boundLocated⟩
          have arity : arguments.length = (Callable.function bound).arity := by
            rw [enough]
            simp [Callable.arity, Class.arity, initializer, Closure.arity, declaration]
          have argumentsThere (value : Value) (inside : value ∈ arguments) :
              survey.LocatedValue after.store value :=
            (argumentsLocated value inside).grow (grows.trans growsOn).store
          have callable : survey.LocatedCallable after.store (.function bound) := boundLocated
          apply (preserves.invoke callable argumentsThere arity growsOn.sound).bind
          intro last _ growsLast _
          apply Run.keeps_pure growsLast.sound
          exact objectLocated.grow (growsOn.trans growsLast).store

/-! ## Everything together -/

/-- Running a program within any number of steps keeps the machine sound. -/
theorem preserves_all (survey : Survey) (steps : Nat) : survey.Preserves steps := by
  -- A call runs a body that was visited elsewhere, so only the steps get less everywhere.
  induction steps with
  | zero =>
      constructor
      · exact fun _ sound _ => Run.keeps_throw sound
      · exact fun _ sound _ => Run.keeps_throw sound
      · exact fun _ _ _ sound => Run.keeps_throw sound
  | succ steps ih =>
      constructor
      · exact fun visited sound fits => keeps_evaluate ih visited sound fits
      · exact fun visited sound fits => keeps_execute ih visited sound fits
      · exact fun located argumentsLocated enough sound =>
          keeps_invoke ih located argumentsLocated enough sound

/-- A program keeps the machine sound, statement by statement. -/
theorem keeps_interpret {statements : List Stmt} (lists : survey.Lists statements analysis [])
    (outside : analysis.scopes = []) (sound : before.Sound survey)
    (fits : before.environment = globalEnvironment) :
    (interpret steps statements).Keeps survey before fun _ _ => True := by
  induction statements generalizing analysis before with
  | nil => exact Run.keeps_flush sound
  | cons first rest ih =>
      have fitsOutside : before.Fits analysis.scopes [] := by
        unfold Machine.Fits
        rw [outside, fits]
        exact .globals
      apply ((preserves_all survey steps).execute lists.head sound fitsOutside).bind
      intro middle _ grows _
      apply ih lists.tail _ grows.sound (grows.environment.trans fits)
      rw [scopes_stmt, outside]
      rfl

end Lox
