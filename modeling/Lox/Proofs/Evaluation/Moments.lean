import Lox.Proofs.Evaluation.Preservation
import Mathlib.Logic.Relation

/-!
# The moments of a run

A moment is something about to be evaluated on a machine. It enters another one
when its own evaluation comes to it, after what is evaluated before. All moments
of a run are reached from its statements in this way. Each of them stands at a
visit of the analysis, with an environment that fits the scopes there.
-/

namespace Lox

open Analysis

/-! ## Moments -/

/-- What can be about to be evaluated. -/
inductive Activity where
  | node (node : Node)
  | call (callable : Callable) (arguments : List Value)

/-- Something about to be evaluated within a number of steps. -/
structure Moment where
  steps : Nat
  activity : Activity
  machine : Machine

namespace Moment

/-- One moment enters another one: the evaluation that starts at the first comes
to what is evaluated at the second. -/
inductive Enters : Moment → Moment → Prop where
  | grouping {steps : Nat} {machine : Machine}
      {inner : Expr} :
      Enters ⟨steps + 1, .node (.expr (.grouping inner)), machine⟩
        ⟨steps, .node (.expr inner), machine⟩
  | operand {steps : Nat} {machine : Machine}
      {operator : Token} {operand : Expr} :
      Enters ⟨steps + 1, .node (.expr (.unary operator operand)), machine⟩
        ⟨steps, .node (.expr operand), machine⟩
  | left {steps : Nat} {machine : Machine}
      {left right : Expr} {operator : Token} :
      Enters ⟨steps + 1, .node (.expr (.binary left operator right)), machine⟩
        ⟨steps, .node (.expr left), machine⟩
  | right {steps : Nat} {machine first : Machine}
      {left right : Expr} {operator : Token} {value : Value}
      (ran : evaluate steps left machine = .ok value first) :
      Enters ⟨steps + 1, .node (.expr (.binary left operator right)), machine⟩
        ⟨steps, .node (.expr right), first⟩
  | logicalLeft {steps : Nat} {machine : Machine}
      {left right : Expr} {operator : Token} :
      Enters ⟨steps + 1, .node (.expr (.logical left operator right)), machine⟩
        ⟨steps, .node (.expr left), machine⟩
  | logicalRight {steps : Nat} {machine first : Machine}
      {left right : Expr} {operator : Token} {value : Value}
      (ran : evaluate steps left machine = .ok value first)
      (undecided : value.decides operator.kind = false) :
      Enters ⟨steps + 1, .node (.expr (.logical left operator right)), machine⟩
        ⟨steps, .node (.expr right), first⟩
  | assigned {steps : Nat} {machine : Machine}
      {reference : Reference} {value : Expr} :
      Enters ⟨steps + 1, .node (.expr (.assign reference value)), machine⟩
        ⟨steps, .node (.expr value), machine⟩
  | callee {steps : Nat} {machine : Machine}
      {callee : Expr} {paren : Token} {arguments : List Expr} :
      Enters ⟨steps + 1, .node (.expr (.call callee paren arguments)), machine⟩
        ⟨steps, .node (.expr callee), machine⟩
  | argument {steps : Nat} {machine first second : Machine}
      {callee argument : Expr} {paren : Token} {front back : List Expr}
      {function : Value} {values : List Value}
      (ran : evaluate steps callee machine = .ok function first)
      (collected : Run.collect (evaluate steps) front first = .ok values second) :
      Enters ⟨steps + 1, .node (.expr (.call callee paren (front ++ argument :: back))), machine⟩
        ⟨steps, .node (.expr argument), second⟩
  | call {steps : Nat} {machine first second : Machine}
      {callee : Expr} {paren : Token} {arguments : List Expr} {function : Value}
      {callable : Callable} {values : List Value}
      (ran : evaluate steps callee machine = .ok function first)
      (collected : Run.collect (evaluate steps) arguments first = .ok values second)
      (found : function.callable? = some callable)
      (enough : values.length = callable.arity) :
      Enters ⟨steps + 1, .node (.expr (.call callee paren arguments)), machine⟩
        ⟨steps, .call callable values, second⟩
  | object {steps : Nat} {machine : Machine}
      {object : Expr} {name : Token} :
      Enters ⟨steps + 1, .node (.expr (.get object name)), machine⟩
        ⟨steps, .node (.expr object), machine⟩
  | changed {steps : Nat} {machine : Machine}
      {object value : Expr} {name : Token} :
      Enters ⟨steps + 1, .node (.expr (.set object name value)), machine⟩
        ⟨steps, .node (.expr object), machine⟩
  | stored {steps : Nat} {machine first : Machine}
      {object value : Expr} {name : Token} {found : Instance}
      (ran : evaluate steps object machine = .ok (.object found) first) :
      Enters ⟨steps + 1, .node (.expr (.set object name value)), machine⟩
        ⟨steps, .node (.expr value), first⟩
  | effect {steps : Nat} {machine : Machine}
      {value : Expr} :
      Enters ⟨steps + 1, .node (.stmt (.expression value)), machine⟩
        ⟨steps, .node (.expr value), machine⟩
  | printed {steps : Nat} {machine : Machine}
      {value : Expr} :
      Enters ⟨steps + 1, .node (.stmt (.print value)), machine⟩
        ⟨steps, .node (.expr value), machine⟩
  | initializer {steps : Nat} {machine : Machine}
      {name : Token} {value : Expr} :
      Enters ⟨steps + 1, .node (.stmt (.var name (some value))), machine⟩
        ⟨steps, .node (.expr value), machine⟩
  | member {steps : Nat} {machine first second : Machine}
      {front back : List Stmt} {statement : Stmt} {inner : Environment}
      (entered : Run.newScope machine.environment .empty machine = .ok inner first)
      (ran : Flow.sequence (execute steps) front { first with environment := inner } =
        .ok .normal second) :
      Enters ⟨steps + 1, .node (.stmt (.block (front ++ statement :: back))), machine⟩
        ⟨steps, .node (.stmt statement), second⟩
  | condition {steps : Nat} {machine : Machine}
      {condition : Expr} {consequent : Stmt} {alternative : Option Stmt} :
      Enters ⟨steps + 1, .node (.stmt (.conditional condition consequent alternative)), machine⟩
        ⟨steps, .node (.expr condition), machine⟩
  | consequent {steps : Nat} {machine first : Machine}
      {condition : Expr} {consequent : Stmt} {alternative : Option Stmt}
      {value : Value} (ran : evaluate steps condition machine = .ok value first)
      (holds : value.isTruthy = true) :
      Enters ⟨steps + 1, .node (.stmt (.conditional condition consequent alternative)), machine⟩
        ⟨steps, .node (.stmt consequent), first⟩
  | alternative {steps : Nat} {machine first : Machine}
      {condition : Expr} {consequent alternative : Stmt} {value : Value}
      (ran : evaluate steps condition machine = .ok value first)
      (fails : value.isTruthy = false) :
      Enters ⟨steps + 1, .node (.stmt (.conditional condition consequent (some alternative))),
          machine⟩
        ⟨steps, .node (.stmt alternative), first⟩
  | whileCondition {steps : Nat} {machine : Machine}
      {condition : Expr} {body : Stmt} :
      Enters ⟨steps + 1, .node (.stmt (.whileLoop condition body)), machine⟩
        ⟨steps, .node (.expr condition), machine⟩
  | whileBody {steps : Nat} {machine first : Machine}
      {condition : Expr} {body : Stmt} {value : Value}
      (ran : evaluate steps condition machine = .ok value first)
      (holds : value.isTruthy = true) :
      Enters ⟨steps + 1, .node (.stmt (.whileLoop condition body)), machine⟩
        ⟨steps, .node (.stmt body), first⟩
  | whileAgain {steps : Nat} {machine first second : Machine}
      {condition : Expr} {body : Stmt} {value : Value}
      (ran : evaluate steps condition machine = .ok value first)
      (holds : value.isTruthy = true)
      (round : execute steps body first = .ok .normal second) :
      Enters ⟨steps + 1, .node (.stmt (.whileLoop condition body)), machine⟩
        ⟨steps, .node (.stmt (.whileLoop condition body)), second⟩
  | forInitializer {steps : Nat} {machine : Machine}
      {initializer : Stmt} {condition increment : Option Expr} {body : Stmt} :
      Enters ⟨steps + 1, .node (.stmt (.forLoop (some initializer) condition increment body)),
          machine⟩
        ⟨steps, .node (.stmt initializer), machine⟩
  | forRest {steps : Nat} {machine first : Machine}
      {initializer : Stmt} {condition increment : Option Expr} {body : Stmt}
      {flow : Flow} (ran : execute steps initializer machine = .ok flow first) :
      Enters ⟨steps + 1, .node (.stmt (.forLoop (some initializer) condition increment body)),
          machine⟩
        ⟨steps, .node (.stmt (.forLoop none condition increment body)), first⟩
  | forCondition {steps : Nat} {machine : Machine}
      {condition : Expr} {increment : Option Expr} {body : Stmt} :
      Enters ⟨steps + 1, .node (.stmt (.forLoop none (some condition) increment body)), machine⟩
        ⟨steps, .node (.expr condition), machine⟩
  | forBody {steps : Nat} {machine first : Machine}
      {condition increment : Option Expr} {body : Stmt}
      (holds : Run.goesOn (evaluate steps) condition machine = .ok true first) :
      Enters ⟨steps + 1, .node (.stmt (.forLoop none condition increment body)), machine⟩
        ⟨steps, .node (.stmt body), first⟩
  | forIncrement {steps : Nat} {machine first second : Machine}
      {condition : Option Expr} {increment : Expr} {body : Stmt}
      (holds : Run.goesOn (evaluate steps) condition machine = .ok true first)
      (round : execute steps body first = .ok .normal second) :
      Enters ⟨steps + 1, .node (.stmt (.forLoop none condition (some increment) body)), machine⟩
        ⟨steps, .node (.expr increment), second⟩
  | forAgain {steps : Nat} {machine first second : Machine}
      {condition : Option Expr} {body : Stmt}
      (holds : Run.goesOn (evaluate steps) condition machine = .ok true first)
      (round : execute steps body first = .ok .normal second) :
      Enters ⟨steps + 1, .node (.stmt (.forLoop none condition none body)), machine⟩
        ⟨steps, .node (.stmt (.forLoop none condition none body)), second⟩
  | forNext {steps : Nat} {machine first second third : Machine}
      {condition : Option Expr} {increment : Expr} {body : Stmt} {value : Value}
      (holds : Run.goesOn (evaluate steps) condition machine = .ok true first)
      (round : execute steps body first = .ok .normal second)
      (ran : evaluate steps increment second = .ok value third) :
      Enters ⟨steps + 1, .node (.stmt (.forLoop none condition (some increment) body)), machine⟩
        ⟨steps, .node (.stmt (.forLoop none condition (some increment) body)), third⟩
  | returned {steps : Nat} {machine : Machine}
      {keyword : Token} {value : Expr} :
      Enters ⟨steps + 1, .node (.stmt (.returning keyword (some value))), machine⟩
        ⟨steps, .node (.expr value), machine⟩
  | superclass {steps : Nat} {machine : Machine}
      {name : Token} {superclass : Expr} {methods : List FunctionDecl} :
      Enters ⟨steps + 1, .node (.stmt (.classDecl name (some superclass) methods)), machine⟩
        ⟨steps, .node (.expr superclass), machine⟩
  | body {steps : Nat} {machine first second : Machine}
      {closure : Closure} {arguments : List Value} {front back : List Stmt}
      {statement : Stmt} {inner : Environment}
      (entered : Run.newScope closure.environment (closure.parameterBindings arguments) machine =
        .ok inner first)
      (shape : closure.declaration.body = front ++ statement :: back)
      (ran : Flow.sequence (execute steps) front { first with environment := inner } =
        .ok .normal second) :
      Enters ⟨steps + 1, .call (.function closure) arguments, machine⟩
        ⟨steps, .node (.stmt statement), second⟩
  | construct {steps : Nat} {machine first second : Machine}
      {found : Class} {arguments : List Value} {object : Instance}
      {method bound : Closure}
      (created : Run.newInstance found machine = .ok object first)
      (initializes : found.initializer? = some method)
      (ran : method.bind object first = .ok bound second) :
      Enters ⟨steps + 1, .call (.cls found) arguments, machine⟩
        ⟨steps, .call (.function bound) arguments, second⟩

/-- A statement of a program that a run comes to, and the machine it then has. -/
inductive Reached (steps : Nat) : List Stmt → Machine → Stmt → Machine → Prop where
  | here {statement : Stmt} {rest : List Stmt} {machine : Machine} :
      Reached steps (statement :: rest) machine statement machine
  | later {first statement : Stmt} {rest : List Stmt} {before middle after : Machine}
      {flow : Flow} (ran : execute steps first before = .ok flow middle)
      (reached : Reached steps rest middle statement after) :
      Reached steps (first :: rest) before statement after

/-- A run comes only to statements of its program. -/
theorem Reached.mem {steps : Nat} {program : List Stmt} {statement : Stmt}
    {before after : Machine} (reached : Reached steps program before statement after) :
    statement ∈ program := by
  induction reached with
  | here => exact .head _
  | later _ _ ih => exact .tail _ ih

/-- The moments of a run of a program that starts on a machine. -/
def Occurs (steps : Nat) (program : List Stmt) (machine : Machine) (moment : Moment) : Prop :=
  ∃ statement reached, Reached steps program machine statement reached ∧
    Relation.ReflTransGen Enters ⟨steps, .node (.stmt statement), reached⟩ moment

end Moment

/-! ## Standing at a visit -/

/-- A machine stands at a visit if its environment fits the scopes there. A
superclass is evaluated before the name of the class is bound, though the
analysis has that name by then. -/
inductive Survey.Stands (survey : Survey) (machine : Machine) : Visit → Prop where
  | inside {visit : Visit} (visited : survey.visited visit)
      (fits : machine.Fits visit.analysis.scopes visit.loose) : Stands survey machine visit
  | superclass {name : Token} {reference : Reference} {methods : List FunctionDecl}
      {around : Analysis} {loose : List (List String)}
      (visited : survey.visited
        ⟨.stmt (.classDecl name (some (.variable reference)) methods), around, loose⟩)
      (fits : machine.Fits around.scopes loose) :
      Stands survey machine
        ⟨.expr (.variable reference), around.atSuperclass name (.variable reference), loose⟩

theorem Survey.Stands.visited {survey : Survey} {machine : Machine} {visit : Visit}
    (stands : survey.Stands machine visit) : survey.visited visit := by
  cases stands with
  | inside visited _ => exact visited
  | superclass visited _ => exact survey.contains visited .superclass

/-- A sound machine with given distances whose environment fits some scopes. -/
structure Machine.Inside (survey : Survey) (distances : Distances)
    (scopes : List (Bindings Readiness)) (loose : List (List String)) (machine : Machine) :
    Prop where
  sound : machine.Sound survey
  distances : machine.distances = distances
  fits : machine.Fits scopes loose

/-- What holds at every moment of a run with given distances. -/
def Moment.Sound (survey : Survey) (distances : Distances) (moment : Moment) : Prop :=
  moment.machine.Sound survey ∧ moment.machine.distances = distances ∧
    match moment.activity with
    | .node node => ∃ analysis loose, survey.Stands moment.machine ⟨node, analysis, loose⟩
    | .call callable arguments =>
        survey.LocatedCallable moment.machine.store callable ∧
          (∀ value ∈ arguments, survey.LocatedValue moment.machine.store value) ∧
          arguments.length = callable.arity

variable {survey : Survey} {distances : Distances} {before after : Machine}
variable {analysis : Analysis} {scopes : List (Bindings Readiness)}
variable {loose : List (List String)} {steps : Nat}

theorem Run.Keeps.of_ok {α : Type} {step : Run α} {result : Machine → α → Prop} {value : α}
    (keeps : step.Keeps survey before result) (ran : step before = .ok value after) :
    before.Grows survey after ∧ result after value := by
  unfold Keeps at keeps
  rw [ran] at keeps
  exact keeps

namespace Machine.Inside

theorem grow (inside : before.Inside survey distances scopes loose)
    (grows : before.Grows survey after) :
    after.Inside survey distances scopes loose :=
  ⟨grows.sound, grows.distances.trans inside.distances, inside.fits.grow grows⟩

/-- What a visited expression leaves behind. -/
theorem after_expr {value : Expr} {result : Value}
    (inside : before.Inside survey distances analysis.scopes loose)
    (visited : survey.visited ⟨.expr value, analysis, loose⟩)
    (ran : evaluate steps value before = .ok result after) :
    after.Inside survey distances analysis.scopes loose ∧
      survey.LocatedValue after.store result := by
  obtain ⟨grows, located⟩ :=
    ((preserves_all survey steps).evaluate visited inside.sound inside.fits).of_ok ran
  exact ⟨inside.grow grows, located⟩

/-- What a visited statement leaves behind, in its own scopes and in those that it
has declared names in. -/
theorem after_stmt {statement : Stmt} {flow : Flow}
    (inside : before.Inside survey distances analysis.scopes loose)
    (visited : survey.visited ⟨.stmt statement, analysis, loose⟩)
    (ran : execute steps statement before = .ok flow after) :
    after.Inside survey distances analysis.scopes loose ∧
      after.Behind survey statement analysis loose flow := by
  obtain ⟨grows, follows⟩ :=
    ((preserves_all survey steps).execute visited inside.sound inside.fits).of_ok ran
  exact ⟨inside.grow grows, follows⟩

/-- What the arguments of a call leave behind. -/
theorem after_collect {values : List Expr} {results : List Value}
    (inside : before.Inside survey distances analysis.scopes loose)
    (visited : ∀ front value back, values = front ++ value :: back →
      survey.visited ⟨.expr value, analysis.exprs front, loose⟩)
    (ran : Run.collect (evaluate steps) values before = .ok results after) :
    after.Inside survey distances analysis.scopes loose ∧ before.Grows survey after ∧
      ∀ result ∈ results, survey.LocatedValue after.store result := by
  obtain ⟨grows, located⟩ :=
    (keeps_collect (preserves_all survey steps) visited inside.sound inside.fits).of_ok ran
  exact ⟨inside.grow grows, grows, located⟩

/-- What the condition of a loop leaves behind. -/
theorem after_goesOn {condition increment : Option Expr} {body : Stmt} {goesOn : Bool}
    (inside : before.Inside survey distances analysis.scopes loose)
    (visited : survey.visited ⟨.stmt (.forLoop none condition increment body), analysis, loose⟩)
    (ran : Run.goesOn (evaluate steps) condition before = .ok goesOn after) :
    after.Inside survey distances analysis.scopes loose := by
  have conditionVisited (value : Expr) (given : condition = some value) :
      survey.visited ⟨.expr value, analysis, loose⟩ := by
    subst given
    exact survey.contains visited .forCondition
  exact inside.grow
    ((keeps_goesOn (preserves_all survey steps) conditionVisited inside.sound
      inside.fits).of_ok ran).1

/-- What one round of a loop leaves behind. -/
theorem after_round {condition increment : Option Expr} {body : Stmt} {flow : Flow}
    (inside : before.Inside survey distances analysis.scopes loose)
    (visited : survey.visited ⟨.stmt (.forLoop none condition increment body), analysis, loose⟩)
    (ran : execute steps body before = .ok flow after) :
    after.Inside survey distances analysis.scopes loose := by
  have insideBody : before.Inside survey distances
      (optionalExpr increment (optionalExpr condition analysis)).scopes loose := by
    simpa using inside
  simpa using (insideBody.after_stmt (survey.contains visited .forBody) ran).1

/-- Behind the statements in front of one, a machine stands at that one. -/
theorem after_front {front back : List Stmt} {statement : Stmt} {inner : Environment}
    (lists : survey.Lists (front ++ statement :: back) analysis loose)
    (sound : before.Sound survey) (same : before.distances = distances)
    (fits : Environment.Fits before.store analysis.scopes loose inner)
    (ran : Flow.sequence (execute steps) front { before with environment := inner } =
      .ok .normal after) :
    Moment.Sound survey distances ⟨steps, .node (.stmt statement), after⟩ := by
  have inside : Machine.Sound survey { before with environment := inner } :=
    sound.of_eq rfl rfl
  obtain ⟨grows, follows⟩ :=
    (keeps_sequence (preserves_all survey steps) lists.front inside fits).of_ok ran
  exact ⟨grows.sound, grows.distances.trans same, analysis.stmts front, _,
    .inside (lists front statement back rfl) follows⟩

/-- A part of a visit in whose scopes a machine is. -/
theorem part {outer : Visit} {node : Node}
    (inside : before.Inside survey distances analysis.scopes loose) (visited : survey.visited outer)
    (contains : outer.Contains ⟨node, analysis, loose⟩) :
    Moment.Sound survey distances ⟨steps, .node node, before⟩ :=
  ⟨inside.sound, inside.distances, analysis, loose,
    .inside (survey.contains visited contains) inside.fits⟩

end Machine.Inside

namespace Moment

/-- From a moment in an expression that is not a superclass. -/
theorem Sound.expr {value : Expr} {machine : Machine}
    (sound : Sound survey distances ⟨steps, .node (.expr value), machine⟩)
    (compound : ∀ reference, value ≠ .variable reference) :
    ∃ analysis loose, survey.visited ⟨.expr value, analysis, loose⟩ ∧
      machine.Inside survey distances analysis.scopes loose := by
  obtain ⟨machineSound, same, analysis, loose, stands⟩ := sound
  cases stands with
  | inside visited fits => exact ⟨analysis, loose, visited, machineSound, same, fits⟩
  | superclass _ _ => exact absurd rfl (compound _)

theorem Sound.stmt {statement : Stmt} {machine : Machine}
    (sound : Sound survey distances ⟨steps, .node (.stmt statement), machine⟩) :
    ∃ analysis loose, survey.visited ⟨.stmt statement, analysis, loose⟩ ∧
      machine.Inside survey distances analysis.scopes loose := by
  obtain ⟨machineSound, same, analysis, loose, stands⟩ := sound
  cases stands with
  | inside visited fits => exact ⟨analysis, loose, visited, machineSound, same, fits⟩

/-- From a moment in an expression to the moments it enters. -/
theorem Sound.enters_expr {value : Expr} {machine : Machine} {next : Moment}
    (sound : Sound survey distances ⟨steps, .node (.expr value), machine⟩)
    (enters : Enters ⟨steps, .node (.expr value), machine⟩ next) :
    Sound survey distances next := by
  have compound (reference : Reference) : value ≠ .variable reference := by
    rintro rfl
    nomatch enters
  obtain ⟨analysis, loose, visited, inside⟩ := sound.expr compound
  -- Most parts are visited in the scopes of the whole expression.
  cases enters with
  | grouping => exact inside.part visited .grouping
  | operand => exact inside.part visited .operand
  | left => exact inside.part visited .left
  | right ran =>
      have behind := (inside.after_expr (survey.contains visited .left) ran).1
      rw [← scopes_expr] at behind
      exact behind.part visited .right
  | logicalLeft => exact inside.part visited .logicalLeft
  | logicalRight ran _ =>
      have behind := (inside.after_expr (survey.contains visited .logicalLeft) ran).1
      rw [← scopes_expr] at behind
      exact behind.part visited .logicalRight
  | assigned => exact inside.part visited .assigned
  | callee => exact inside.part visited .callee
  | @argument bound _ first second callee argument paren front back function values ran collected =>
      have behind := (inside.after_expr (survey.contains visited .callee) ran).1
      rw [← scopes_expr analysis callee] at behind
      have earlierVisited (earlier : List Expr) (value : Expr) (later : List Expr)
          (shape : front = earlier ++ value :: later) :
          survey.visited ⟨.expr value, (analysis.expr callee).exprs earlier, loose⟩ :=
        visited_argument visited earlier value (later ++ argument :: back) (by simp [shape])
      have farther := (behind.after_collect earlierVisited collected).1
      rw [← scopes_exprs] at farther
      exact farther.part visited .argument
  | @call bound _ _ _ callee _ _ _ _ _ ran collected found enough =>
      obtain ⟨behind, located⟩ := inside.after_expr (survey.contains visited .callee) ran
      rw [← scopes_expr analysis callee] at behind
      obtain ⟨farther, grows, valuesLocated⟩ :=
        behind.after_collect (visited_argument visited) collected
      exact ⟨farther.sound, farther.distances, (located.grow grows.store).callable found,
        valuesLocated, enough⟩
  | object => exact inside.part visited .object
  | changed =>
      rw [← scopes_expr] at inside
      exact inside.part visited .changed
  | @stored _ _ first object value name found ran =>
      rw [← scopes_expr analysis value] at inside
      have behind := (inside.after_expr (survey.contains visited .changed) ran).1
      rw [scopes_expr] at behind
      exact behind.part visited .stored

/-- From a moment in a statement to the moments it enters. -/
theorem Sound.enters_stmt {statement : Stmt} {machine : Machine} {next : Moment}
    (sound : Sound survey distances ⟨steps, .node (.stmt statement), machine⟩)
    (enters : Enters ⟨steps, .node (.stmt statement), machine⟩ next) :
    Sound survey distances next := by
  obtain ⟨analysis, loose, visited, inside⟩ := sound.stmt
  cases enters with
  | effect => exact inside.part visited .effect
  | printed => exact inside.part visited .printed
  | initializer =>
      exact Machine.Inside.part ⟨inside.sound, inside.distances, .pending inside.fits _⟩ visited
        .initializer
  | @member _ _ first second front back statement inner entered ran =>
      have lists : survey.Lists (front ++ statement :: back) analysis.openScope
          ([] :: loose) := by
        intro earlier other later shape
        rw [shape] at visited
        exact survey.contains visited .member
      have opened := Run.keeps_newScope .empty .empty inside.sound inside.fits (by simp) (by simp)
        (by simp)
      obtain ⟨grows, fitsInner⟩ := opened.of_ok entered
      exact Machine.Inside.after_front lists grows.sound
        (grows.distances.trans inside.distances) fitsInner ran
  | condition => exact inside.part visited .condition
  | consequent ran _ =>
      have behind := (inside.after_expr (survey.contains visited .condition) ran).1
      rw [← scopes_expr] at behind
      exact behind.part visited .consequent
  | alternative ran _ =>
      have behind := (inside.after_expr (survey.contains visited .condition) ran).1
      refine Machine.Inside.part ⟨behind.sound, behind.distances, ?_⟩ visited .alternative
      rw [scopes_stmt, scopes_expr]
      exact Environment.Fits.passing behind.fits _
  | whileCondition => exact inside.part visited .whileCondition
  | whileBody ran _ =>
      have behind := (inside.after_expr (survey.contains visited .whileCondition) ran).1
      rw [← scopes_expr] at behind
      exact behind.part visited .whileBody
  | @whileAgain _ _ _ _ condition _ _ ran _ round =>
      have behind := (inside.after_expr (survey.contains visited .whileCondition) ran).1
      rw [← scopes_expr analysis condition] at behind
      have farther := (behind.after_stmt (survey.contains visited .whileBody) round).1
      rw [scopes_expr] at farther
      exact ⟨farther.sound, farther.distances, analysis, loose, .inside visited farther.fits⟩
  | forInitializer => exact inside.part visited .forInitializer
  | forRest ran =>
      obtain ⟨behind, follows⟩ := inside.after_stmt (survey.contains visited .forInitializer) ran
      obtain rfl := flow_of_clause (survey.placed visited).1 ran
      unfold Machine.Behind Machine.Follows at follows
      rw [bareNames_of_clause (survey.placed visited).1, passing_nil] at follows
      exact Machine.Inside.part ⟨behind.sound, behind.distances, follows⟩ visited .forRest
  | forCondition => exact inside.part visited .forCondition
  | @forBody _ _ _ condition increment _ holds =>
      have behind := inside.after_goesOn visited holds
      rw [← scopes_optionalExpr analysis condition,
        ← scopes_optionalExpr (optionalExpr condition analysis) increment] at behind
      exact behind.part visited .forBody
  | @forIncrement _ _ _ _ condition _ _ holds round =>
      have farther := (inside.after_goesOn visited holds).after_round visited round
      rw [← scopes_optionalExpr analysis condition] at farther
      exact farther.part visited .forIncrement
  | forAgain holds round =>
      have farther := (inside.after_goesOn visited holds).after_round visited round
      exact ⟨farther.sound, farther.distances, analysis, loose, .inside visited farther.fits⟩
  | @forNext _ _ _ _ _ condition _ _ _ holds round ran =>
      have farther := (inside.after_goesOn visited holds).after_round visited round
      rw [← scopes_optionalExpr analysis condition] at farther
      have last := (farther.after_expr (survey.contains visited .forIncrement) ran).1
      rw [scopes_optionalExpr] at last
      exact ⟨last.sound, last.distances, analysis, loose, .inside visited last.fits⟩
  | @returned _ _ keyword value =>
      have checked := (passes_checkReturn analysis keyword true).scopes
      rw [declaring_nil] at checked
      rw [← checked] at inside
      exact inside.part visited .returned
  | @superclass _ _ name superclass methods =>
      obtain ⟨reference, rfl⟩ := (survey.placed visited).2.1
      exact ⟨inside.sound, inside.distances, _, loose, .superclass visited inside.fits⟩

/-- From a call to the moments it enters. -/
theorem Sound.enters_call {callable : Callable} {arguments : List Value} {machine : Machine}
    {next : Moment} (sound : Sound survey distances ⟨steps, .call callable arguments, machine⟩)
    (enters : Enters ⟨steps, .call callable arguments, machine⟩ next) :
    Sound survey distances next := by
  obtain ⟨machineSound, same, located, argumentsLocated, enough⟩ := sound
  cases enters with
  | body entered shape ran =>
      obtain ⟨analysis, body, loose, lists, fits⟩ := located
      have opened := keeps_parameters body fits argumentsLocated enough machineSound
      obtain ⟨grows, fitsInner⟩ := opened.of_ok entered
      rw [shape] at lists
      exact Machine.Inside.after_front lists grows.sound (grows.distances.trans same) fitsInner ran
  | construct created initializes ran =>
      obtain ⟨grows, ofClass, objectLocated⟩ :=
        (Run.keeps_newInstance machineSound _ located).of_ok created
      have methodLocated := Survey.LocatedClass.method (ofClass ▸ objectLocated) initializes
      obtain ⟨growsOn, declaration, boundLocated⟩ :=
        (keeps_bindMethod grows.sound methodLocated objectLocated).of_ok ran
      refine ⟨growsOn.sound, (growsOn.distances.trans grows.distances).trans same, boundLocated,
        ?_, ?_⟩
      · exact fun value inside =>
          (argumentsLocated value inside).grow (grows.trans growsOn).store
      · rw [enough]
        simp [Callable.arity, Class.arity, initializes, Closure.arity, declaration]

/-- Everything that a sound moment enters is sound. -/
theorem Sound.enters {moment next : Moment} (sound : Sound survey distances moment)
    (enters : Enters moment next) : Sound survey distances next := by
  obtain ⟨steps, activity, machine⟩ := moment
  cases activity with
  | node node =>
      cases node with
      | expr value => exact sound.enters_expr enters
      | stmt statement => exact sound.enters_stmt enters
  | call callable arguments => exact sound.enters_call enters

/-- A statement of a program stands in the program as the run comes to it. -/
theorem sound_of_reached {program : List Stmt} {statement : Stmt} {machine reached : Machine}
    (lists : survey.Lists program analysis []) (outside : analysis.scopes = [])
    (inside : machine.Inside survey distances [] [])
    (reach : Reached steps program machine statement reached) :
    Sound survey distances ⟨steps, .node (.stmt statement), reached⟩ := by
  induction reach generalizing analysis with
  | here =>
      rw [← outside] at inside
      exact ⟨inside.sound, inside.distances, analysis, [], .inside lists.head inside.fits⟩
  | later ran _ ih =>
      rw [← outside] at inside
      have behind := (inside.after_stmt lists.head ran).1
      rw [outside] at behind
      apply ih lists.tail _ behind
      rw [scopes_stmt, outside]
      rfl

/-- Every moment of the run of a program is sound. -/
theorem sound_of_occurs {program : List Stmt} {machine : Machine} {moment : Moment}
    (lists : survey.Lists program analysis []) (outside : analysis.scopes = [])
    (inside : machine.Inside survey distances [] [])
    (occurs : Occurs steps program machine moment) : Sound survey distances moment := by
  obtain ⟨statement, reached, reach, enters⟩ := occurs
  induction enters with
  | refl => exact sound_of_reached lists outside inside reach
  | tail _ step ih => exact ih.enters step

end Moment

end Lox
