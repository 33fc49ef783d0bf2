import Lox.Proofs.Receivers.Attending

/-!
# Receivers at the moments of a run

A run can be watched up to any of its moments. So at each of them everything that the
machine holds is noted, the code about to be evaluated has a receiver if its function
has one, and a function about to be called is noted with its arguments.
-/

namespace Lox

/-- What a plain step does, a watched one does, and it keeps what it does noted. -/
theorem Watching.Keeps.of_ok {α : Type} {watching : Watching α} {plain : Run α} {before : Watch}
    {result : Watch → α → Prop} {value : α} {after : Machine} (keeps : watching.Keeps before result)
    (forgets : watching.Forgets plain) (ran : plain before.machine = .ok value after) :
    ∃ later : Watch, later.machine = after ∧ before.Grows later ∧ result later value := by
  rw [← forgets before] at ran
  unfold Keeps at keeps
  cases watched : watching before with
  | ok found later =>
      rw [watched] at ran keeps
      cases ran
      exact ⟨later, rfl, keeps⟩
  | error halt later =>
      rw [watched] at ran
      cases ran

/-- The result of a call is looked up without a change. -/
theorem Closure.machine_of_result {closure : Closure} {flow : Flow} {before after : Machine}
    {value : Value} (ran : closure.result flow before = .ok value after) : before = after := by
  unfold Closure.result at ran
  by_cases initializes : closure.isInitializer = true
  · rw [if_pos initializes] at ran
    obtain ⟨machine, _, looked, rest⟩ := Run.bind_ok.mp ran
    cases looked
    cases found : closure.environment.lookupAt? before.store 0 "this" with
    | none =>
        rw [found] at rest
        cases rest
    | some object =>
        rw [found] at rest
        cases rest
        rfl
  · rw [if_neg initializes] at ran
    cases flow <;> cases ran <;> rfl

section Steps

variable {survey : Survey} {distances : Distances} {before : Watch} {steps : Nat}
variable {receiver : Option Receiver} {after : Machine}
variable (binds : survey.Binds distances) (noted : before.Sound)
include binds noted

/-! ## What parts leave behind that run as if watched -/

namespace Watch

theorem after_expr (around : before.Around receiver) {value : Expr} {result : Value}
    (sound : Moment.Sound survey distances ⟨steps, .node (.expr value), before.machine⟩)
    (ran : evaluate steps value before.machine = .ok result after) :
    ∃ later : Watch, later.machine = after ∧ before.Grows later ∧ result.Noted later :=
  ((Watching.attends_all binds steps).evaluate sound noted around).of_ok
    ((Watching.forgetsWithin steps).evaluate receiver value) ran

theorem after_stmt (around : before.Around receiver) {statement : Stmt} {flow : Flow}
    (sound : Moment.Sound survey distances ⟨steps, .node (.stmt statement), before.machine⟩)
    (ran : execute steps statement before.machine = .ok flow after) :
    ∃ later : Watch, later.machine = after ∧ before.Grows later := by
  obtain ⟨later, same, grows, -⟩ :=
    ((Watching.attends_all binds steps).execute sound noted around).of_ok
      ((Watching.forgetsWithin steps).execute receiver statement) ran
  exact ⟨later, same, grows⟩

theorem after_goesOn (around : before.Around receiver) {condition increment : Option Expr}
    {body : Stmt} {goesOn : Bool}
    (sound : Moment.Sound survey distances
      ⟨steps + 1, .node (.stmt (.forLoop none condition increment body)), before.machine⟩)
    (ran : Run.goesOn (evaluate steps) condition before.machine = .ok goesOn after) :
    ∃ later : Watch, later.machine = after ∧ before.Grows later := by
  cases condition with
  | none =>
      cases ran
      exact ⟨before, rfl, noted.grows⟩
  | some condition =>
      obtain ⟨value, middle, ranCondition, rest⟩ := Run.bind_ok.mp ran
      cases rest
      obtain ⟨later, same, grows, -⟩ :=
        after_expr binds noted around (sound.enters .forCondition) ranCondition
      exact ⟨later, same, grows⟩

/-- Arguments in front of some others. -/
theorem after_collect (around : before.Around receiver) {values : List Expr}
    {results : List Value}
    (each : ∀ front value back results middle, values = front ++ value :: back →
      Run.collect (evaluate steps) front before.machine = .ok results middle →
      Moment.Sound survey distances ⟨steps, .node (.expr value), middle⟩)
    (ran : Run.collect (evaluate steps) values before.machine = .ok results after) :
    ∃ later : Watch, later.machine = after ∧ before.Grows later ∧
      ∀ result ∈ results, result.Noted later := by
  have forgets := Watching.forgets_collect ((Watching.forgetsWithin steps).evaluate receiver) values
  have keeps : (Watching.collect (Watching.evaluate steps receiver) values).Keeps before
      fun after results => ∀ result ∈ results, result.Noted after := by
    refine Watching.keeps_collect ?_ noted around
    intro front value back results middle shape ranFront soundThere aroundThere
    have sound := each front value back results _ shape (Watching.runs_collect ranFront)
    exact (Watching.attends_all binds steps).evaluate sound soundThere aroundThere
  exact keeps.of_ok forgets ran

/-- Statements in front of some others. -/
theorem after_front (around : before.Around receiver) {statements : List Stmt} {flow : Flow}
    (each : ∀ front statement back middle, statements = front ++ statement :: back →
      Flow.sequence (execute steps) front before.machine = .ok .normal middle →
      Moment.Sound survey distances ⟨steps, .node (.stmt statement), middle⟩)
    (ran : Flow.sequence (execute steps) statements before.machine = .ok flow after) :
    ∃ later : Watch, later.machine = after ∧ before.Grows later := by
  have forgets := Watching.forgets_sequence
    ((Watching.forgetsWithin steps).execute receiver) statements
  have keeps : (Watching.sequence (Watching.execute steps receiver) statements).Keeps before
      fun after flow => flow.Noted after := by
    refine Watching.keeps_sequence ?_ noted around
    intro front statement back middle shape ranFront soundThere aroundThere
    have sound := each front statement back _ shape (Watching.runs_sequence ranFront)
    exact (Watching.attends_all binds steps).execute sound soundThere aroundThere
  obtain ⟨later, same, grows, -⟩ := keeps.of_ok forgets ran
  exact ⟨later, same, grows⟩

end Watch

end Steps

/-! ## Moments -/

namespace Moment

variable {survey : Survey} {distances : Distances}

/-- A run can be watched up to a moment: what is about to be evaluated there is noted, as
everything is that the machine holds. -/
def Attended (moment : Moment) : Prop :=
  ∃ watch : Watch, watch.machine = moment.machine ∧ watch.Sound ∧
    match moment.activity with
    | .node _ => ∃ receiver, watch.Around receiver
    | .call callable arguments => callable.Noted watch ∧ ∀ value ∈ arguments, value.Noted watch

/-- The moment behind a part of code with a receiver. -/
theorem attended_behind {before later : Watch} {receiver : Option Receiver}
    (around : before.Around receiver) (grows : before.Grows later) {steps : Nat} {node : Node} :
    Attended ⟨steps, .node node, later.machine⟩ :=
  ⟨later, rfl, grows.sound, receiver, around.grow grows⟩

theorem Attended.enters_expr (binds : survey.Binds distances) {steps : Nat} {value : Expr}
    {machine : Machine} {next : Moment}
    (sound : Sound survey distances ⟨steps, .node (.expr value), machine⟩)
    (attended : Attended ⟨steps, .node (.expr value), machine⟩)
    (enters : Enters ⟨steps, .node (.expr value), machine⟩ next) : next.Attended := by
  obtain ⟨watch, rfl, noted, receiver, around⟩ := attended
  have here (steps : Nat) (node : Node) : Attended ⟨steps, .node node, watch.machine⟩ :=
    ⟨watch, rfl, noted, receiver, around⟩
  cases enters with
  | grouping => exact here _ _
  | operand => exact here _ _
  | left => exact here _ _
  | right ran =>
      obtain ⟨later, rfl, grows, -⟩ := Watch.after_expr binds noted around (sound.enters .left) ran
      exact attended_behind around grows
  | logicalLeft => exact here _ _
  | logicalRight ran _ =>
      obtain ⟨later, rfl, grows, -⟩ :=
        Watch.after_expr binds noted around (sound.enters .logicalLeft) ran
      exact attended_behind around grows
  | assigned => exact here _ _
  | callee => exact here _ _
  | @argument fewer _ _ _ _ argument _ front back _ _ ran collected =>
      obtain ⟨middle, rfl, grows, -⟩ :=
        Watch.after_expr binds noted around (sound.enters .callee) ran
      have each (earlier : List Expr) (value : Expr) (behind : List Expr) (results : List Value)
          (there : Machine) (shape : front = earlier ++ value :: behind)
          (given : Run.collect (evaluate fewer) earlier middle.machine = .ok results there) :
          Sound survey distances ⟨fewer, .node (.expr value), there⟩ := by
        subst shape
        rw [List.append_assoc] at sound
        exact sound.enters (.argument ran given)
      obtain ⟨later, rfl, growsOn, -⟩ :=
        Watch.after_collect binds grows.sound (around.grow grows) each collected
      exact attended_behind around (grows.trans growsOn)
  | @call fewer _ _ _ _ _ arguments _ _ _ ran collected found enough =>
      obtain ⟨middle, rfl, grows, functionNoted⟩ :=
        Watch.after_expr binds noted around (sound.enters .callee) ran
      have each (front : List Expr) (value : Expr) (back : List Expr) (results : List Value)
          (there : Machine) (shape : arguments = front ++ value :: back)
          (given : Run.collect (evaluate fewer) front middle.machine = .ok results there) :
          Sound survey distances ⟨fewer, .node (.expr value), there⟩ := by
        subst shape
        exact sound.enters (.argument ran given)
      obtain ⟨later, rfl, growsOn, valuesNoted⟩ :=
        Watch.after_collect binds grows.sound (around.grow grows) each collected
      have callable := (functionNoted.grow growsOn.toExtends).callable found
      exact ⟨later, rfl, growsOn.sound, callable, valuesNoted⟩
  | object => exact here _ _
  | changed => exact here _ _
  | stored ran =>
      obtain ⟨later, rfl, grows, -⟩ :=
        Watch.after_expr binds noted around (sound.enters .changed) ran
      exact attended_behind around grows

/-- The moment at a statement of a body, which is entered in a scope of its own. -/
theorem attended_member (binds : survey.Binds distances) {steps : Nat} {before : Watch}
    (noted : before.Sound) {receiver : Option Receiver} {outer inner : Environment}
    {bindings : Bindings Value} {body front back : List Stmt} {statement : Stmt}
    {first second : Machine} (shape : body = front ++ statement :: back)
    (allocated : outer.Allocated before.machine.store)
    (holds : outer.receiver? before.machine.store = receiver)
    (bound : ∀ name value, bindings.get? name = some value →
      IsOrdinaryName name ∧ value.Noted before)
    (each : ∀ earlier other later middle, body = earlier ++ other :: later →
      Flow.sequence (execute steps) earlier { first with environment := inner } =
        .ok .normal middle →
      Sound survey distances ⟨steps, .node (.stmt other), middle⟩)
    (entered : Run.newScope outer bindings before.machine = .ok inner first)
    (ran : Flow.sequence (execute steps) front { first with environment := inner } =
      .ok .normal second) :
    Attended ⟨steps, .node (.stmt statement), second⟩ := by
  obtain ⟨opened, rfl, grows, around⟩ := (Watching.keeps_enter noted allocated holds bound).of_ok
    (Watching.forgets_lift _) entered
  have soundInside : Watch.Sound
      { opened with machine := { opened.machine with environment := inner } } :=
    grows.sound.of_store rfl (Nat.le_refl _) rfl
  have eachInside (earlier : List Stmt) (other : Stmt) (later : List Stmt) (middle : Machine)
      (listed : front = earlier ++ other :: later) :=
    each earlier other (later ++ statement :: back) middle (by simp [shape, listed])
  obtain ⟨later, rfl, growsOn⟩ := Watch.after_front binds soundInside around eachInside ran
  exact attended_behind around growsOn

theorem Attended.enters_stmt (binds : survey.Binds distances) {steps : Nat} {statement : Stmt}
    {machine : Machine} {next : Moment}
    (sound : Sound survey distances ⟨steps, .node (.stmt statement), machine⟩)
    (attended : Attended ⟨steps, .node (.stmt statement), machine⟩)
    (enters : Enters ⟨steps, .node (.stmt statement), machine⟩ next) : next.Attended := by
  obtain ⟨watch, rfl, noted, receiver, around⟩ := attended
  have here (steps : Nat) (node : Node) : Attended ⟨steps, .node node, watch.machine⟩ :=
    ⟨watch, rfl, noted, receiver, around⟩
  cases enters with
  | effect => exact here _ _
  | printed => exact here _ _
  | initializer => exact here _ _
  | @member _ _ _ _ front back statement _ entered ran =>
      have shape : front ++ statement :: back = front ++ statement :: back := rfl
      refine attended_member binds noted shape around.allocated around.holds ?_ ?_ entered ran
      · intro name value held
        cases held
      · intro earlier other later middle shape ranFront
        rw [shape] at sound
        exact sound.enters (.member entered ranFront)
  | condition => exact here _ _
  | consequent ran _ =>
      obtain ⟨later, rfl, grows, -⟩ :=
        Watch.after_expr binds noted around (sound.enters .condition) ran
      exact attended_behind around grows
  | alternative ran _ =>
      obtain ⟨later, rfl, grows, -⟩ :=
        Watch.after_expr binds noted around (sound.enters .condition) ran
      exact attended_behind around grows
  | whileCondition => exact here _ _
  | whileBody ran _ =>
      obtain ⟨later, rfl, grows, -⟩ :=
        Watch.after_expr binds noted around (sound.enters .whileCondition) ran
      exact attended_behind around grows
  | whileAgain ran holds round =>
      obtain ⟨middle, rfl, grows, -⟩ :=
        Watch.after_expr binds noted around (sound.enters .whileCondition) ran
      obtain ⟨later, rfl, growsOn⟩ := Watch.after_stmt binds grows.sound (around.grow grows)
        (sound.enters (.whileBody ran holds)) round
      exact attended_behind around (grows.trans growsOn)
  | forInitializer => exact here _ _
  | forRest ran =>
      obtain ⟨later, rfl, grows⟩ :=
        Watch.after_stmt binds noted around (sound.enters .forInitializer) ran
      exact attended_behind around grows
  | forCondition => exact here _ _
  | forBody holds =>
      obtain ⟨later, rfl, grows⟩ := Watch.after_goesOn binds noted around sound holds
      exact attended_behind around grows
  | forIncrement holds round =>
      obtain ⟨middle, rfl, grows⟩ := Watch.after_goesOn binds noted around sound holds
      obtain ⟨later, rfl, growsOn⟩ := Watch.after_stmt binds grows.sound (around.grow grows)
        (sound.enters (.forBody holds)) round
      exact attended_behind around (grows.trans growsOn)
  | forAgain holds round =>
      obtain ⟨middle, rfl, grows⟩ := Watch.after_goesOn binds noted around sound holds
      obtain ⟨later, rfl, growsOn⟩ := Watch.after_stmt binds grows.sound (around.grow grows)
        (sound.enters (.forBody holds)) round
      exact attended_behind around (grows.trans growsOn)
  | forNext holds round ran =>
      obtain ⟨middle, rfl, grows⟩ := Watch.after_goesOn binds noted around sound holds
      obtain ⟨later, rfl, growsOn⟩ := Watch.after_stmt binds grows.sound (around.grow grows)
        (sound.enters (.forBody holds)) round
      have behind := grows.trans growsOn
      obtain ⟨last, rfl, growsLast, -⟩ := Watch.after_expr binds behind.sound (around.grow behind)
        (sound.enters (.forIncrement holds round)) ran
      exact attended_behind around (behind.trans growsLast)
  | returned => exact here _ _
  | superclass => exact here _ _

theorem Attended.enters_call (binds : survey.Binds distances) {steps : Nat} {callable : Callable}
    {arguments : List Value} {machine : Machine} {next : Moment}
    (sound : Sound survey distances ⟨steps, .call callable arguments, machine⟩)
    (attended : Attended ⟨steps, .call callable arguments, machine⟩)
    (enters : Enters ⟨steps, .call callable arguments, machine⟩ next) : next.Attended := by
  obtain ⟨watch, rfl, noted, callableNoted, given⟩ := attended
  cases enters with
  | @body _ _ _ _ closure _ _ _ _ _ entered shape ran =>
      have closureNoted : closure.Noted watch := callableNoted
      refine attended_member binds noted shape closureNoted.allocated rfl ?_ ?_ entered ran
      · exact fun name value held => Watching.bound_parameters closureNoted given held
      · intro earlier other later middle listed ranFront
        exact sound.enters (.body entered listed ranFront)
  | @construct _ _ _ _ found _ object method bound created initializes ran =>
      have foundNoted : found.Noted watch := callableNoted
      obtain ⟨made, rfl, grows, ofClass⟩ :=
        (Watching.keeps_newInstance noted found).of_ok (Watching.forgets_lift _) created
      have objectNoted : object.cls.Noted made :=
        ofClass ▸ Class.Noted.grow foundNoted grows.toExtends
      have methodNoted : method.NotedMethod made := objectNoted.method (ofClass ▸ initializes)
      obtain ⟨later, rfl, growsOn, -, boundNoted⟩ :=
        (Watching.keeps_bind grows.sound methodNoted objectNoted).of_ok
          (Watching.forgets_bind method object) ran
      refine ⟨later, rfl, growsOn.sound, boundNoted, ?_⟩
      exact fun value inside => (given value inside).grow (grows.trans growsOn).toExtends

/-- What a moment enters can be watched, too. -/
theorem Attended.enters (binds : survey.Binds distances) {moment next : Moment}
    (sound : Sound survey distances moment) (attended : moment.Attended)
    (enters : Enters moment next) : next.Attended := by
  obtain ⟨steps, activity, machine⟩ := moment
  cases activity with
  | node node =>
      cases node with
      | expr value => exact attended.enters_expr binds sound enters
      | stmt statement => exact attended.enters_stmt binds sound enters
  | call callable arguments => exact attended.enters_call binds sound enters

/-- A run can be watched up to every statement of its program. -/
theorem attended_of_reached (binds : survey.Binds distances) {steps : Nat} {program : List Stmt}
    {analysis : Analysis} {statement : Stmt} {before : Watch} {reached : Machine}
    (lists : survey.Lists program analysis []) (outside : analysis.scopes = [])
    (inside : before.machine.Inside survey distances [] []) (noted : before.Sound)
    {receiver : Option Receiver} (around : before.Around receiver)
    (reach : Reached steps program before.machine statement reached) :
    Attended ⟨steps, .node (.stmt statement), reached⟩ := by
  generalize same : before.machine = machine at reach
  induction reach generalizing analysis before with
  | here => exact ⟨before, same, noted, receiver, around⟩
  | later ran _ ih =>
      subst same
      rw [← outside] at inside
      have sound : Sound survey distances ⟨steps, .node (.stmt _), before.machine⟩ :=
        ⟨inside.sound, inside.distances, analysis, [], .inside lists.head inside.fits⟩
      obtain ⟨next, rfl, grows⟩ := Watch.after_stmt binds noted around sound ran
      have behind := (inside.after_stmt lists.head ran).1
      rw [outside] at behind
      refine ih lists.tail ?_ behind grows.sound (around.grow grows) rfl
      rw [Analysis.scopes_stmt, outside]
      rfl

/-- A run can be watched up to each of its moments. -/
theorem attended_of_occurs (binds : survey.Binds distances) {steps : Nat} {program : List Stmt}
    {analysis : Analysis} {before : Watch} {moment : Moment}
    (lists : survey.Lists program analysis []) (outside : analysis.scopes = [])
    (inside : before.machine.Inside survey distances [] []) (noted : before.Sound)
    {receiver : Option Receiver} (around : before.Around receiver)
    (occurs : Occurs steps program before.machine moment) : moment.Attended := by
  obtain ⟨statement, reached, reach, enters⟩ := occurs
  induction enters with
  | refl => exact attended_of_reached binds lists outside inside noted around reach
  | tail front step ih =>
      have sound := sound_of_occurs lists outside inside ⟨statement, reached, reach, front⟩
      exact ih.enters binds sound step

/-- An initializer that is called is bound to an object, and when the call ends that object
is the result. -/
theorem Attended.initializer (binds : survey.Binds distances) {steps : Nat} {closure : Closure}
    {arguments : List Value} {line : Nat} {machine after : Machine} {result : Value}
    (sound : Sound survey distances ⟨steps + 1, .call (.function closure) arguments, machine⟩)
    (attended : Attended ⟨steps + 1, .call (.function closure) arguments, machine⟩)
    (initializes : closure.isInitializer = true)
    (ran : invoke (steps + 1) (.function closure) arguments line machine = .ok result after) :
    ∃ object, closure.environment.lookupAt? machine.store 0 "this" = some (.object object) ∧
      result = .object object := by
  obtain ⟨watch, rfl, noted, callableNoted, given⟩ := attended
  have closureNoted : closure.Noted watch := callableNoted
  obtain ⟨scope, outer, object, shape, held⟩ := closureNoted.bound initializes
  have found : closure.environment.lookupAt? watch.machine.store 0 "this" =
      some (.object object) := by
    rw [shape]
    exact held
  obtain ⟨later, rfl, grows, -⟩ :=
    ((Watching.attends_all binds (steps + 1)).invoke sound noted callableNoted given).of_ok
      ((Watching.forgetsWithin (steps + 1)).invoke _ _ line) ran
  have allocated : scope.index < watch.machine.store.scopes.size :=
    closureNoted.allocated scope (shape ▸ .head _)
  have kept : (later.machine.store.scope scope).get? "this" = some (.object object) := by
    rw [grows.store.keywords scope "this" allocated Environment.not_ordinary_this, held]
  -- The result is looked up in the machine that the call leaves behind.
  obtain ⟨inner, first, -, rest⟩ := Run.bind_ok.mp ran
  obtain ⟨flow, second, -, ended⟩ := Run.bind_ok.mp rest
  obtain rfl := Closure.machine_of_result ended
  rw [Watching.result_of_initializer flow initializes shape kept] at ended
  cases ended
  exact ⟨object, found, rfl⟩

end Moment

end Lox
