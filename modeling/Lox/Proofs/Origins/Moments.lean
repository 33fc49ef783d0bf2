import Lox.Proofs.Origins.Session

/-!
# Permitted moments

Where all names may be global, every moment of a session is permitted: its machine is, and
so are a callable that is about to be called and its arguments.
-/

namespace Lox

namespace Origins

variable {origins : Origins} {known : Moment → Prop}
variable {before after machine : Machine} {steps : Nat} {moment next : Moment}

/-- A moment on a permitted machine. What is called there is permitted with its
arguments. -/
def PermitsMoment (origins : Origins) (moment : Moment) : Prop :=
  origins.Permits moment.machine ∧
    match moment.activity with
    | .node _ => True
    | .call callable arguments =>
        origins.PermitsCallable callable ∧ ∀ value ∈ arguments, origins.PermitsValue value

namespace Covers

variable (covers : origins.Covers known)
include covers

/-- What an expression leaves behind. -/
theorem after_expr {value : Expr} {result : Value}
    (here : known ⟨steps, .node (.expr value), before⟩)
    (permits : origins.Permits before) (ran : evaluate steps value before = .ok result after) :
    origins.Permits after ∧ origins.PermitsValue result :=
  ((keepsWithin covers steps).evaluate here permits).of_ok ran

/-- What a statement leaves behind. -/
theorem after_stmt (free : ∀ name, origins.name name) {statement : Stmt} {flow : Flow}
    (here : known ⟨steps, .node (.stmt statement), before⟩)
    (permits : origins.Permits before) (ran : execute steps statement before = .ok flow after) :
    origins.Permits after :=
  (((keepsWithin covers steps).execute here permits fun _ _ name _ => free name).of_ok ran).1

/-- What the arguments of a call leave behind. -/
theorem after_collect {callee : Expr} {paren : Token} {front back : List Expr}
    {function : Value} {results : List Value} {middle : Machine}
    (here : known
      ⟨steps + 1, .node (.expr (.call callee paren (front ++ back))), before⟩)
    (permits : origins.Permits before) (ran : evaluate steps callee before = .ok function middle)
    (collected : Run.collect (evaluate steps) front middle = .ok results after) :
    origins.Permits after ∧ origins.PermitsValue function ∧
      ∀ result ∈ results, origins.PermitsValue result := by
  obtain ⟨permitsMiddle, permitted⟩ := covers.after_expr (covers.enters here .callee) permits ran
  have each (earlier : List Expr) (value : Expr) (later : List Expr) (values : List Value)
      (last : Machine) (shape : front = earlier ++ value :: later)
      (gathered : Run.collect (evaluate steps) earlier middle = .ok values last)
      (permitsLast : origins.Permits last) :
      origins.Keeps (evaluate steps value) last origins.PermitsValue := by
    rw [shape, List.append_assoc, List.cons_append] at here
    have known := covers.enters here (.argument ran gathered)
    exact (keepsWithin covers steps).evaluate known permitsLast
  obtain ⟨permitsAfter, permittedResults⟩ := (keeps_collect each permitsMiddle).of_ok collected
  exact ⟨permitsAfter, permitted, permittedResults⟩

/-- What the condition of a loop leaves behind. -/
theorem after_goesOn {condition increment : Option Expr} {body : Stmt} {goesOn : Bool}
    (here : known
      ⟨steps + 1, .node (.stmt (.forLoop none condition increment body)), before⟩)
    (permits : origins.Permits before)
    (ran : Run.goesOn (evaluate steps) condition before = .ok goesOn after) :
    origins.Permits after := by
  refine ((keeps_goesOn (fun value given => ?_) permits).of_ok ran).1
  subst given
  exact (keepsWithin covers steps).evaluate (covers.enters here .forCondition) permits

/-- What the statements in front of one leave behind. -/
theorem after_front (free : ∀ name, origins.name name) {front : List Stmt}
    {inner : Environment}
    (each : ∀ earlier other later middle, front = earlier ++ other :: later →
      Flow.sequence (execute steps) earlier { before with environment := inner } =
        .ok .normal middle →
      known ⟨steps, .node (.stmt other), middle⟩)
    (permits : origins.Permits before)
    (ran : Flow.sequence (execute steps) front { before with environment := inner } =
      .ok .normal after) : origins.Permits after := by
  have permitsInside : origins.Permits { before with environment := inner } :=
    permits.of_same rfl rfl
  refine ((keeps_sequence ?_ permitsInside).of_ok ran).1
  intro earlier other later middle shape followed permitsMiddle
  exact (keepsWithin covers steps).execute (each earlier other later middle shape followed)
    permitsMiddle fun _ _ name _ => free name

/-- A run is on a permitted machine at each statement that it comes to. -/
theorem of_reached (free : ∀ name, origins.name name) {program : List Stmt}
    {statement : Stmt} {reached : Machine}
    (each : ∀ other middle, Moment.Reached steps program machine other middle →
      known ⟨steps, .node (.stmt other), middle⟩)
    (permits : origins.Permits machine)
    (reach : Moment.Reached steps program machine statement reached) :
    origins.Permits reached := by
  induction reach with
  | here => exact permits
  | later ran _ ih =>
      exact ih (fun other middle later => each other middle (.later ran later))
        (covers.after_stmt free (each _ _ .here) permits ran)

end Covers

/-- From a permitted moment to the moments it enters. -/
theorem PermitsMoment.enters (permits : origins.PermitsMoment moment)
    (covers : origins.Covers known) (free : ∀ name, origins.name name)
    (here : known moment) (enters : Moment.Enters moment next) :
    origins.PermitsMoment next := by
  obtain ⟨permits, called⟩ := permits
  cases enters with
  -- A part that is come to first starts on the machine of the whole.
  | grouping | operand | left | logicalLeft | assigned | callee | object | changed | effect
  | printed | initializer | condition | whileCondition | forInitializer | forCondition
  | returned | superclass => exact ⟨permits, trivial⟩
  | right ran => exact ⟨(covers.after_expr (covers.enters here .left) permits ran).1, trivial⟩
  | logicalRight ran _ =>
      exact ⟨(covers.after_expr (covers.enters here .logicalLeft) permits ran).1, trivial⟩
  | argument ran collected => exact ⟨(covers.after_collect here permits ran collected).1, trivial⟩
  | @call _ _ _ _ callee paren arguments _ callable _ ran collected found _ =>
      rw [← List.append_nil arguments] at here
      obtain ⟨permitsLast, permitted, values⟩ := covers.after_collect here permits ran collected
      exact ⟨permitsLast, permitted.callable found, values⟩
  | stored ran => exact ⟨(covers.after_expr (covers.enters here .changed) permits ran).1, trivial⟩
  | @member _ machine _ _ front back statement _ entered ran =>
      have empty (name : String) (value : Value)
          (held : (Bindings.empty : Bindings Value).get? name = some value) :
          origins.PermitsValue value := nomatch held
      have opened := (keeps_newScope permits machine.environment empty).of_ok entered
      refine ⟨covers.after_front free ?_ opened.1 ran, trivial⟩
      intro earlier other later middle shape followed
      rw [shape, List.append_assoc, List.cons_append] at here
      exact covers.enters here (.member entered followed)
  | consequent ran _ | alternative ran _ =>
      exact ⟨(covers.after_expr (covers.enters here .condition) permits ran).1, trivial⟩
  | whileBody ran _ =>
      exact ⟨(covers.after_expr (covers.enters here .whileCondition) permits ran).1, trivial⟩
  | whileAgain ran holds round =>
      have permitsFirst := (covers.after_expr (covers.enters here .whileCondition) permits ran).1
      exact ⟨covers.after_stmt free (covers.enters here (.whileBody ran holds)) permitsFirst round,
        trivial⟩
  | forRest ran =>
      exact ⟨covers.after_stmt free (covers.enters here .forInitializer) permits ran, trivial⟩
  | forBody holds => exact ⟨covers.after_goesOn here permits holds, trivial⟩
  | forIncrement holds round | forAgain holds round =>
      have permitsFirst := covers.after_goesOn here permits holds
      have known := covers.enters here (.forBody holds)
      exact ⟨covers.after_stmt free known permitsFirst round, trivial⟩
  | forNext holds round ran =>
      have permitsFirst := covers.after_goesOn here permits holds
      have permitsSecond :=
        covers.after_stmt free (covers.enters here (.forBody holds)) permitsFirst round
      have known := covers.enters here (.forIncrement holds round)
      exact ⟨(covers.after_expr known permitsSecond ran).1, trivial⟩
  | @body _ _ _ _ closure arguments front back statement _ entered shape ran =>
      have parameters (name : String) (value : Value)
          (held : (closure.parameterBindings arguments).get? name = some value) :
          origins.PermitsValue value := called.2 value (mem_of_parameterBindings held)
      have opened := (keeps_newScope permits closure.environment parameters).of_ok entered
      refine ⟨covers.after_front free ?_ opened.1 ran, trivial⟩
      intro earlier other later middle split followed
      rw [split, List.append_assoc, List.cons_append] at shape
      exact covers.calls here called.1 (.body entered shape followed)
  | construct created initializes ran =>
      obtain ⟨permitsCreated, receiver⟩ := (keeps_newInstance permits called.1).of_ok created
      have permitted : origins.PermitsClass _ := called.1
      obtain ⟨permitsBound, boundPermitted⟩ :=
        (keeps_bindMethod permitsCreated (permitted.method initializes) receiver).of_ok ran
      exact ⟨permitsBound, boundPermitted, called.2⟩

/-- What is known of the statements that a run comes to is known of all its moments, and
they are permitted. -/
theorem known_of_occurs (covers : origins.Covers known) (free : ∀ name, origins.name name)
    {program : List Stmt}
    (each : ∀ statement reached, Moment.Reached steps program machine statement reached →
      known ⟨steps, .node (.stmt statement), reached⟩)
    (permits : origins.Permits machine)
    (occurs : Moment.Occurs steps program machine moment) :
    known moment ∧ origins.PermitsMoment moment := by
  obtain ⟨statement, reached, reach, enters⟩ := occurs
  induction enters with
  | refl =>
      exact ⟨each statement reached reach, covers.of_reached free each permits reach, trivial⟩
  | @tail middle _ _ step ih =>
      refine ⟨?_, ih.2.enters covers free ih.1 step⟩
      obtain ⟨steps, activity, machine⟩ := middle
      cases activity with
      | node node => exact covers.enters ih.1 step
      | call callable arguments => exact covers.calls ih.1 ih.2.2.1 step

end Origins

namespace Session

variable {start : Session} {past : List (Nat × String)} {steps : Nat} {source : String}
variable {origins : Origins}

/-- Every moment of a text that is accepted on a permitted machine is permitted. -/
theorem Occurs.permits {moment : Moment}
    (covers : ∀ program, (start.after past).Accepts source program →
      origins.CoversRun steps program ((start.after past).bound program))
    (free : ∀ name, origins.name name) (permits : origins.Permits (start.after past).machine)
    (occurs : start.Occurs past steps source moment) : origins.PermitsMoment moment := by
  obtain ⟨program, accepts, happens⟩ := occurs
  obtain ⟨known, covered, each⟩ := covers program accepts
  have permitsBound : origins.Permits ((start.after past).bound program) :=
    permits.of_same rfl rfl
  exact (Origins.known_of_occurs covered free each permitsBound happens).2

end Session

end Lox
