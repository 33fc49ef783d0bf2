import Lox.Proofs.Origins.Basic

/-!
# Runs keep to permitted origins

Evaluation keeps a machine permitted if every function is permitted where its declaration
is come to, and so is every name that a statement declares where the innermost scope is
the global one. Nothing else makes a global: assignments never do, since a noted distance
does not lead to the globals, and calls, blocks and classes open scopes of their own.

The walk goes by induction on the steps. Each case starts at a moment of which something is
known, and the same is known of the moments that it enters.
-/

namespace Lox

namespace Origins

/-- What is known of the moments of a run goes on to the moments that they enter, as long as
what is called is permitted. It is enough to keep assignments off the globals and to permit
the functions that are declared. -/
structure Covers (origins : Origins) (known : Moment → Prop) : Prop where
  enters : ∀ {steps : Nat} {node : Node} {machine : Machine} {next : Moment},
    known ⟨steps, .node node, machine⟩ →
    Moment.Enters ⟨steps, .node node, machine⟩ next → known next
  calls : ∀ {steps : Nat} {callable : Callable} {arguments : List Value} {machine : Machine}
      {next : Moment},
    known ⟨steps, .call callable arguments, machine⟩ → origins.PermitsCallable callable →
    Moment.Enters ⟨steps, .call callable arguments, machine⟩ next → known next
  apart : ∀ {steps : Nat} {reference : Reference} {value : Expr} {machine : Machine},
    known ⟨steps, .node (.expr (.assign reference value)), machine⟩ →
    ∀ distance, machine.distances.get? reference.id = some distance →
      machine.environment.scopeAt? distance ≠ some globalScope
  function : ∀ {steps : Nat} {declaration : FunctionDecl} {machine : Machine},
    known ⟨steps, .node (.stmt (.function declaration)), machine⟩ →
    ∀ identity, origins.function ⟨identity, declaration, machine.environment, false⟩
  methods : ∀ {steps : Nat} {name : Token} {superclass : Option Expr}
      {methods : List FunctionDecl} {machine : Machine},
    known ⟨steps, .node (.stmt (.classDecl name superclass methods)), machine⟩ →
    ∀ method ∈ methods, ∀ identity isInitializer opened,
      opened.length = superclass.toList.length →
        origins.PermitsMethod ⟨identity, method, opened ++ machine.environment, isInitializer⟩

/-- Names that may be declared where a machine is: any names inside of a local scope, and
permitted ones elsewhere. -/
def Admits (origins : Origins) (machine : Machine) (names : List String) : Prop :=
  ∀ outer, machine.environment = globalScope :: outer → ∀ name ∈ names, origins.name name

variable {origins : Origins} {known : Moment → Prop}
variable {before after machine : Machine} {steps : Nat}

theorem Admits.of_subset {names more : List String} (admits : origins.Admits before more)
    (same : after.environment = before.environment) (among : names ⊆ more) :
    origins.Admits after names :=
  fun outer around name inside => admits outer (same ▸ around) name (among inside)

/-- A machine that is back in the same place admits the same names. -/
theorem Admits.back {names : List String} (admits : origins.Admits before names)
    (back : before.Back after) : origins.Admits after names :=
  admits.of_subset back.environment (List.Subset.refl _)

theorem admits_of_ne {scope : ScopeRef} {outer : Environment} (apart : scope ≠ globalScope)
    (around : machine.environment = scope :: outer) (names : List String) :
    origins.Admits machine names := by
  intro other same
  rw [around] at same
  exact absurd (List.cons.inj same).1 apart

variable (origins known) in
/-- Everything keeps to permitted origins that takes no more than a number of steps. -/
structure KeepsWithin (steps : Nat) : Prop where
  evaluate : ∀ {value : Expr} {machine : Machine},
    known ⟨steps, .node (.expr value), machine⟩ →
    origins.Permits machine → origins.Keeps (evaluate steps value) machine origins.PermitsValue
  execute : ∀ {statement : Stmt} {machine : Machine},
    known ⟨steps, .node (.stmt statement), machine⟩ →
    origins.Permits machine → origins.Admits machine statement.declares →
    origins.Keeps (execute steps statement) machine origins.PermitsFlow
  invoke : ∀ {callable : Callable} {arguments : List Value} {line : Nat} {machine : Machine},
    known ⟨steps, .call callable arguments, machine⟩ →
    origins.Permits machine → origins.PermitsCallable callable →
    (∀ value ∈ arguments, origins.PermitsValue value) →
    origins.Keeps (invoke steps callable arguments line) machine origins.PermitsValue

/-! ## Lists -/

/-- Expressions one after another, each of them where those before it have ended. -/
theorem keeps_collect {values : List Expr} {start : Machine}
    (each : ∀ front value back results middle, values = front ++ value :: back →
      Run.collect (evaluate steps) front start = .ok results middle → origins.Permits middle →
      origins.Keeps (evaluate steps value) middle origins.PermitsValue)
    (permits : origins.Permits start) :
    origins.Keeps (Run.collect (evaluate steps) values) start fun results =>
      ∀ result ∈ results, origins.PermitsValue result := by
  induction values generalizing start with
  | nil => exact keeps_pure permits (by simp)
  | cons first rest ih =>
      apply (each [] first rest [] start rfl rfl permits).bind
      intro value middle ran permitsMiddle permitted
      have later (front : List Expr) (other : Expr) (back : List Expr) (results : List Value)
          (last : Machine) (shape : rest = front ++ other :: back)
          (collected : Run.collect (evaluate steps) front middle = .ok results last)
          (permitsLast : origins.Permits last) :
          origins.Keeps (evaluate steps other) last origins.PermitsValue := by
        refine each (first :: front) other back (value :: results) last (by simp [shape]) ?_
          permitsLast
        exact Run.bind_ok.mpr ⟨value, middle, ran, Run.bind_ok.mpr ⟨results, last, collected, rfl⟩⟩
      apply (ih later permitsMiddle).bind
      intro values last _ permitsLast permittedRest
      apply keeps_pure permitsLast
      intro result inside
      rcases List.mem_cons.mp inside with rfl | behind
      · exact permitted
      · exact permittedRest result behind

/-- Statements one after another, up to one that returns. -/
theorem keeps_sequence {body : List Stmt} {start : Machine}
    (each : ∀ front statement back middle, body = front ++ statement :: back →
      Flow.sequence (execute steps) front start = .ok .normal middle → origins.Permits middle →
      origins.Keeps (execute steps statement) middle origins.PermitsFlow)
    (permits : origins.Permits start) :
    origins.Keeps (Flow.sequence (execute steps) body) start origins.PermitsFlow := by
  induction body generalizing start with
  | nil => exact keeps_pure permits trivial
  | cons first rest ih =>
      apply (each [] first rest start rfl rfl permits).bind
      intro flow middle ran permitsMiddle permitted
      cases flow with
      | returned value => exact keeps_pure permitsMiddle permitted
      | normal =>
          apply ih _ permitsMiddle
          intro front statement back last shape followed permitsLast
          refine each (first :: front) statement back last (by simp [shape]) ?_ permitsLast
          exact Run.bind_ok.mpr ⟨.normal, middle, ran, followed⟩

/-! ## Expressions -/

theorem keeps_evaluate (covers : origins.Covers known)
    (below : KeepsWithin origins known steps) {value : Expr}
    (here : known ⟨steps + 1, .node (.expr value), machine⟩)
    (permits : origins.Permits machine) :
    origins.Keeps (evaluate (steps + 1) value) machine origins.PermitsValue := by
  cases value with
  | literal value => exact keeps_pure permits (permits_of_isPlain (isPlain_literal value))
  | grouping inner => exact below.evaluate (covers.enters here .grouping) permits
  | unary operator operand =>
      apply (below.evaluate (covers.enters here .operand) permits).bind
      intro value middle _ permitsMiddle _
      exact keeps_ofOperator permitsMiddle operator fun _ => isPlain_unary
  | binary left operator right =>
      apply (below.evaluate (covers.enters here .left) permits).bind
      intro one middle ran permitsMiddle _
      apply (below.evaluate (covers.enters here (.right ran)) permitsMiddle).bind
      intro other last _ permitsLast _
      exact keeps_ofOperator permitsLast operator fun _ => isPlain_binary
  | logical left operator right =>
      apply (below.evaluate (covers.enters here .logicalLeft) permits).bind
      intro one middle ran permitsMiddle permitted
      split
      · exact keeps_pure permitsMiddle permitted
      · next undecided =>
          have goesOn := Bool.not_eq_true _ ▸ undecided
          exact below.evaluate (covers.enters here (.logicalRight ran goesOn)) permitsMiddle
  | «variable» reference => exact keeps_read permits reference
  | assign reference value =>
      apply (below.evaluate (covers.enters here .assigned) permits).bind
      intro result middle ran permitsMiddle permitted
      have back := back_of_evaluate ran
      apply (keeps_write permitsMiddle _ permitted).bind
      · exact fun _ last _ permitsLast _ => keeps_pure permitsLast permitted
      · intro distance noted
        rw [back.environment]
        rw [back.distances] at noted
        exact covers.apart here distance noted
  | call callee paren arguments =>
      apply (below.evaluate (covers.enters here .callee) permits).bind
      intro function middle ran permitsMiddle permitted
      have each (front : List Expr) (value : Expr) (back : List Expr) (results : List Value)
          (last : Machine) (shape : arguments = front ++ value :: back)
          (collected : Run.collect (evaluate steps) front middle = .ok results last)
          (permitsLast : origins.Permits last) :
          origins.Keeps (evaluate steps value) last origins.PermitsValue := by
        subst shape
        exact below.evaluate (covers.enters here (.argument ran collected)) permitsLast
      apply (keeps_collect each permitsMiddle).bind
      intro values last collected permitsLast permittedValues
      split
      · exact keeps_fail permitsLast
      · next callable found =>
          split
          · next enough =>
              exact below.invoke (covers.enters here (.call ran collected found enough)) permitsLast
                (permitted.callable found) permittedValues
          · exact keeps_fail permitsLast
  | get object name =>
      apply (below.evaluate (covers.enters here .object) permits).bind
      intro found middle _ permitsMiddle permitted
      cases found with
      | object found => exact keeps_property permitsMiddle permitted name
      | _ => exact keeps_fail permitsMiddle
  | set object name value =>
      apply (below.evaluate (covers.enters here .changed) permits).bind
      intro found middle ran permitsMiddle _
      cases found with
      | object found =>
          apply (below.evaluate (covers.enters here (.stored ran)) permitsMiddle).bind
          intro result last _ permitsLast permitted
          exact ⟨permitsLast.setField found.reference name.lexeme permitted, permitted⟩
      | _ => exact keeps_fail permitsMiddle
  | this reference => exact keeps_read permits reference
  | super reference method => exact keeps_superMethod permits reference method

/-! ## Statements -/

/-- Whether a loop goes on. -/
theorem keeps_goesOn {condition : Option Expr}
    (each : ∀ value, condition = some value →
      origins.Keeps (evaluate steps value) machine origins.PermitsValue)
    (permits : origins.Permits machine) :
    origins.Keeps (Run.goesOn (evaluate steps) condition) machine fun _ => True := by
  cases condition with
  | none => exact keeps_pure permits trivial
  | some value =>
      apply (each value rfl).bind
      exact fun _ _ _ permitsMiddle _ => keeps_pure permitsMiddle trivial

/-- A body in a scope of its own. -/
theorem keeps_inside {body : List Stmt} {inner : Environment} {opened : Machine}
    (below : KeepsWithin origins known steps)
    (own : ∃ scope outer, inner = scope :: outer ∧ scope ≠ globalScope)
    (each : ∀ front statement back middle, body = front ++ statement :: back →
      Flow.sequence (execute steps) front { opened with environment := inner } =
        .ok .normal middle →
      known ⟨steps, .node (.stmt statement), middle⟩)
    (permits : origins.Permits opened) :
    origins.Keeps (Run.within inner (Flow.sequence (execute steps) body)) opened
      origins.PermitsFlow := by
  have permitsInside : origins.Permits { opened with environment := inner } :=
    permits.of_same rfl rfl
  refine keeps_within (keeps_sequence ?_ permitsInside)
  intro front statement back middle shape ran permitsMiddle
  obtain ⟨scope, outer, around, apart⟩ := own
  have same := (back_of_sequence ran).environment
  exact below.execute (each front statement back middle shape ran) permitsMiddle
    (admits_of_ne apart (same.trans around) _)

/-- A name that a statement declares where a machine has come to, back in the environment
in which it started. -/
theorem Admits.define {name : String} (admits : origins.Admits before [name])
    (same : after.environment = before.environment) (permits : origins.Permits after)
    {value : Value} (permitted : origins.PermitsValue value) :
    origins.Keeps (Run.define name value) after fun _ => True := by
  apply keeps_define permits _ permitted
  exact fun outer around => admits outer (same ▸ around) name List.mem_cons_self

theorem keeps_var (covers : origins.Covers known)
    (below : KeepsWithin origins known steps) {name : Token}
    {initializer : Option Expr}
    (here : known
      ⟨steps + 1, .node (.stmt (.var name initializer)), machine⟩)
    (permits : origins.Permits machine) (admits : origins.Admits machine [name.lexeme]) :
    origins.Keeps (execute (steps + 1) (.var name initializer)) machine origins.PermitsFlow := by
  cases initializer with
  | none =>
      have permitted : origins.PermitsValue .nil := trivial
      apply (admits.define rfl permits permitted).bind
      exact fun _ _ _ permitsMiddle _ => keeps_pure permitsMiddle trivial
  | some value =>
      apply (below.evaluate (covers.enters here .initializer) permits).bind
      intro result middle ran permitsMiddle permitted
      apply (admits.define (back_of_evaluate ran).environment permitsMiddle permitted).bind
      exact fun _ _ _ permitsLast _ => keeps_pure permitsLast trivial

theorem keeps_conditional (covers : origins.Covers known)
    (below : KeepsWithin origins known steps) {condition : Expr}
    {consequent : Stmt} {alternative : Option Stmt}
    (here : known
      ⟨steps + 1, .node (.stmt (.conditional condition consequent alternative)), machine⟩)
    (permits : origins.Permits machine)
    (admits : origins.Admits machine (consequent.declares ++ Stmt.optionDeclares alternative)) :
    origins.Keeps (execute (steps + 1) (.conditional condition consequent alternative)) machine
      origins.PermitsFlow := by
  apply (below.evaluate (covers.enters here .condition) permits).bind
  intro value middle ran permitsMiddle _
  have same := (back_of_evaluate ran).environment
  split
  · next holds =>
      exact below.execute (covers.enters here (.consequent ran holds)) permitsMiddle
        (admits.of_subset same (List.subset_append_left _ _))
  · next fails =>
      cases alternative with
      | none => exact keeps_pure permitsMiddle trivial
      | some alternative =>
          have untrue := Bool.not_eq_true _ ▸ fails
          exact below.execute (covers.enters here (.alternative ran untrue)) permitsMiddle
            (admits.of_subset same (List.subset_append_right _ _))

theorem keeps_whileLoop (covers : origins.Covers known)
    (below : KeepsWithin origins known steps) {condition : Expr}
    {body : Stmt}
    (here : known
      ⟨steps + 1, .node (.stmt (.whileLoop condition body)), machine⟩)
    (permits : origins.Permits machine) (admits : origins.Admits machine body.declares) :
    origins.Keeps (execute (steps + 1) (.whileLoop condition body)) machine
      origins.PermitsFlow := by
  apply (below.evaluate (covers.enters here .whileCondition) permits).bind
  intro value middle ran permitsMiddle _
  split
  · next holds =>
      have admitsMiddle := admits.back (back_of_evaluate ran)
      have entered := covers.enters here (.whileBody ran holds)
      apply (below.execute entered permitsMiddle admitsMiddle).bind
      intro flow last round permitsLast permitted
      cases flow with
      | returned value => exact keeps_pure permitsLast permitted
      | normal =>
          exact below.execute (covers.enters here (.whileAgain ran holds round)) permitsLast
            (admitsMiddle.back (back_of_execute round))
  · exact keeps_pure permitsMiddle trivial

/-- A loop behind its first clause. -/
theorem keeps_forLoop (covers : origins.Covers known)
    (below : KeepsWithin origins known steps)
    {condition increment : Option Expr} {body : Stmt}
    (here : known
      ⟨steps + 1, .node (.stmt (.forLoop none condition increment body)), machine⟩)
    (permits : origins.Permits machine) (admits : origins.Admits machine body.declares) :
    origins.Keeps (execute (steps + 1) (.forLoop none condition increment body)) machine
      origins.PermitsFlow := by
  have each (value : Expr) (given : condition = some value) :
      origins.Keeps (evaluate steps value) machine origins.PermitsValue := by
    subst given
    exact below.evaluate (covers.enters here .forCondition) permits
  apply (keeps_goesOn each permits).bind
  intro goesOn middle ran permitsMiddle _
  cases goesOn with
  | false => exact keeps_pure permitsMiddle trivial
  | true =>
      have admitsMiddle := admits.back (back_of_goesOn ran)
      apply (below.execute (covers.enters here (.forBody ran)) permitsMiddle admitsMiddle).bind
      intro flow last round permitsLast permitted
      have admitsLast := admitsMiddle.back (back_of_execute round)
      cases flow with
      | returned value => exact keeps_pure permitsLast permitted
      | normal =>
          cases increment with
          | none =>
              exact below.execute (covers.enters here (.forAgain ran round)) permitsLast admitsLast
          | some step =>
              apply (below.evaluate (covers.enters here (.forIncrement ran round)) permitsLast).bind
              intro value final stepped permitsFinal _
              exact below.execute (covers.enters here (.forNext ran round stepped)) permitsFinal
                (admitsLast.back (back_of_evaluate stepped))

theorem keeps_classDecl (covers : origins.Covers known)
    (below : KeepsWithin origins known steps) {name : Token} {superclass : Option Expr}
    {methods : List FunctionDecl}
    (here : known
      ⟨steps + 1, .node (.stmt (.classDecl name superclass methods)), machine⟩)
    (permits : origins.Permits machine) (admits : origins.Admits machine [name.lexeme]) :
    origins.Keeps (execute (steps + 1) (.classDecl name superclass methods)) machine
      origins.PermitsFlow := by
  -- The name of the class is declared where the statement started.
  have global {last : Machine} (same : last.environment = machine.environment)
      (outer : Environment) (around : last.environment = globalScope :: outer) :
      origins.name name.lexeme :=
    admits outer (same ▸ around) _ List.mem_cons_self
  cases superclass with
  | none =>
      have inherited (cls : Class) (absent : (none : Option Class) = some cls) :
          origins.PermitsClass cls := nomatch absent
      apply (keeps_declareClass permits (global rfl) inherited (covers.methods here)).bind
      exact fun _ _ _ permitsMiddle _ => keeps_pure permitsMiddle trivial
  | some superclass =>
      apply (below.evaluate (covers.enters here .superclass) permits).bind
      intro value middle ran permitsMiddle permitted
      apply (keeps_superclassOf permitsMiddle name superclass permitted).bind
      intro found last inherits permitsLast permittedClass
      have checked := (restores_superclassOf name superclass value).of_ok inherits
      have same := checked.environment.trans (back_of_evaluate ran).environment
      have inherited (cls : Class) (given : some found = some cls) :
          origins.PermitsClass cls := Option.some.inj given ▸ permittedClass
      have declared := covers.methods here
      rw [← same] at declared
      apply (keeps_declareClass permitsLast (global same) inherited declared).bind
      exact fun _ _ _ permitsFinal _ => keeps_pure permitsFinal trivial

theorem keeps_execute (covers : origins.Covers known)
    (below : KeepsWithin origins known steps) {statement : Stmt}
    (here : known ⟨steps + 1, .node (.stmt statement), machine⟩)
    (permits : origins.Permits machine) (admits : origins.Admits machine statement.declares) :
    origins.Keeps (execute (steps + 1) statement) machine origins.PermitsFlow := by
  cases statement with
  | expression value =>
      apply (below.evaluate (covers.enters here .effect) permits).bind
      exact fun _ _ _ permitsMiddle _ => keeps_pure permitsMiddle trivial
  | print value =>
      apply (below.evaluate (covers.enters here .printed) permits).bind
      intro result middle _ permitsMiddle _
      apply (keeps_print permitsMiddle result).bind
      exact fun _ _ _ permitsLast _ => keeps_pure permitsLast trivial
  | var name initializer =>
      rw [Stmt.declares] at admits
      exact keeps_var covers below here permits admits
  | block body =>
      apply keeps_get_bind
      have empty (name : String) (value : Value)
          (held : (Bindings.empty : Bindings Value).get? name = some value) :
          origins.PermitsValue value := nomatch held
      apply (keeps_newScope permits machine.environment empty).bind
      rintro inner opened entered permitsOpened ⟨scope, around, apart⟩
      refine keeps_inside below ⟨scope, _, around, apart⟩ ?_ permitsOpened
      intro front statement back middle shape ran
      subst shape
      exact covers.enters here (.member entered ran)
  | conditional condition consequent alternative =>
      rw [Stmt.declares] at admits
      exact keeps_conditional covers below here permits admits
  | whileLoop condition body =>
      rw [Stmt.declares] at admits
      exact keeps_whileLoop covers below here permits admits
  | forLoop initializer condition increment body =>
      rw [Stmt.declares] at admits
      cases initializer with
      | none => exact keeps_forLoop covers below here permits admits
      | some initializer =>
          apply (below.execute (covers.enters here .forInitializer) permits
            (admits.of_subset rfl (List.subset_append_left _ _))).bind
          intro flow middle ran permitsMiddle _
          exact below.execute (covers.enters here (.forRest ran)) permitsMiddle
            (admits.of_subset (back_of_execute ran).environment (List.subset_append_right _ _))
  | function declaration =>
      rw [Stmt.declares] at admits
      apply (keeps_declare permits (covers.function here)).bind
      intro closure middle ran permitsMiddle permitted
      have same := ((restores_declare declaration false).of_ok ran).environment
      have value : origins.PermitsValue (.function closure) := permitted
      apply (admits.define same permitsMiddle value).bind
      exact fun _ _ _ permitsLast _ => keeps_pure permitsLast trivial
  | returning keyword value =>
      cases value with
      | none => exact keeps_pure permits trivial
      | some value =>
          apply (below.evaluate (covers.enters here .returned) permits).bind
          exact fun _ _ _ permitsMiddle permitted => keeps_pure permitsMiddle permitted
  | classDecl name superclass methods =>
      rw [Stmt.declares] at admits
      exact keeps_classDecl covers below here permits admits

/-! ## Calls -/

theorem keeps_result (closure : Closure) {flow : Flow} (permits : origins.Permits machine)
    (permitted : origins.PermitsFlow flow) :
    origins.Keeps (closure.result flow) machine origins.PermitsValue := by
  unfold Closure.result
  split
  · apply keeps_get_bind
    apply keeps_orFail permits
    intro value found
    obtain ⟨scope, _, held⟩ := Option.bind_eq_some_iff.mp found
    exact permits.held scope _ value held
  · cases flow with
    | returned value => exact keeps_pure permits permitted
    | normal => exact keeps_pure permits trivial

theorem keeps_invoke (covers : origins.Covers known) (below : KeepsWithin origins known steps)
    {callable : Callable} {arguments : List Value} {line : Nat}
    (here : known ⟨steps + 1, .call callable arguments, machine⟩)
    (permits : origins.Permits machine) (permitted : origins.PermitsCallable callable)
    (given : ∀ value ∈ arguments, origins.PermitsValue value) :
    origins.Keeps (invoke (steps + 1) callable arguments line) machine origins.PermitsValue := by
  cases callable with
  | native function => exact keeps_callHost permits function arguments line
  | function closure =>
      have parameters (name : String) (value : Value)
          (held : (closure.parameterBindings arguments).get? name = some value) :
          origins.PermitsValue value := given value (mem_of_parameterBindings held)
      apply (keeps_newScope permits closure.environment parameters).bind
      rintro inner opened entered permitsOpened ⟨scope, around, apart⟩
      have each (front : List Stmt) (statement : Stmt) (back : List Stmt) (middle : Machine)
          (shape : closure.declaration.body = front ++ statement :: back)
          (ran : Flow.sequence (execute steps) front { opened with environment := inner } =
            .ok .normal middle) :
          known ⟨steps, .node (.stmt statement), middle⟩ :=
        covers.calls here permitted (.body entered shape ran)
      apply (keeps_inside below ⟨scope, _, around, apart⟩ each permitsOpened).bind
      exact fun flow last _ permitsLast permittedFlow =>
        keeps_result closure permitsLast permittedFlow
  | cls found =>
      apply (keeps_newInstance permits permitted).bind
      intro object created made permitsCreated receiver
      have value : origins.PermitsValue (.object object) := receiver
      cases initializes : found.initializer? with
      | none => exact keeps_pure permitsCreated value
      | some initializer =>
          apply (keeps_bindMethod permitsCreated (permitted.method initializes) receiver).bind
          intro bound middle attached permitsMiddle boundPermitted
          have callable : origins.PermitsCallable (.function bound) := boundPermitted
          have entered := covers.calls here permitted (.construct made initializes attached)
          apply (below.invoke entered permitsMiddle callable given).bind
          exact fun _ last _ permitsLast _ => keeps_pure permitsLast value

/-! ## Everything together -/

/-- Everything keeps to permitted origins, however many steps it takes. -/
theorem keepsWithin (covers : origins.Covers known) (steps : Nat) :
    KeepsWithin origins known steps := by
  induction steps with
  | zero =>
      exact ⟨fun _ permits => keeps_throw permits, fun _ permits _ => keeps_throw permits,
        fun _ permits _ _ => keeps_throw permits⟩
  | succ steps ih =>
      exact ⟨keeps_evaluate covers ih, keeps_execute covers ih, keeps_invoke covers ih⟩

/-- A program keeps to permitted origins, if the names that it declares outside of all
scopes are permitted. -/
theorem keeps_interpret (covers : origins.Covers known) {program : List Stmt}
    (sound : ∀ statement reached, Moment.Reached steps program machine statement reached →
      known ⟨steps, .node (.stmt statement), reached⟩)
    (permits : origins.Permits machine)
    (declared : ∀ name ∈ Stmt.listDeclares program, origins.name name) :
    origins.Keeps (interpret steps program) machine fun _ => True := by
  induction program generalizing machine with
  | nil => exact keeps_flush permits
  | cons first rest ih =>
      rw [Stmt.listDeclares] at declared
      have admits : origins.Admits machine first.declares :=
        fun _ _ name inside => declared name (List.mem_append_left _ inside)
      apply ((keepsWithin covers steps).execute (sound first machine .here) permits admits).bind
      intro flow middle ran permitsMiddle _
      apply ih _ permitsMiddle fun name inside => declared name (List.mem_append_right _ inside)
      exact fun statement reached reach => sound statement reached (.later ran reach)

end Origins

end Lox
