import Lox.Proofs.Chronicle.Basic

/-!
# Writing down makes no difference

What is written down has no part in what the machine does. Forgetting it leaves the
very run that would take place without a chronicle, step by step.
-/

namespace Lox

/-- What happened on the machine, without what was written down. -/
def Chronicle.forget {α : Type} : EStateM.Result Halt Chronicle α → EStateM.Result Halt Machine α
  | .ok value after => .ok value after.machine
  | .error halt after => .error halt after.machine

/-- A step that is written down does on the machine what a plain step does. -/
def Chronicling.Forgets {α : Type} (step : Chronicling α) (plain : Run α) : Prop :=
  ∀ chronicle : Chronicle, Chronicle.forget (step chronicle) = plain chronicle.machine

namespace Chronicling

variable {α β : Type} {step : Chronicling α} {plain : Run α}

/-! ## Steps put together -/

theorem forgets_pure (value : α) : Forgets (pure value) (pure value) := fun _ => rfl

theorem forgets_throw (halt : Halt) : Forgets (throw halt : Chronicling α) (throw halt) :=
  fun _ => rfl

theorem forgets_lift (plain : Run α) : Forgets (lift plain) plain := by
  intro chronicle
  unfold lift
  cases plain chronicle.machine with
  | ok value after => rfl
  | error halt after => rfl

theorem Forgets.bind {next : α → Chronicling β} {plainNext : α → Run β}
    (front : Forgets step plain) (back : ∀ value, Forgets (next value) (plainNext value)) :
    Forgets (step >>= next) (plain >>= plainNext) := by
  intro chronicle
  have first := front chronicle
  change Chronicle.forget (EStateM.bind step next chronicle) =
    EStateM.bind plain plainNext chronicle.machine
  unfold EStateM.bind
  rw [← first]
  cases step chronicle with
  | ok value after => exact back value after
  | error halt after => rfl

/-- The machine is the same to both. -/
theorem forgets_get {next : Chronicle → Chronicling α} {plainNext : Machine → Run α}
    (back : ∀ chronicle, Forgets (next chronicle) (plainNext chronicle.machine)) :
    Forgets (get >>= next) (get >>= plainNext) :=
  fun chronicle => back chronicle chronicle

/-- Something is written down on the way. -/
theorem forgets_note {next : Unit → Chronicling α} (occurrence : Occurrence)
    (back : Forgets (next ()) plain) : Forgets (note occurrence >>= next) plain :=
  fun chronicle => back (chronicle.add occurrence)

theorem forgets_within (environment : Environment) (inside : Forgets step plain) :
    Forgets (within environment step) (Run.within environment plain) := by
  intro chronicle
  have same := inside
    (chronicle.proceed { chronicle.machine with environment := environment })
  unfold within Run.within
  dsimp only [Chronicle.proceed] at same ⊢
  rw [← same]
  cases step ⟨{ chronicle.machine with environment := environment },
    chronicle.past ++ [.moment { chronicle.machine with environment := environment }]⟩ with
  | ok value after => rfl
  | error halt after => rfl

/-- A step that succeeds on the machine succeeds where it is written down. -/
theorem Forgets.of_ok {before : Chronicle} {machine : Machine} {value : α}
    (forgets : Forgets step plain) (ran : plain before.machine = .ok value machine) :
    ∃ after, step before = .ok value after ∧ after.machine = machine := by
  rw [← forgets before] at ran
  cases found : step before with
  | ok result after =>
      rw [found] at ran
      cases ran
      exact ⟨after, rfl, rfl⟩
  | error halt after =>
      rw [found] at ran
      cases ran

/-! ## Functions, classes and instances -/

theorem forgets_declare (declaration : FunctionDecl) :
    Forgets (declare declaration) (Closure.declare declaration false) := by
  have noted (closure : Closure) :
      Forgets (do note (.function closure); return closure) (pure closure) :=
    forgets_note _ (forgets_pure closure)
  exact (forgets_lift _).bind noted

theorem forgets_bind (method : Closure) (object : Instance) :
    Forgets (bind method object) (method.bind object) := by
  have noted (bound : Closure) :
      Forgets (do note (.bound bound object); return bound) (pure bound) :=
    forgets_note _ (forgets_pure bound)
  exact (forgets_lift _).bind noted

theorem forgets_create (cls : Class) : Forgets (create cls) (Run.newInstance cls) := by
  have noted (object : Instance) :
      Forgets (do note (.created object); return object) (pure object) :=
    forgets_note _ (forgets_pure object)
  exact (forgets_lift _).bind noted

theorem forgets_property (object : Instance) (name : Token) :
    Forgets (property object name) (object.property name) := by
  apply forgets_get
  intro chronicle
  cases (chronicle.machine.store.fieldsOf object.reference).get? name.lexeme with
  | some value => exact forgets_pure value
  | none =>
      exact (forgets_lift _).bind fun method => (forgets_bind method object).bind fun _ =>
        forgets_pure _

theorem forgets_setProperty (object : Instance) (name : Token) (value : Value) :
    Forgets (setProperty object name value) (object.setProperty name value) :=
  forgets_note _ (forgets_lift _)

theorem forgets_superMethod (reference : Reference) (method : Token) :
    Forgets (superMethod reference method) (Lox.superMethod reference method) := by
  apply forgets_get
  intro chronicle
  apply (forgets_lift _).bind
  intro distance
  generalize chronicle.machine.environment.lookupAt? chronicle.machine.store distance "super" =
    above
  cases above with
  | none => exact forgets_lift _
  | some above =>
      cases above with
      | cls superclass =>
          cases distance with
          | zero => exact forgets_lift _
          | succ distance =>
              dsimp only
              generalize
                chronicle.machine.environment.lookupAt? chronicle.machine.store distance "this"
                  = held
              cases held with
              | none => exact forgets_lift _
              | some held =>
                  cases held with
                  | object object =>
                      exact (forgets_lift _).bind fun found =>
                        (forgets_bind found object).bind fun _ => forgets_pure _
                  | _ => exact forgets_lift _
      | _ => exact forgets_lift _

theorem forgets_declareClass (name : Token) (superclass : Option Class)
    (methods : List FunctionDecl) :
    Forgets (declareClass name superclass methods) (Lox.declareClass name superclass methods) := by
  apply (forgets_lift _).bind
  intro _
  apply forgets_get
  intro chronicle
  apply (forgets_lift _).bind
  intro inner
  apply (forgets_lift _).bind
  intro members
  exact (forgets_lift _).bind fun identity => forgets_note _ (forgets_lift _)

/-! ## Lists -/

theorem forgets_sequence {execute : Stmt → Chronicling Flow} {plain : Stmt → Run Flow}
    (forgets : ∀ statement, Forgets (execute statement) (plain statement))
    (statements : List Stmt) :
    Forgets (sequence execute statements) (Flow.sequence plain statements) := by
  induction statements with
  | nil => exact forgets_pure _
  | cons first rest ih =>
      apply (forgets first).bind
      intro flow
      cases flow with
      | normal => exact ih
      | returned value => exact forgets_pure _

theorem forgets_goesOn {evaluate : Expr → Chronicling Value} {plain : Expr → Run Value}
    (forgets : ∀ value, Forgets (evaluate value) (plain value)) (condition : Option Expr) :
    Forgets (goesOn evaluate condition) (Run.goesOn plain condition) := by
  cases condition with
  | none => exact forgets_pure _
  | some value => exact (forgets value).bind fun _ => forgets_pure _

theorem forgets_collect {evaluate : Expr → Chronicling Value} {plain : Expr → Run Value}
    (forgets : ∀ value, Forgets (evaluate value) (plain value)) (values : List Expr) :
    Forgets (collect evaluate values) (Run.collect plain values) := by
  induction values with
  | nil => exact forgets_pure _
  | cons first rest ih =>
      exact (forgets first).bind fun _ => ih.bind fun _ => forgets_pure _

/-! ## Evaluation -/

/-- What takes no more than a number of steps happens without a chronicle in the same
way. -/
structure ForgetsWithin (steps : Nat) : Prop where
  evaluate : ∀ value, Forgets (evaluate steps value) (Lox.evaluate steps value)
  execute : ∀ statement, Forgets (execute steps statement) (Lox.execute steps statement)
  invoke : ∀ callable arguments line,
    Forgets (invoke steps callable arguments line) (Lox.invoke steps callable arguments line)

section Step

variable {steps : Nat} (below : ForgetsWithin steps)
include below

theorem forgets_evaluate (value : Expr) :
    Forgets (evaluate (steps + 1) value) (Lox.evaluate (steps + 1) value) := by
  cases value with
  | literal literal => exact forgets_pure _
  | grouping inner => exact below.evaluate inner
  | unary operator operand => exact (below.evaluate operand).bind fun _ => forgets_lift _
  | binary left operator right =>
      exact (below.evaluate left).bind fun _ => (below.evaluate right).bind fun _ => forgets_lift _
  | logical left operator right =>
      apply (below.evaluate left).bind
      intro one
      split
      · exact forgets_pure one
      · exact below.evaluate right
  | «variable» reference => exact forgets_lift _
  | assign reference value =>
      exact (below.evaluate value).bind fun _ => (forgets_lift _).bind fun _ => forgets_pure _
  | call callee paren arguments =>
      apply (below.evaluate callee).bind
      intro function
      apply (forgets_collect below.evaluate arguments).bind
      intro values
      cases function.callable? with
      | none => exact forgets_lift _
      | some callable =>
          dsimp only
          split
          · exact below.invoke callable values paren.line
          · exact forgets_lift _
  | get object name =>
      apply (below.evaluate object).bind
      intro value
      cases value with
      | object found => exact forgets_property found name
      | _ => exact forgets_lift _
  | set object name value =>
      apply (below.evaluate object).bind
      intro target
      cases target with
      | object found =>
          exact (below.evaluate value).bind fun _ =>
            (forgets_setProperty found name _).bind fun _ => forgets_pure _
      | _ => exact forgets_lift _
  | this reference => exact forgets_lift _
  | super reference method => exact forgets_superMethod reference method

theorem forgets_execute (statement : Stmt) :
    Forgets (execute (steps + 1) statement) (Lox.execute (steps + 1) statement) := by
  cases statement with
  | expression value => exact (below.evaluate value).bind fun _ => forgets_pure _
  | print value =>
      exact (below.evaluate value).bind fun _ => (forgets_lift _).bind fun _ => forgets_pure _
  | var name initializer =>
      cases initializer with
      | none => exact (forgets_lift _).bind fun _ => forgets_pure _
      | some value =>
          exact (below.evaluate value).bind fun _ => (forgets_lift _).bind fun _ => forgets_pure _
  | block body =>
      apply forgets_get
      intro chronicle
      apply (forgets_lift _).bind
      exact fun inner => forgets_within inner (forgets_sequence below.execute body)
  | conditional condition consequent alternative =>
      apply (below.evaluate condition).bind
      intro value
      split
      · exact below.execute consequent
      · cases alternative with
        | none => exact forgets_pure _
        | some other => exact below.execute other
  | whileLoop condition body =>
      apply (below.evaluate condition).bind
      intro value
      split
      · apply (below.execute body).bind
        intro flow
        cases flow with
        | normal => exact below.execute (.whileLoop condition body)
        | returned value => exact forgets_pure _
      · exact forgets_pure _
  | forLoop initializer condition increment body =>
      cases initializer with
      | some clause => exact (below.execute clause).bind fun _ => below.execute _
      | none =>
          apply (forgets_goesOn below.evaluate condition).bind
          intro goesOn
          split
          · apply (below.execute body).bind
            intro flow
            cases flow with
            | returned value => exact forgets_pure _
            | normal =>
                cases increment with
                | none => exact below.execute _
                | some step => exact (below.evaluate step).bind fun _ => below.execute _
          · exact forgets_pure _
  | function declaration =>
      exact (forgets_declare declaration).bind fun _ => (forgets_lift _).bind fun _ =>
        forgets_pure _
  | returning keyword value =>
      cases value with
      | none => exact forgets_pure _
      | some value => exact (below.evaluate value).bind fun _ => forgets_pure _
  | classDecl name superclass methods =>
      cases superclass with
      | none => exact (forgets_declareClass name none methods).bind fun _ => forgets_pure _
      | some value =>
          apply (below.evaluate value).bind
          intro result
          apply (forgets_lift _).bind
          intro found
          exact (forgets_declareClass name (some found) methods).bind fun _ => forgets_pure _

theorem forgets_invoke (callable : Callable) (arguments : List Value) (line : Nat) :
    Forgets (invoke (steps + 1) callable arguments line)
      (Lox.invoke (steps + 1) callable arguments line) := by
  cases callable with
  | native function => exact forgets_lift _
  | function closure =>
      apply (forgets_lift _).bind
      intro inner
      have body := forgets_sequence below.execute closure.declaration.body
      exact (forgets_within inner body).bind fun flow => forgets_lift _
  | cls found =>
      apply (forgets_create found).bind
      intro object
      cases found.initializer? with
      | none => exact forgets_pure _
      | some initializer =>
          exact (forgets_bind initializer object).bind fun bound =>
            (below.invoke _ arguments line).bind fun _ => forgets_pure _

end Step

/-- Everything happens without a chronicle in the same way, however many steps it
takes. -/
theorem forgetsWithin (steps : Nat) : ForgetsWithin steps := by
  induction steps with
  | zero =>
      exact ⟨fun _ => forgets_throw _, fun _ => forgets_throw _, fun _ _ _ => forgets_throw _⟩
  | succ steps ih =>
      exact ⟨forgets_evaluate ih, forgets_execute ih, forgets_invoke ih⟩

/-- A program runs without a chronicle as it does with one. -/
theorem forgets_interpret (steps : Nat) (program : List Stmt) :
    Forgets (interpret steps program) (Lox.interpret steps program) := by
  induction program with
  | nil => exact forgets_lift _
  | cons first rest ih => exact ((forgetsWithin steps).execute first).bind fun _ => ih

end Chronicling

end Lox
