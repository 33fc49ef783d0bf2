import Lox.Proofs.Receivers.Watch

/-!
# Watching makes no difference

What is noted about receivers has no part in what the machine does. Forgetting
it leaves the very run that would take place unwatched, step by step.
-/

namespace Lox

/-- What happened on the machine, without what was noted. -/
def Watch.forget {α : Type} : EStateM.Result Halt Watch α → EStateM.Result Halt Machine α
  | .ok value after => .ok value after.machine
  | .error halt after => .error halt after.machine

/-- A watched step does on the machine what a plain step does. -/
def Watching.Forgets {α : Type} (watching : Watching α) (plain : Run α) : Prop :=
  ∀ watch : Watch, Watch.forget (watching watch) = plain watch.machine

namespace Watching

variable {α β : Type} {watching : Watching α} {plain : Run α}

/-! ## Steps put together -/

theorem forgets_pure (value : α) : Forgets (pure value) (pure value) := fun _ => rfl

theorem forgets_throw (halt : Halt) : Forgets (throw halt : Watching α) (throw halt) :=
  fun _ => rfl

theorem forgets_lift (step : Run α) : Forgets (lift step) step := by
  intro watch
  unfold lift
  cases step watch.machine with
  | ok value after => rfl
  | error halt after => rfl

theorem Forgets.bind {next : α → Watching β} {plainNext : α → Run β}
    (front : Forgets watching plain) (back : ∀ value, Forgets (next value) (plainNext value)) :
    Forgets (watching >>= next) (plain >>= plainNext) := by
  intro watch
  have first := front watch
  change Watch.forget (EStateM.bind watching next watch) =
    EStateM.bind plain plainNext watch.machine
  unfold EStateM.bind
  rw [← first]
  cases watching watch with
  | ok value after => exact back value after
  | error halt after => rfl

/-- The machine is the same to both. -/
theorem forgets_get {next : Watch → Watching α} {plainNext : Machine → Run α}
    (back : ∀ watch, Forgets (next watch) (plainNext watch.machine)) :
    Forgets (get >>= next) (get >>= plainNext) :=
  fun watch => back watch watch

/-- What is noted may be looked at on the way. -/
theorem forgets_look {next : Watch → Watching α}
    (back : ∀ watch, Forgets (next watch) plain) : Forgets (get >>= next) plain :=
  fun watch => back watch watch

/-- Something is noted on the way. -/
theorem forgets_note {change : Watch → Watch} {next : Unit → Watching α}
    (apart : ∀ watch, (change watch).machine = watch.machine) (back : Forgets (next ()) plain) :
    Forgets (modify change >>= next) plain := by
  intro watch
  have rest := back (change watch)
  rwa [apart] at rest

theorem forgets_within (environment : Environment) (inside : Forgets watching plain) :
    Forgets (within environment watching) (Run.within environment plain) := by
  intro watch
  have same := inside { watch with machine := { watch.machine with environment := environment } }
  unfold within Run.within
  rw [← same]
  cases watching { watch with machine := { watch.machine with environment := environment } } with
  | ok value after => rfl
  | error halt after => rfl

/-- What is known of the machine behind a watched step that succeeds. -/
theorem Forgets.of_ok {before after : Watch} {value : α} (forgets : Forgets watching plain)
    (ran : watching before = .ok value after) : plain before.machine = .ok value after.machine := by
  rw [← forgets before, ran]
  rfl

/-! ## Functions and classes -/

theorem forgets_declare (receiver : Option Receiver) (declaration : FunctionDecl)
    (isInitializer : Bool) :
    Forgets (declare receiver declaration isInitializer)
      (Closure.declare declaration isInitializer) := by
  have noted (closure : Closure) : Forgets (do attach closure receiver; return closure)
      (pure closure) := forgets_note (fun _ => rfl) (forgets_pure closure)
  exact (forgets_lift _).bind noted

theorem forgets_bind (method : Closure) (object : Instance) :
    Forgets (bind method object) (method.bind object) := by
  have noted (bound : Closure) : Forgets (do
      attach bound (some ⟨object, (← get).superclasses method.identity⟩)
      return bound) (pure bound) :=
    forgets_look fun _ => forgets_note (fun _ => rfl) (forgets_pure bound)
  exact (forgets_lift _).bind noted

theorem forgets_result (receiver : Option Receiver) (closure : Closure) (flow : Flow) :
    Forgets (result receiver closure flow) (closure.result flow) := by
  unfold result
  split
  · exact forgets_note (fun _ => rfl) (forgets_lift _)
  · exact forgets_lift _

theorem forgets_property (object : Instance) (name : Token) :
    Forgets (property object name) (object.property name) := by
  apply forgets_get
  intro watch
  cases (watch.machine.store.fieldsOf object.reference).get? name.lexeme with
  | some value => exact forgets_pure value
  | none =>
      exact (forgets_lift _).bind fun method => (forgets_bind method object).bind fun _ =>
        forgets_pure _

theorem forgets_superMethod (reference : Reference) (method : Token) :
    Forgets (superMethod reference method) (Lox.superMethod reference method) := by
  apply forgets_get
  intro watch
  apply (forgets_lift _).bind
  intro distance
  generalize watch.machine.environment.lookupAt? watch.machine.store distance "super" = above
  cases above with
  | none => exact forgets_lift _
  | some above =>
      cases above with
      | cls superclass =>
          cases distance with
          | zero => exact forgets_lift _
          | succ distance =>
              dsimp only
              generalize watch.machine.environment.lookupAt? watch.machine.store distance "this" =
                held
              cases held with
              | none => exact forgets_lift _
              | some held =>
                  cases held with
                  | object object =>
                      exact (forgets_lift _).bind fun found =>
                        (forgets_bind found object).bind fun _ => forgets_pure _
                  | _ => exact forgets_lift _
      | _ => exact forgets_lift _

theorem forgets_declareMethod (superclass : Option Class) (declaration : FunctionDecl) :
    Forgets (declareMethod superclass declaration)
      (Closure.declare declaration (declaration.name.lexeme = Class.initializerName)) := by
  have noted (method : Closure) : Forgets (do inherit method superclass; return method)
      (pure method) := forgets_note (fun _ => rfl) (forgets_pure method)
  exact (forgets_lift _).bind noted

theorem forgets_declareMethods (superclass : Option Class) (methods : List FunctionDecl)
    (before : Bindings Closure) :
    Forgets (declareMethods superclass methods before) (Lox.declareMethods methods before) := by
  induction methods generalizing before with
  | nil => exact forgets_pure before
  | cons declaration rest ih =>
      exact (forgets_declareMethod superclass declaration).bind fun method => ih _

theorem forgets_declareClass (name : Token) (superclass : Option Class)
    (methods : List FunctionDecl) :
    Forgets (declareClass name superclass methods) (Lox.declareClass name superclass methods) := by
  apply (forgets_lift _).bind
  intro _
  apply forgets_get
  intro watch
  apply (forgets_lift _).bind
  intro inner
  apply (forgets_within inner (forgets_declareMethods superclass methods .empty)).bind
  intro members
  exact (forgets_lift _).bind fun identity => forgets_lift _

/-! ## Lists -/

theorem forgets_sequence {execute : Stmt → Watching Flow} {plain : Stmt → Run Flow}
    (forgets : ∀ statement, Forgets (execute statement) (plain statement))
    (statements : List Stmt) :
    Forgets (sequence execute statements) (Flow.sequence plain statements) := by
  induction statements with
  | nil => exact forgets_pure _
  | cons first rest ih =>
      apply (forgets first).bind
      intro flow
      cases flow with
      | normal => exact ih
      | returned value => exact forgets_pure _

theorem forgets_goesOn {evaluate : Expr → Watching Value} {plain : Expr → Run Value}
    (forgets : ∀ value, Forgets (evaluate value) (plain value)) (condition : Option Expr) :
    Forgets (goesOn evaluate condition) (Run.goesOn plain condition) := by
  cases condition with
  | none => exact forgets_pure _
  | some value => exact (forgets value).bind fun _ => forgets_pure _

theorem forgets_collect {evaluate : Expr → Watching Value} {plain : Expr → Run Value}
    (forgets : ∀ value, Forgets (evaluate value) (plain value)) (values : List Expr) :
    Forgets (collect evaluate values) (Run.collect plain values) := by
  induction values with
  | nil => exact forgets_pure _
  | cons first rest ih =>
      exact (forgets first).bind fun _ => ih.bind fun _ => forgets_pure _

/-! ## Evaluation -/

/-- What takes no more than a number of steps happens unwatched in the same way. -/
structure ForgetsWithin (steps : Nat) : Prop where
  evaluate : ∀ receiver value,
    Forgets (evaluate steps receiver value) (Lox.evaluate steps value)
  execute : ∀ receiver statement,
    Forgets (execute steps receiver statement) (Lox.execute steps statement)
  invoke : ∀ callable arguments line,
    Forgets (invoke steps callable arguments line) (Lox.invoke steps callable arguments line)

section Step

variable {steps : Nat} (below : ForgetsWithin steps) (receiver : Option Receiver)
include below

theorem forgets_evaluate (value : Expr) :
    Forgets (evaluate (steps + 1) receiver value) (Lox.evaluate (steps + 1) value) := by
  cases value with
  | literal literal => exact forgets_pure _
  | grouping inner => exact below.evaluate receiver inner
  | unary operator operand =>
      exact (below.evaluate receiver operand).bind fun _ => forgets_lift _
  | binary left operator right =>
      exact (below.evaluate receiver left).bind fun _ =>
        (below.evaluate receiver right).bind fun _ => forgets_lift _
  | logical left operator right =>
      apply (below.evaluate receiver left).bind
      intro one
      split
      · exact forgets_pure one
      · exact below.evaluate receiver right
  | «variable» reference => exact forgets_lift _
  | assign reference value =>
      exact (below.evaluate receiver value).bind fun _ => (forgets_lift _).bind fun _ =>
        forgets_pure _
  | call callee paren arguments =>
      apply (below.evaluate receiver callee).bind
      intro function
      apply (forgets_collect (below.evaluate receiver) arguments).bind
      intro values
      cases function.callable? with
      | none => exact forgets_lift _
      | some callable =>
          dsimp only
          split
          · exact below.invoke callable values paren.line
          · exact forgets_lift _
  | get object name =>
      apply (below.evaluate receiver object).bind
      intro value
      cases value with
      | object found => exact forgets_property found name
      | _ => exact forgets_lift _
  | set object name value =>
      apply (below.evaluate receiver object).bind
      intro target
      cases target with
      | object found =>
          exact (below.evaluate receiver value).bind fun _ => (forgets_lift _).bind fun _ =>
            forgets_pure _
      | _ => exact forgets_lift _
  | this reference => exact forgets_note (fun _ => rfl) (forgets_lift _)
  | super reference method =>
      exact forgets_note (fun _ => rfl) (forgets_superMethod reference method)

theorem forgets_execute (statement : Stmt) :
    Forgets (execute (steps + 1) receiver statement) (Lox.execute (steps + 1) statement) := by
  cases statement with
  | expression value => exact (below.evaluate receiver value).bind fun _ => forgets_pure _
  | print value =>
      exact (below.evaluate receiver value).bind fun _ => (forgets_lift _).bind fun _ =>
        forgets_pure _
  | var name initializer =>
      cases initializer with
      | none => exact (forgets_lift _).bind fun _ => forgets_pure _
      | some value =>
          exact (below.evaluate receiver value).bind fun _ => (forgets_lift _).bind fun _ =>
            forgets_pure _
  | block body =>
      apply forgets_get
      intro watch
      apply (forgets_lift _).bind
      exact fun inner => forgets_within inner (forgets_sequence (below.execute receiver) body)
  | conditional condition consequent alternative =>
      apply (below.evaluate receiver condition).bind
      intro value
      split
      · exact below.execute receiver consequent
      · cases alternative with
        | none => exact forgets_pure _
        | some other => exact below.execute receiver other
  | whileLoop condition body =>
      apply (below.evaluate receiver condition).bind
      intro value
      split
      · apply (below.execute receiver body).bind
        intro flow
        cases flow with
        | normal => exact below.execute receiver (.whileLoop condition body)
        | returned value => exact forgets_pure _
      · exact forgets_pure _
  | forLoop initializer condition increment body =>
      cases initializer with
      | some clause =>
          exact (below.execute receiver clause).bind fun _ => below.execute receiver _
      | none =>
          apply (forgets_goesOn (below.evaluate receiver) condition).bind
          intro goesOn
          split
          · apply (below.execute receiver body).bind
            intro flow
            cases flow with
            | returned value => exact forgets_pure _
            | normal =>
                cases increment with
                | none => exact below.execute receiver _
                | some step =>
                    exact (below.evaluate receiver step).bind fun _ => below.execute receiver _
          · exact forgets_pure _
  | function declaration =>
      exact (forgets_declare receiver declaration false).bind fun _ =>
        (forgets_lift _).bind fun _ => forgets_pure _
  | returning keyword value =>
      cases value with
      | none => exact forgets_pure _
      | some value => exact (below.evaluate receiver value).bind fun _ => forgets_pure _
  | classDecl name superclass methods =>
      cases superclass with
      | none => exact (forgets_declareClass name none methods).bind fun _ => forgets_pure _
      | some value =>
          apply (below.evaluate receiver value).bind
          intro result
          apply (forgets_lift _).bind
          intro found
          exact (forgets_declareClass name (some found) methods).bind fun _ => forgets_pure _

theorem forgets_invoke (callable : Callable) (arguments : List Value) (line : Nat) :
    Forgets (invoke (steps + 1) callable arguments line)
      (Lox.invoke (steps + 1) callable arguments line) := by
  cases callable with
  | native function => exact forgets_lift _
  | function closure =>
      apply forgets_look
      intro watch
      apply (forgets_lift _).bind
      intro inner
      have body := forgets_sequence (below.execute (watch.receivers closure.identity))
        closure.declaration.body
      exact (forgets_within inner body).bind fun flow => forgets_result _ closure flow
  | cls found =>
      apply (forgets_lift _).bind
      intro object
      cases found.initializer? with
      | none => exact forgets_pure _
      | some initializer =>
          exact (forgets_bind initializer object).bind fun bound =>
            (below.invoke _ arguments line).bind fun _ => forgets_pure _

end Step

/-- Everything happens unwatched in the same way, however many steps it takes. -/
theorem forgetsWithin (steps : Nat) : ForgetsWithin steps := by
  induction steps with
  | zero =>
      constructor
      · exact fun _ _ => forgets_throw _
      · exact fun _ _ => forgets_throw _
      · exact fun _ _ _ => forgets_throw _
  | succ steps ih =>
      constructor
      · exact fun receiver value => forgets_evaluate ih receiver value
      · exact fun receiver statement => forgets_execute ih receiver statement
      · exact fun callable arguments line => forgets_invoke ih callable arguments line

section Succeeded

variable {steps : Nat} {receiver : Option Receiver} {before after : Watch}

theorem runs_evaluate {value : Expr} {result : Value}
    (ran : evaluate steps receiver value before = .ok result after) :
    Lox.evaluate steps value before.machine = .ok result after.machine :=
  ((forgetsWithin steps).evaluate receiver value).of_ok ran

theorem runs_execute {statement : Stmt} {flow : Flow}
    (ran : execute steps receiver statement before = .ok flow after) :
    Lox.execute steps statement before.machine = .ok flow after.machine :=
  ((forgetsWithin steps).execute receiver statement).of_ok ran

theorem runs_collect {values : List Expr} {results : List Value}
    (ran : collect (evaluate steps receiver) values before = .ok results after) :
    Run.collect (Lox.evaluate steps) values before.machine = .ok results after.machine :=
  (forgets_collect ((forgetsWithin steps).evaluate receiver) values).of_ok ran

theorem runs_sequence {body : List Stmt} {flow : Flow}
    (ran : sequence (execute steps receiver) body before = .ok flow after) :
    Flow.sequence (Lox.execute steps) body before.machine = .ok flow after.machine :=
  (forgets_sequence ((forgetsWithin steps).execute receiver) body).of_ok ran

theorem runs_goesOn {condition : Option Expr} {holds : Bool}
    (ran : goesOn (evaluate steps receiver) condition before = .ok holds after) :
    Run.goesOn (Lox.evaluate steps) condition before.machine = .ok holds after.machine :=
  (forgets_goesOn ((forgetsWithin steps).evaluate receiver) condition).of_ok ran

end Succeeded

/-- A watched program runs as it does unwatched. -/
theorem forgets_interpret (steps : Nat) (program : List Stmt) :
    Forgets (interpret steps program) (Lox.interpret steps program) := by
  induction program with
  | nil => exact forgets_lift _
  | cons first rest ih => exact ((forgetsWithin steps).execute none first).bind fun _ => ih

end Watching

end Lox
