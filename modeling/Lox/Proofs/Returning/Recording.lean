import Lox.Proofs.Evaluation.Restoring

/-!
# Recorded activations

A second way to execute the body of a function, which does what `execute` does and
keeps a record on the way: of each statement and each condition or increment that it
comes to, and of each `return` once it has its value. Expressions are evaluated as
ever, so what is recorded belongs to one activation of the function and not to those
that it calls.
-/

namespace Lox

/-- Something that happens in an activation. -/
inductive Event where
  | statement (statement : Stmt)
  | condition (condition : Expr)
  | increment (increment : Expr)
  /-- A `return` has been executed. -/
  | returned (value : Value)

/-- A step of evaluation that records events. -/
abbrev Recording := StateT (List Event) Run

namespace Recording

variable {α β : Type}

/-! ## Recording -/

/-- Record an event. -/
def note (event : Event) : Recording Unit :=
  modify (· ++ [event])

/-- Run a step in another environment, and go back to the one before. -/
def within (environment : Environment) (step : Recording α) : Recording α := fun events =>
  Run.within environment (step events)

/-- Run statements in order, up to the first that leaves the function. -/
def sequence (execute : Stmt → Recording Flow) : List Stmt → Recording Flow
  | [] => return .normal
  | first :: rest => do
      match ← execute first with
      | .returned value => return .returned value
      | .normal => sequence execute rest

/-- Evaluate a condition. -/
def check (steps : Nat) (condition : Expr) : Recording Bool := do
  note (.condition condition)
  return (← evaluate steps condition).isTruthy

/-- Whether a loop goes on. -/
def goesOn (steps : Nat) : Option Expr → Recording Bool
  | none => return true
  | some condition => check steps condition

/-- Execute a statement within a number of steps. -/
def execute : Nat → Stmt → Recording Flow
  | 0, _ => throw .outOfSteps
  | steps + 1, statement => do
      note (.statement statement)
      match statement with
      | .block body => do
          let inner ← Run.newScope (← getThe Machine).environment .empty
          within inner (sequence (execute steps) body)
      | .conditional condition consequent alternative => do
          if ← check steps condition then execute steps consequent
          else
            match alternative with
            | some statement => execute steps statement
            | none => return .normal
      | .whileLoop condition body => do
          if ← check steps condition then
            match ← execute steps body with
            | .returned value => return .returned value
            | .normal => execute steps (.whileLoop condition body)
          else return .normal
      | .forLoop (some initializer) condition increment body => do
          let _ ← execute steps initializer
          execute steps (.forLoop none condition increment body)
      | .forLoop none condition increment body => do
          if ← goesOn steps condition then
            match ← execute steps body with
            | .returned value => return .returned value
            | .normal =>
                match increment with
                | none => execute steps (.forLoop none condition increment body)
                | some step =>
                    note (.increment step)
                    let _ ← evaluate steps step
                    execute steps (.forLoop none condition increment body)
          else return .normal
      | .returning _ none => do
          note (.returned .nil)
          return .returned .nil
      | .returning _ (some value) => do
          let value ← evaluate steps value
          note (.returned value)
          return .returned value
      -- No other statement contains one that belongs to the same activation.
      | statement => Lox.execute (steps + 1) statement

/-- Call a function within a number of steps. -/
def call (steps : Nat) (closure : Closure) (arguments : List Value) : Recording Value := do
  let inner ← Run.newScope closure.environment (closure.parameterBindings arguments)
  let flow ← within inner (sequence (execute steps) closure.declaration.body)
  closure.result flow

/-! ## Nothing else is different -/

/-- A recorded step does what a plain one does. -/
def Forgets (step : Recording α) (plain : Run α) : Prop :=
  ∀ events, Prod.fst <$> step events = plain

theorem forgets_pure (value : α) : Forgets (pure value) (pure value) :=
  fun _ => map_pure Prod.fst _

theorem forgets_throw (halt : Halt) : Forgets (throw halt : Recording α) (throw halt) :=
  fun _ => rfl

/-- An event is recorded on the way. -/
theorem forgets_note {plain : Run α} {next : Recording α} (event : Event)
    (back : Forgets next plain) : Forgets (note event >>= fun _ => next) plain :=
  fun events => back (events ++ [event])

theorem forgets_lift (step : Run α) : Forgets (liftM step) step := by
  intro events
  change Prod.fst <$> (step >>= fun value => pure (value, events)) = step
  simp

theorem Forgets.bind {step : Recording α} {plain : Run α} {next : α → Recording β}
    {plainNext : α → Run β} (front : Forgets step plain)
    (back : ∀ value, Forgets (next value) (plainNext value)) :
    Forgets (step >>= next) (plain >>= plainNext) := by
  intro events
  have behind (entry : α × List Event) :
      Prod.fst <$> next entry.1 entry.2 = plainNext entry.1 := back entry.1 entry.2
  change Prod.fst <$> (step events >>= fun entry => next entry.1 entry.2) = _
  rw [← front events, map_bind, bind_map_left]
  simp only [behind]

/-- The machine is the same to both. -/
theorem forgets_get {next : Machine → Recording α} {plainNext : Machine → Run α}
    (back : ∀ machine, Forgets (next machine) (plainNext machine)) :
    Forgets (getThe Machine >>= next) (get >>= plainNext) :=
  (forgets_lift get).bind back

theorem forgets_within (environment : Environment) {step : Recording α} {plain : Run α}
    (inside : Forgets step plain) :
    Forgets (within environment step) (Run.within environment plain) := by
  intro events
  rw [← inside events]
  funext machine
  change EStateM.map Prod.fst (Run.within environment (step events)) machine =
    Run.within environment (EStateM.map Prod.fst (step events)) machine
  unfold EStateM.map Run.within
  dsimp only
  cases step events { machine with environment := environment } with
  | ok entry after => rfl
  | error halt after => rfl

theorem forgets_sequence {execute : Stmt → Recording Flow} {plain : Stmt → Run Flow}
    (each : ∀ statement, Forgets (execute statement) (plain statement)) (body : List Stmt) :
    Forgets (sequence execute body) (Flow.sequence plain body) := by
  induction body with
  | nil => exact forgets_pure Flow.normal
  | cons first rest ih =>
      apply (each first).bind
      intro flow
      cases flow with
      | normal => exact ih
      | returned value => exact forgets_pure _

/-- A condition is recorded before it is evaluated. -/
theorem forgets_check {next : Bool → Recording α} {plainNext : Value → Run α} (steps : Nat)
    (condition : Expr) (back : ∀ value, Forgets (next value.isTruthy) (plainNext value)) :
    Forgets (check steps condition >>= next) (evaluate steps condition >>= plainNext) := by
  unfold check
  simp only [bind_assoc, pure_bind]
  exact forgets_note _ ((forgets_lift _).bind back)

theorem forgets_goesOn (steps : Nat) (condition : Option Expr) :
    Forgets (goesOn steps condition) (Run.goesOn (evaluate steps) condition) := by
  cases condition with
  | none => exact forgets_pure true
  | some condition => exact forgets_note _ ((forgets_lift _).bind fun _ => forgets_pure _)

/-- Both ways to execute a statement do the same. -/
theorem forgets_execute (steps : Nat) (statement : Stmt) :
    Forgets (execute steps statement) (Lox.execute steps statement) := by
  induction steps generalizing statement with
  | zero => exact forgets_throw _
  | succ steps ih =>
      apply forgets_note
      cases statement with
      | block body =>
          apply forgets_get
          intro machine
          exact (forgets_lift _).bind fun inner => forgets_within inner (forgets_sequence ih body)
      | conditional condition consequent alternative =>
          apply forgets_check steps condition
          intro value
          cases value.isTruthy with
          | true => exact ih consequent
          | false =>
              cases alternative with
              | none => exact forgets_pure _
              | some statement => exact ih statement
      | whileLoop condition body =>
          apply forgets_check steps condition
          intro value
          cases value.isTruthy with
          | true =>
              apply (ih body).bind
              intro flow
              cases flow with
              | normal => exact ih _
              | returned value => exact forgets_pure _
          | false => exact forgets_pure _
      | forLoop initializer condition increment body =>
          cases initializer with
          | some initializer => exact (ih initializer).bind fun _ => ih _
          | none =>
              apply (forgets_goesOn steps condition).bind
              intro holds
              cases holds with
              | true =>
                  apply (ih body).bind
                  intro flow
                  cases flow with
                  | returned value => exact forgets_pure _
                  | normal =>
                      cases increment with
                      | none => exact ih _
                      | some step =>
                          exact forgets_note _ ((forgets_lift _).bind fun _ => ih _)
              | false => exact forgets_pure _
      | returning keyword value =>
          cases value with
          | none => exact forgets_note _ (forgets_pure _)
          | some value => exact (forgets_lift _).bind fun _ => forgets_note _ (forgets_pure _)
      | expression value => exact forgets_lift _
      | print value => exact forgets_lift _
      | var name initializer => exact forgets_lift _
      | function declaration => exact forgets_lift _
      | classDecl name superclass methods => exact forgets_lift _

/-- Both ways to call a function do the same. -/
theorem forgets_call (steps : Nat) (closure : Closure) (arguments : List Value) (line : Nat) :
    Forgets (call steps closure arguments)
      (invoke (steps + 1) (.function closure) arguments line) := by
  have body := forgets_sequence (forgets_execute steps) closure.declaration.body
  exact (forgets_lift _).bind fun inner => (forgets_within inner body).bind fun _ =>
    forgets_lift _

/-- What a plain step does, a recorded step does with some record. -/
theorem Forgets.exists_record {step : Recording α} {plain : Run α} {value : α}
    {before after : Machine} (forgets : Forgets step plain) (events : List Event)
    (ran : plain before = .ok value after) :
    ∃ record, step events before = .ok (value, record) after := by
  rw [← forgets events] at ran
  change EStateM.map Prod.fst (step events) before = _ at ran
  unfold EStateM.map at ran
  cases result : step events before with
  | ok entry middle =>
      rw [result] at ran
      cases ran
      exact ⟨entry.2, rfl⟩
  | error halt middle =>
      rw [result] at ran
      cases ran

end Recording

end Lox
