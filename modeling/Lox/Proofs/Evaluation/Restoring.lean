import Lox.Proofs.Evaluation.Moments

/-!
# The environment behind a step

Evaluation moves into other environments and comes back. Whatever is evaluated,
and however that ends, the environment behind it is the one in front of it, and
so are the distances and the host, which evaluation only reads. This holds on
every machine, also where the distances noted there make no sense.
-/

namespace Lox

/-- What a sink accepts does not change its policy. -/
theorem Sink.policy_writeAll (sink : Sink) (pieces : List String) :
    (sink.writeAll pieces).2.policy = sink.policy := by
  have write (sink : Sink) (piece : String) : (sink.write piece).2.policy = sink.policy := by
    unfold Sink.write
    split
    · rfl
    · split <;> rfl
  induction pieces generalizing sink with
  | nil => rfl
  | cons piece rest ih =>
      have first := write sink piece
      unfold Sink.writeAll
      generalize sink.write piece = written at first
      obtain ⟨_ | reason, after⟩ := written
      · exact (ih after).trans first
      · exact first

/-- The machine that a step leaves behind, whether it succeeds or halts. -/
def Run.behind {α : Type} (step : Run α) (machine : Machine) : Machine :=
  match step machine with
  | .ok _ after => after
  | .error _ after => after

/-- A machine in the same place as an earlier one. -/
structure Machine.Back (before after : Machine) : Prop where
  environment : after.environment = before.environment
  distances : after.distances = before.distances
  host : after.host = before.host
  policy : after.sink.policy = before.sink.policy

theorem Machine.Back.refl (machine : Machine) : machine.Back machine :=
  ⟨rfl, rfl, rfl, rfl⟩

theorem Machine.Back.trans {before middle after : Machine} (first : before.Back middle)
    (second : middle.Back after) : before.Back after := by
  constructor
  · exact second.environment.trans first.environment
  · exact second.distances.trans first.distances
  · exact second.host.trans first.host
  · exact second.policy.trans first.policy

/-- However a step ends, the machine behind it is back in the same place. -/
def Run.Restores {α : Type} (step : Run α) : Prop :=
  ∀ machine : Machine, machine.Back (step.behind machine)

namespace Run

variable {α β : Type}

/-! ## Steps put together -/

theorem step_bind (step : Run α) (next : α → Run β) (machine : Machine) :
    (step >>= next) machine =
      match step machine with
      | .ok value after => next value after
      | .error halt after => .error halt after := by
  change EStateM.bind step next machine = _
  unfold EStateM.bind
  cases step machine <;> rfl

theorem behind_ok {step : Run α} {value : α} {before after : Machine}
    (ran : step before = .ok value after) : step.behind before = after := by
  rw [behind, ran]

theorem behind_error {step : Run α} {halt : Halt} {before after : Machine}
    (ran : step before = .error halt after) : step.behind before = after := by
  rw [behind, ran]

theorem restores_pure (value : α) : Restores (pure value) := fun machine => .refl machine

theorem restores_throw (halt : Halt) : Restores (throw halt : Run α) :=
  fun machine => .refl machine

theorem restores_get : Restores (get : Run Machine) := fun machine => .refl machine

theorem Restores.bind {step : Run α} {next : α → Run β} (front : Restores step)
    (back : ∀ value, Restores (next value)) : Restores (step >>= next) := by
  intro machine
  have first := front machine
  change machine.Back (behind (EStateM.bind step next) machine)
  unfold behind EStateM.bind at *
  cases ran : step machine with
  | error halt middle =>
      rw [ran] at first
      exact first
  | ok value middle =>
      rw [ran] at first
      exact first.trans (back value middle)

/-- The environment around a step is there again afterwards. -/
theorem restores_within (environment : Environment) {step : Run α} (inside : Restores step) :
    Restores (within environment step) := by
  intro machine
  have back := inside { machine with environment := environment }
  unfold behind at back
  unfold behind within
  cases ran : step { machine with environment := environment } <;> rw [ran] at back
  · exact ⟨rfl, back.distances, back.host, back.policy⟩
  · exact ⟨rfl, back.distances, back.host, back.policy⟩

theorem restores_orFail (result : Option α) (fault : RuntimeFault) :
    Restores (orFail result fault) := by
  cases result with
  | none => exact restores_throw _
  | some value => exact restores_pure value

/-! ## Single steps -/

theorem restores_newIdentity : Restores newIdentity := fun _ => ⟨rfl, rfl, rfl, rfl⟩

theorem restores_newScope (outer : Environment) (bindings : Bindings Value) :
    Restores (newScope outer bindings) :=
  fun _ => ⟨rfl, rfl, rfl, rfl⟩

theorem restores_newInstance (cls : Class) : Restores (newInstance cls) :=
  fun _ => ⟨rfl, rfl, rfl, rfl⟩

theorem restores_modifyStore (change : Store → Store) : Restores (modifyStore change) :=
  fun _ => ⟨rfl, rfl, rfl, rfl⟩

theorem restores_define (name : String) (value : Value) : Restores (define name value) := by
  rintro ⟨store, environment, distances, nextIdentity, hostCalls, sink, host⟩
  cases environment <;> exact ⟨rfl, rfl, rfl, rfl⟩

theorem restores_read (reference : Reference) : Restores (read reference) :=
  restores_get.bind fun _ => restores_orFail _ _

theorem restores_write (reference : Reference) (value : Value) :
    Restores (write reference value) :=
  restores_get.bind fun _ =>
    (restores_orFail _ _).bind fun _ => restores_modifyStore _

theorem restores_print (value : Value) : Restores (print value) := by
  intro machine
  have policy := machine.sink.policy_writeAll (value.pieces ++ ["\n"])
  unfold behind print
  generalize machine.sink.writeAll (value.pieces ++ ["\n"]) = written at policy
  obtain ⟨_ | reason, sink⟩ := written
  · exact ⟨rfl, rfl, rfl, policy⟩
  · exact ⟨rfl, rfl, rfl, policy⟩

theorem restores_flush : Restores flush := by
  apply restores_get.bind
  intro machine
  cases machine.sink.flush with
  | none => exact restores_pure ()
  | some reason => exact restores_throw _

theorem restores_callHost (function : Native) (arguments : List Value) (line : Nat) :
    Restores (callHost function arguments line) := by
  intro machine
  unfold behind callHost
  dsimp only [bind, EStateM.bind, get, getThe, MonadStateOf.get, EStateM.get, set, EStateM.set]
  cases machine.host function machine.hostCalls arguments with
  | ok value => exact ⟨rfl, rfl, rfl, rfl⟩
  | error message => exact ⟨rfl, rfl, rfl, rfl⟩

theorem restores_ofOperator (operator : Token) (result : Except TypeFault Value) :
    Restores (ofOperator operator result) := by
  cases result with
  | ok value => exact restores_pure value
  | error fault => exact restores_throw _

/-! ## Lists of expressions and statements -/

theorem restores_goesOn {evaluate : Expr → Run Value}
    (restores : ∀ value, Restores (evaluate value)) (condition : Option Expr) :
    Restores (goesOn evaluate condition) := by
  cases condition with
  | none => exact restores_pure true
  | some condition => exact (restores condition).bind fun _ => restores_pure _

theorem restores_collect {evaluate : Expr → Run Value}
    (restores : ∀ value, Restores (evaluate value)) (values : List Expr) :
    Restores (collect evaluate values) := by
  induction values with
  | nil => exact restores_pure []
  | cons first rest ih =>
      exact (restores first).bind fun _ => ih.bind fun _ => restores_pure _

theorem restores_sequence {execute : Stmt → Run Flow}
    (restores : ∀ statement, Restores (execute statement)) (body : List Stmt) :
    Restores (Flow.sequence execute body) := by
  induction body with
  | nil => exact restores_pure Flow.normal
  | cons first rest ih =>
      apply (restores first).bind
      intro flow
      cases flow with
      | normal => exact ih
      | returned value => exact restores_pure _

end Run

open Run

/-! ## Functions and classes -/

theorem restores_declare (declaration : FunctionDecl) (isInitializer : Bool) :
    Restores (Closure.declare declaration isInitializer) :=
  restores_newIdentity.bind fun _ => restores_get.bind fun _ => restores_pure _

theorem restores_bindMethod (method : Closure) (object : Instance) :
    Restores (method.bind object) :=
  (restores_newScope _ _).bind fun _ => restores_newIdentity.bind fun _ => restores_pure _

theorem restores_result (closure : Closure) (flow : Flow) : Restores (closure.result flow) := by
  unfold Closure.result
  split
  · exact restores_get.bind fun _ => restores_orFail _ _
  · cases flow with
    | normal => exact restores_pure _
    | returned value => exact restores_pure value

theorem restores_property (object : Instance) (name : Token) :
    Restores (object.property name) := by
  apply restores_get.bind
  intro machine
  split
  · exact restores_pure _
  · exact (restores_orFail _ _).bind fun _ =>
      (restores_bindMethod _ _).bind fun _ => restores_pure _

theorem restores_superMethod (reference : Reference) (method : Token) :
    Restores (superMethod reference method) := by
  apply restores_get.bind
  intro machine
  apply (restores_orFail _ _).bind
  intro distance
  split
  · cases distance with
    | zero => exact restores_throw _
    | succ distance =>
        dsimp only
        split
        · exact (restores_orFail _ _).bind fun _ =>
            (restores_bindMethod _ _).bind fun _ => restores_pure _
        · exact restores_throw _
  · exact restores_throw _

theorem restores_superclassOf (name : Token) (superclass : Expr) (value : Value) :
    Restores (superclassOf name superclass value) := by
  cases value with
  | cls found => exact restores_pure found
  | _ => exact restores_throw _

theorem restores_declareMethods (methods : List FunctionDecl) (before : Bindings Closure) :
    Restores (declareMethods methods before) := by
  induction methods generalizing before with
  | nil => exact restores_pure before
  | cons first rest ih => exact (restores_declare _ _).bind fun _ => ih _

theorem restores_methodEnvironment (outer : Environment) (superclass : Option Class) :
    Restores (methodEnvironment outer superclass) := by
  cases superclass with
  | none => exact restores_pure outer
  | some superclass => exact restores_newScope _ _

theorem restores_declareClass (name : Token) (superclass : Option Class)
    (methods : List FunctionDecl) : Restores (declareClass name superclass methods) :=
  (restores_define _ _).bind fun _ => restores_get.bind fun _ =>
    (restores_methodEnvironment _ _).bind fun _ =>
      (restores_within _ (restores_declareMethods methods .empty)).bind fun _ =>
        restores_newIdentity.bind fun _ => restores_define _ _

/-! ## Evaluation -/

/-- Everything restores the environment that takes no more than a number of
steps. -/
structure RestoresWithin (steps : Nat) : Prop where
  evaluate : ∀ value, Restores (evaluate steps value)
  execute : ∀ statement, Restores (execute steps statement)
  invoke : ∀ callable arguments line, Restores (invoke steps callable arguments line)

section Step

variable {steps : Nat}

theorem restores_evaluate (below : RestoresWithin steps) (value : Expr) :
    Restores (evaluate (steps + 1) value) := by
  cases value with
  | literal => exact restores_pure _
  | grouping inner => exact below.evaluate inner
  | unary operator operand =>
      exact (below.evaluate operand).bind fun _ => restores_ofOperator _ _
  | binary left operator right =>
      exact (below.evaluate left).bind fun _ => (below.evaluate right).bind fun _ =>
        restores_ofOperator _ _
  | logical left operator right =>
      apply (below.evaluate left).bind
      intro one
      split
      · exact restores_pure one
      · exact below.evaluate right
  | «variable» reference => exact restores_read reference
  | assign reference value =>
      exact (below.evaluate value).bind fun _ => (restores_write _ _).bind fun _ =>
        restores_pure _
  | call callee paren arguments =>
      apply (below.evaluate callee).bind
      intro function
      apply (restores_collect below.evaluate arguments).bind
      intro values
      split
      · exact restores_throw _
      · split
        · exact below.invoke _ _ _
        · exact restores_throw _
  | get object name =>
      apply (below.evaluate object).bind
      intro found
      cases found with
      | object instance_ => exact restores_property _ _
      | _ => exact restores_throw _
  | set object name value =>
      apply (below.evaluate object).bind
      intro found
      cases found with
      | object instance_ =>
          exact (below.evaluate value).bind fun _ =>
            (restores_modifyStore _).bind fun _ => restores_pure _
      | _ => exact restores_throw _
  | this reference => exact restores_read reference
  | super reference method => exact restores_superMethod reference method

theorem restores_execute (below : RestoresWithin steps) (statement : Stmt) :
    Restores (execute (steps + 1) statement) := by
  cases statement with
  | expression value => exact (below.evaluate value).bind fun _ => restores_pure _
  | print value =>
      exact (below.evaluate value).bind fun _ => (restores_print _).bind fun _ =>
        restores_pure _
  | var name initializer =>
      cases initializer with
      | none => exact (restores_define _ _).bind fun _ => restores_pure _
      | some value =>
          exact (below.evaluate value).bind fun _ => (restores_define _ _).bind fun _ =>
            restores_pure _
  | block body =>
      exact restores_get.bind fun _ => (restores_newScope _ _).bind fun _ =>
        restores_within _ (restores_sequence below.execute body)
  | conditional condition consequent alternative =>
      apply (below.evaluate condition).bind
      intro value
      split
      · exact below.execute consequent
      · cases alternative with
        | none => exact restores_pure _
        | some alternative => exact below.execute alternative
  | whileLoop condition body =>
      apply (below.evaluate condition).bind
      intro value
      split
      · apply (below.execute body).bind
        intro flow
        cases flow with
        | normal => exact below.execute _
        | returned value => exact restores_pure _
      · exact restores_pure _
  | forLoop initializer condition increment body =>
      cases initializer with
      | some initializer =>
          exact (below.execute initializer).bind fun _ => below.execute _
      | none =>
          apply (restores_goesOn below.evaluate condition).bind
          intro goesOn
          split
          · apply (below.execute body).bind
            intro flow
            cases flow with
            | returned value => exact restores_pure _
            | normal =>
                cases increment with
                | none => exact below.execute _
                | some step => exact (below.evaluate step).bind fun _ => below.execute _
          · exact restores_pure _
  | function declaration =>
      exact (restores_declare _ _).bind fun _ => (restores_define _ _).bind fun _ =>
        restores_pure _
  | returning keyword value =>
      cases value with
      | none => exact restores_pure _
      | some value => exact (below.evaluate value).bind fun _ => restores_pure _
  | classDecl name superclass methods =>
      cases superclass with
      | none => exact (restores_declareClass _ _ _).bind fun _ => restores_pure _
      | some superclass =>
          exact (below.evaluate superclass).bind fun _ =>
            (restores_superclassOf _ _ _).bind fun _ =>
              (restores_declareClass _ _ _).bind fun _ => restores_pure _

theorem restores_invoke (below : RestoresWithin steps) (callable : Callable)
    (arguments : List Value) (line : Nat) :
    Restores (invoke (steps + 1) callable arguments line) := by
  cases callable with
  | native function => exact restores_callHost _ _ _
  | function closure =>
      have body := restores_sequence below.execute closure.declaration.body
      exact (restores_newScope _ _).bind fun _ => (restores_within _ body).bind fun _ =>
        restores_result _ _
  | cls found =>
      apply (restores_newInstance found).bind
      intro object
      split
      · exact restores_pure _
      · exact (restores_bindMethod _ _).bind fun _ => (below.invoke _ _ _).bind fun _ =>
          restores_pure _

end Step

/-- Everything restores the environment, however many steps it takes. -/
theorem restoresWithin (steps : Nat) : RestoresWithin steps := by
  -- On the steps and not on the trees: the body of a function is no part of its call.
  induction steps with
  | zero =>
      exact ⟨fun _ => restores_throw _, fun _ => restores_throw _, fun _ _ _ => restores_throw _⟩
  | succ steps ih =>
      exact ⟨restores_evaluate ih, restores_execute ih, restores_invoke ih⟩

theorem restores_interpret (steps : Nat) (program : List Stmt) :
    Restores (interpret steps program) := by
  induction program with
  | nil => exact restores_flush
  | cons first rest ih => exact ((restoresWithin steps).execute first).bind fun _ => ih

/-- A step that succeeds leaves a machine in the same place. -/
theorem Run.Restores.of_ok {α : Type} {step : Run α} {value : α} {before after : Machine}
    (restores : step.Restores) (ran : step before = .ok value after) : before.Back after := by
  have back := restores before
  rwa [behind_ok ran] at back

section Succeeded

variable {steps : Nat} {flow : Flow} {before after : Machine}

theorem back_of_evaluate {value : Expr} {result : Value}
    (ran : evaluate steps value before = .ok result after) : before.Back after :=
  ((restoresWithin steps).evaluate value).of_ok ran

theorem back_of_execute {statement : Stmt} (ran : execute steps statement before = .ok flow after) :
    before.Back after :=
  ((restoresWithin steps).execute statement).of_ok ran

theorem back_of_collect {values : List Expr} {results : List Value}
    (ran : Run.collect (evaluate steps) values before = .ok results after) : before.Back after :=
  (Run.restores_collect (restoresWithin steps).evaluate values).of_ok ran

theorem back_of_sequence {body : List Stmt}
    (ran : Flow.sequence (execute steps) body before = .ok flow after) : before.Back after :=
  (Run.restores_sequence (restoresWithin steps).execute body).of_ok ran

theorem back_of_goesOn {condition : Option Expr} {goesOn : Bool}
    (ran : Run.goesOn (evaluate steps) condition before = .ok goesOn after) : before.Back after :=
  (Run.restores_goesOn (restoresWithin steps).evaluate condition).of_ok ran

end Succeeded

/-- A run comes to every statement of a program in the place where it began. -/
theorem Moment.Reached.back {steps : Nat} {program : List Stmt} {statement : Stmt}
    {before after : Machine} (reached : Reached steps program before statement after) :
    before.Back after := by
  induction reached with
  | here => exact .refl _
  | later ran _ ih => exact (back_of_execute ran).trans ih

end Lox
