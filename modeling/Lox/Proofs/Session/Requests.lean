import Lox.Proofs.Evaluation.Restoring
import Lox.Proofs.Session.History
import Lox.Value.Inspect

/-!
# Requests to a session

A session can be asked to check a text, to run it with or without binding its
names, and to evaluate an expression. Whatever it is asked and however that
ends, it is outside of all local scopes afterwards.
-/

namespace Lox

/-- Something that a session is asked to do with a text. -/
inductive Request where
  | check (source : String)
  | run (steps : Nat) (source : String)
  | runUnbound (steps : Nat) (source : String)
  | evaluate (steps : Nat) (source : String)

/-- Do what is asked. Only an expression has a value. -/
def Request.perform : Request → Interaction (Option Value)
  | .check source => do
      Session.check source
      return none
  | .run steps source => do
      Session.run steps source
      return none
  | .runUnbound steps source => do
      Session.runUnbound steps source
      return none
  | .evaluate steps source => do
      let value ← Session.evaluate steps source
      return some value

namespace Session

/-- The session after a request, whether that failed or not. -/
def next (session : Session) (request : Request) : Session :=
  match request.perform session with
  | .ok _ after => after
  | .error _ after => after

/-- The session after several requests. -/
def reach (session : Session) (requests : List Request) : Session :=
  requests.foldl next session

@[simp] theorem reach_nil (session : Session) : session.reach [] = session := rfl

@[simp] theorem reach_cons (session : Session) (request : Request) (requests : List Request) :
    session.reach (request :: requests) = (session.next request).reach requests := rfl

/-! ## What interactions keep -/

/-- A property of sessions that an interaction keeps, however it ends. -/
def Keeps {α : Type} (property : Session → Prop) (interaction : Interaction α) : Prop :=
  ∀ session, property session →
    match interaction session with
    | .ok _ after => property after
    | .error _ after => property after

section Keeping

variable {α β : Type} {property : Session → Prop}

theorem keeps_pure (value : α) : Keeps property (pure value) := fun _ holds => holds

theorem Keeps.bind {interaction : Interaction α} {next : α → Interaction β}
    (front : Keeps property interaction) (back : ∀ value, Keeps property (next value)) :
    Keeps property (interaction >>= next) := by
  intro session holds
  have first := front session holds
  change match EStateM.bind interaction next session with
    | .ok _ after => property after
    | .error _ after => property after
  unfold EStateM.bind
  cases ran : interaction session with
  | error failure after =>
      rw [ran] at first
      exact first
  | ok value middle =>
      rw [ran] at first
      exact back value middle first

theorem keeps_reading (numbering : ∀ session number, property session →
    property { session with nextReference := number })
    (read : Nat → Except Failure α × Nat) : Keeps property (reading read) := by
  intro session holds
  have numbered := numbering session (read session.nextReference).2 holds
  rw [reading_eq]
  cases (read session.nextReference).1 <;> exact numbered

theorem keeps_bind (noting : ∀ session distances, property session →
    property { session with machine := { session.machine with distances := distances } })
    (program : List Stmt) : Keeps property (Session.bind program) := by
  intro session holds
  have bound := noting session (bindProgram program session.machine.distances).2 holds
  rw [bind_eq]
  cases (bindProgram program session.machine.distances).1 <;> exact bound

theorem keeps_running {run : Run α} (running : ∀ session, property session →
    property { session with machine := run.behind session.machine }) :
    Keeps property (Session.running run) := by
  intro session holds
  have left := running session holds
  unfold Session.running
  cases ran : run session.machine with
  | ok value after =>
      rw [Run.behind_ok ran] at left
      exact left
  | error halt after =>
      rw [Run.behind_error ran] at left
      exact left

theorem Keeps.next {request : Request} (keeps : Keeps property request.perform)
    {session : Session} (holds : property session) : property (session.next request) := by
  have performed := keeps session holds
  unfold Session.next
  cases ran : request.perform session <;> rw [ran] at performed <;> exact performed

/-- Requests keep what reading, binding and both ways of running keep. -/
theorem keeps_perform (numbering : ∀ session number, property session →
      property { session with nextReference := number })
    (noting : ∀ session distances, property session →
      property { session with machine := { session.machine with distances := distances } })
    (interpreting : ∀ steps program session, property session →
      property { session with machine := (interpret steps program).behind session.machine })
    (evaluating : ∀ steps value session, property session →
      property { session with machine := (Lox.evaluate steps value).behind session.machine })
    (request : Request) : Keeps property request.perform := by
  have reads {α : Type} (read : Nat → Except Failure α × Nat) : Keeps property (reading read) :=
    keeps_reading numbering read
  have binds (program : List Stmt) : Keeps property (Session.bind program) :=
    keeps_bind noting program
  cases request with
  | check source =>
      exact ((reads _).bind binds).bind fun _ => keeps_pure none
  | run steps source =>
      refine ((reads _).bind fun program => ?_).bind fun _ => keeps_pure none
      exact (binds program).bind fun _ => keeps_running (interpreting steps program)
  | runUnbound steps source =>
      refine ((reads _).bind fun program => ?_).bind fun _ => keeps_pure none
      exact keeps_running (interpreting steps program)
  | evaluate steps source =>
      refine Keeps.bind ((reads _).bind fun expression => ?_) fun _ => keeps_pure _
      exact keeps_running (evaluating steps expression)

/-- What every request keeps, several of them keep. -/
theorem reach_of_keeps (keeps : ∀ request : Request, Keeps property request.perform)
    {session : Session} (holds : property session) (requests : List Request) :
    property (session.reach requests) := by
  induction requests generalizing session with
  | nil => exact holds
  | cons request rest ih => exact ih ((keeps request).next holds)

end Keeping

/-! ## What all requests keep -/

/-- A property of sessions that takes no notice of reference numbers and distances,
and that running therefore cannot change. -/
structure Lasting (property : Session → Prop) : Prop where
  numbering : ∀ session number, property session →
    property { session with nextReference := number }
  noting : ∀ session distances, property session →
    property { session with machine := { session.machine with distances := distances } }
  running : ∀ session machine, session.machine.Back machine → property session →
    property { session with machine := machine }

namespace Lasting

variable {property : Session → Prop} (lasting : Lasting property)
include lasting

theorem perform (request : Request) : Keeps property request.perform := by
  apply keeps_perform lasting.numbering lasting.noting
  · intro steps program session holds
    exact lasting.running session _ (restores_interpret steps program session.machine) holds
  · intro steps value session holds
    exact lasting.running session _ ((restoresWithin steps).evaluate value session.machine) holds

theorem reach {session : Session} (holds : property session) (requests : List Request) :
    property (session.reach requests) :=
  reach_of_keeps lasting.perform holds requests

end Lasting

/-- A session is outside of all local scopes. -/
def Outside (session : Session) : Prop :=
  session.machine.environment = globalEnvironment

/-- No request leads into a local scope. -/
theorem lasting_outside : Lasting Outside :=
  ⟨fun _ _ outside => outside, fun _ _ outside => outside,
    fun _ _ back outside => back.environment.trans outside⟩

/-- No request changes what a sink refuses. -/
theorem lasting_policy (policy : SinkPolicy) :
    Lasting fun session => session.machine.sink.policy = policy :=
  ⟨fun _ _ same => same, fun _ _ same => same, fun _ _ back same => back.policy.trans same⟩

/-- No request changes the host. -/
theorem lasting_host (host : Host) : Lasting fun session => session.machine.host = host :=
  ⟨fun _ _ same => same, fun _ _ same => same, fun _ _ back same => back.host.trans same⟩

/-- Whatever is evaluated, on any machine and however it ends, the environment
behind it is the one in front of it. So a session is outside of all local scopes
between any two requests, and a run in it between any two statements of its
program. -/
theorem environment_restored :
    (∀ steps value, (Lox.evaluate steps value).Restores) ∧
    (∀ steps statement, (execute steps statement).Restores) ∧
    (∀ steps body, (Flow.sequence (execute steps) body).Restores) ∧
    (∀ steps environment body,
      (Run.within environment (Flow.sequence (execute steps) body)).Restores) ∧
    (∀ steps callable arguments line, (invoke steps callable arguments line).Restores) ∧
    (∀ steps program, (interpret steps program).Restores) ∧
    ∀ host policy requests,
      ((Session.start host policy).reach requests).machine.environment = globalEnvironment ∧
      ∀ distances steps program statement reached,
        Moment.Reached steps program
          { ((Session.start host policy).reach requests).machine with distances := distances }
          statement reached →
        reached.environment = globalEnvironment ∧
          ((execute steps statement).behind reached).environment = globalEnvironment := by
  have sequence (steps : Nat) (body : List Stmt) :
      (Flow.sequence (execute steps) body).Restores :=
    Run.restores_sequence (restoresWithin steps).execute body
  refine ⟨fun steps => (restoresWithin steps).evaluate, fun steps => (restoresWithin steps).execute,
    sequence, fun steps environment body => Run.restores_within environment (sequence steps body),
    fun steps => (restoresWithin steps).invoke, restores_interpret, ?_⟩
  intro host policy requests
  have fresh : (Session.start host policy).Outside := rfl
  have outside := lasting_outside.reach fresh requests
  refine ⟨outside, fun distances steps program statement reached reach => ?_⟩
  have before : reached.environment = globalEnvironment := reach.back.environment.trans outside
  exact ⟨before, ((restoresWithin steps).execute statement reached).environment.trans before⟩

end Session

end Lox
