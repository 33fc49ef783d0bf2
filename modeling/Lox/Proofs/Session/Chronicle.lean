import Lox.Proofs.Chronicle.Evaluation
import Lox.Proofs.Chronicle.Forgetting
import Lox.Proofs.Session.Alike

/-!
# Sessions with a chronicle

Everything that happens in a session can be written down from its start, whatever the
session is asked. It does what it does without a chronicle. And the chronicle is sound at
any time.
-/

namespace Lox

namespace Session

/-! ## Requests that are written down -/

/-- A session with everything that has happened in it. -/
structure Chronicled where
  chronicle : Chronicle
  nextReference : Nat

/-- One step of a session that is written down. -/
abbrev Recording := EStateM Failure Chronicled

/-- The session itself. -/
def Chronicled.forget (session : Chronicled) : Session :=
  ⟨session.chronicle.machine, session.nextReference⟩

namespace Recording

variable {α : Type}

/-- A step of the session that runs nothing. -/
def lift (interaction : Interaction α) : Recording α := fun session =>
  match interaction session.forget with
  | .ok value after =>
      .ok value ⟨session.chronicle.proceed after.machine, after.nextReference⟩
  | .error failure after =>
      .error failure ⟨session.chronicle.proceed after.machine, after.nextReference⟩

/-- Let a step run on the machine. -/
def running (run : Chronicling α) : Recording α := fun session =>
  match run session.chronicle with
  | .ok value chronicle => .ok value { session with chronicle := chronicle }
  | .error halt chronicle => .error (.ofHalt halt) { session with chronicle := chronicle }

/-- Read a text and bind its names. -/
def check (source : String) : Recording Unit := do
  let program ← lift (reading (readProgram source))
  lift (Session.bind program)

/-- Read a text and run it without binding its names. -/
def runUnbound (steps : Nat) (source : String) : Recording Unit := do
  let program ← lift (reading (readProgram source))
  running (Chronicling.interpret steps program)

/-- Read a text, bind its names and run it. -/
def run (steps : Nat) (source : String) : Recording Unit := do
  let program ← lift (reading (readProgram source))
  lift (Session.bind program)
  running (Chronicling.interpret steps program)

/-- Read an expression and evaluate it. -/
def evaluate (steps : Nat) (source : String) : Recording Value := do
  let expression ← lift (reading (readExpression source))
  running (Chronicling.evaluate steps expression)

/-- Do what is asked. -/
def perform : Request → Recording (Option Value)
  | .check source => do
      check source
      return none
  | .run steps source => do
      run steps source
      return none
  | .runUnbound steps source => do
      runUnbound steps source
      return none
  | .evaluate steps source => do
      let value ← evaluate steps source
      return some value

end Recording

namespace Chronicled

/-- A session in which nothing has run yet. -/
def start (host : Host) (policy : SinkPolicy) : Chronicled :=
  ⟨⟨.start host policy, [.moment (.start host policy)]⟩, 0⟩

/-- The session after a request, whether that failed or not. -/
def next (session : Chronicled) (request : Request) : Chronicled :=
  match Recording.perform request session with
  | .ok _ after => after
  | .error _ after => after

/-- The session after several requests. -/
def reach (session : Chronicled) (requests : List Request) : Chronicled :=
  requests.foldl next session

end Chronicled

/-! ## Writing down makes no difference -/

namespace Recording

/-- What happened in the session, without what was written down. -/
def forget {α : Type} : EStateM.Result Failure Chronicled α → EStateM.Result Failure Session α
  | .ok value after => .ok value after.forget
  | .error failure after => .error failure after.forget

/-- A step that is written down does in the session what a plain step does. -/
def Forgets {α : Type} (step : Recording α) (plain : Interaction α) : Prop :=
  ∀ session : Chronicled, forget (step session) = plain session.forget

section Forgetting

variable {α β : Type} {step : Recording α} {plain : Interaction α}

theorem forgets_pure (value : α) : Forgets (pure value) (pure value) := fun _ => rfl

theorem Forgets.bind {next : α → Recording β} {plainNext : α → Interaction β}
    (front : Forgets step plain) (back : ∀ value, Forgets (next value) (plainNext value)) :
    Forgets (step >>= next) (plain >>= plainNext) := by
  intro session
  have first := front session
  change forget (EStateM.bind step next session) =
    EStateM.bind plain plainNext session.forget
  unfold EStateM.bind
  rw [← first]
  cases step session with
  | ok value after => exact back value after
  | error failure after => rfl

theorem forgets_lift (plain : Interaction α) : Forgets (lift plain) plain := by
  intro session
  unfold lift
  cases plain session.forget with
  | ok value after => rfl
  | error failure after => rfl

theorem forgets_running {run : Chronicling α} {plain : Run α} (forgets : run.Forgets plain) :
    Forgets (running run) (Session.running plain) := by
  intro session
  have same : Chronicle.forget (run session.chronicle) = plain session.forget.machine :=
    forgets session.chronicle
  unfold running Session.running
  rw [← same]
  cases run session.chronicle with
  | ok value after => rfl
  | error halt after => rfl

/-- A program runs as it does without a chronicle. -/
theorem forgets_interpreting (steps : Nat) (program : List Stmt) :
    Forgets (running (Chronicling.interpret steps program))
      (Session.running (interpret steps program)) :=
  forgets_running (Chronicling.forgets_interpret steps program)

theorem forgets_perform (request : Request) : Forgets (perform request) request.perform := by
  cases request with
  | check source =>
      have read : Forgets (check source) (Session.check source) :=
        (forgets_lift _).bind fun program => forgets_lift (Session.bind program)
      exact read.bind fun _ => forgets_pure none
  | run steps source =>
      have ran : Forgets (run steps source) (Session.run steps source) :=
        (forgets_lift _).bind fun program => (forgets_lift (Session.bind program)).bind fun _ =>
          forgets_interpreting steps program
      exact ran.bind fun _ => forgets_pure none
  | runUnbound steps source =>
      have ran : Forgets (runUnbound steps source) (Session.runUnbound steps source) :=
        (forgets_lift _).bind (forgets_interpreting steps)
      exact ran.bind fun _ => forgets_pure none
  | evaluate steps source =>
      have evaluated : Forgets (evaluate steps source) (Session.evaluate steps source) :=
        (forgets_lift _).bind fun expression =>
          forgets_running ((Chronicling.forgetsWithin steps).evaluate expression)
      exact evaluated.bind fun value => forgets_pure (some value)

end Forgetting

end Recording

namespace Chronicled

theorem forget_next (session : Chronicled) (request : Request) :
    (session.next request).forget = session.forget.next request := by
  have same := Recording.forgets_perform request session
  unfold next Session.next
  rw [← same]
  cases Recording.perform request session <;> rfl

/-- The session does what it is asked as it does without a chronicle. -/
theorem forget_reach (session : Chronicled) (requests : List Request) :
    (session.reach requests).forget = session.forget.reach requests := by
  induction requests generalizing session with
  | nil => rfl
  | cons request rest ih =>
      change ((session.next request).reach rest).forget = _
      rw [ih, forget_next, Session.reach_cons]

end Chronicled

/-! ## The chronicle is sound -/

/-- An expression that a text holds follows the rules of the grammar. -/
theorem placed_of_readExpression {source : String} {next : Nat} {value : Expr}
    (read : (readExpression source next).1 = .ok value) : value.Placed := by
  obtain ⟨-, accepted⟩ := readExpression_ok_iff.mp read
  apply Grammar.places_expression (Grammar.sound_readExpression accepted).1
  intro token inside
  exact genuine_scan source token (List.takeWhile_sublist _ |>.subset inside)

namespace Recording

/-- A step that leaves a sound continuation of the chronicle behind, and what its result
is like. -/
def Keeps {α : Type} (step : Recording α) (before : Chronicled)
    (result : Chronicled → α → Prop) : Prop :=
  match step before with
  | .ok value after => before.chronicle.Grows after.chronicle ∧ result after value
  | .error _ after => before.chronicle.Grows after.chronicle

section Keeping

variable {α β : Type} {before : Chronicled} {result : Chronicled → α → Prop}

theorem keeps_pure {value : α} (sound : before.chronicle.Sound) (holds : result before value) :
    Keeps (pure value) before result :=
  ⟨sound.grows, holds⟩

theorem Keeps.bind {step : Recording α} {next : α → Recording β} {final : Chronicled → β → Prop}
    (front : Keeps step before result)
    (back : ∀ middle value, middle.chronicle.Sound → result middle value →
      Keeps (next value) middle final) :
    Keeps (step >>= next) before final := by
  change Keeps (EStateM.bind step next) before final
  unfold Keeps EStateM.bind at *
  cases ran : step before with
  | error failure middle =>
      rw [ran] at front
      exact front
  | ok value middle =>
      rw [ran] at front
      obtain ⟨grows, holds⟩ := front
      have behind := back middle value grows.sound holds
      dsimp only
      cases ended : next value middle with
      | error failure last =>
          rw [ended] at behind
          exact grows.trans behind
      | ok value last =>
          rw [ended] at behind
          exact ⟨grows.trans behind.1, behind.2⟩

theorem keeps_reading (sound : before.chronicle.Sound) (read : Nat → Except Failure α × Nat) :
    Keeps (lift (reading read)) before fun _ value => ∃ next, (read next).1 = .ok value := by
  have grows := sound.proceed sound.present
  unfold Keeps lift
  rw [reading_eq]
  cases held : (read before.forget.nextReference).1 with
  | error failure => exact grows
  | ok value => exact ⟨grows, before.forget.nextReference, held⟩

theorem keeps_binding (sound : before.chronicle.Sound) (program : List Stmt) :
    Keeps (lift (Session.bind program)) before fun _ _ => True := by
  have grows : before.chronicle.Grows
      (before.chronicle.proceed (before.forget.bound program)) :=
    sound.proceed (sound.present.of_same rfl rfl)
  unfold Keeps lift
  rw [bind_eq]
  cases (bindProgram program before.forget.machine.distances).1 with
  | nil => exact ⟨grows, trivial⟩
  | cons first rest => exact grows

theorem keeps_running {run : Chronicling α} {holds : Chronicle → α → Prop}
    (keeps : run.Keeps before.chronicle holds) :
    Keeps (running run) before fun after => holds after.chronicle := by
  unfold Keeps running
  unfold Chronicling.Keeps at keeps
  cases ran : run before.chronicle with
  | ok value after =>
      rw [ran] at keeps
      exact keeps
  | error halt after =>
      rw [ran] at keeps
      exact keeps

theorem keeps_interpreting (sound : before.chronicle.Sound) (steps : Nat) {program : List Stmt}
    (placed : Stmt.ListPlaced program) :
    Keeps (running (Chronicling.interpret steps program)) before fun _ _ => True :=
  keeps_running (Chronicling.keeps_interpret steps placed sound)

/-- Whatever is asked, every value told has arisen. -/
theorem keeps_perform (sound : before.chronicle.Sound) (request : Request) :
    Keeps (perform request) before fun after told =>
      ∀ value, told = some value → value.Arisen after.chronicle.past := by
  cases request with
  | check source =>
      have read : Keeps (check source) before fun _ _ => True :=
        (keeps_reading sound _).bind fun _ program sound _ => keeps_binding sound program
      exact read.bind fun _ _ sound _ => keeps_pure sound (by simp)
  | run steps source =>
      have ran : Keeps (run steps source) before fun _ _ => True := by
        apply (keeps_reading sound _).bind
        rintro middle program sound ⟨_, read⟩
        apply (keeps_binding sound program).bind
        exact fun last _ sound _ => keeps_interpreting sound steps (placed_of_read read).1
      exact ran.bind fun _ _ sound _ => keeps_pure sound (by simp)
  | runUnbound steps source =>
      have ran : Keeps (runUnbound steps source) before fun _ _ => True := by
        apply (keeps_reading sound _).bind
        rintro middle program sound ⟨_, read⟩
        exact keeps_interpreting sound steps (placed_of_read read).1
      exact ran.bind fun _ _ sound _ => keeps_pure sound (by simp)
  | evaluate steps source =>
      have evaluated : Keeps (evaluate steps source) before fun after value =>
          value.Arisen after.chronicle.past := by
        apply (keeps_reading sound _).bind
        rintro middle expression sound ⟨_, read⟩
        have placed := placed_of_readExpression read
        exact keeps_running ((Chronicling.keepsWithin steps).evaluate placed sound)
      apply evaluated.bind
      intro after value sound arisen
      exact keeps_pure sound (by rintro _ ⟨⟩; exact arisen)

end Keeping

end Recording

namespace Chronicled

theorem sound_start (time : Native → Nat → Except String Float) (policy : SinkPolicy) :
    (start (Host.ofTime time) policy).chronicle.Sound := by
  have agrees : Chronicle.Agrees ⟨.start (Host.ofTime time) policy, []⟩ := by
    constructor
    · exact fun occurrence happened => nomatch happened
    · intro scope name value held
      obtain ⟨rfl, rfl⟩ := held_start held
      trivial
    · exact fun ⟨index⟩ name => rfl
    · exact fun function calls arguments value answered => plain_ofTime arguments answered
  have sound : Chronicle.Sound ⟨.start (Host.ofTime time) policy, []⟩ :=
    ⟨agrees, fun front machine back split => absurd split (by simp)⟩
  exact (sound.proceed agrees).sound

theorem sound_next {session : Chronicled} (sound : session.chronicle.Sound) (request : Request) :
    (session.next request).chronicle.Sound := by
  have keeps := Recording.keeps_perform sound request
  unfold Recording.Keeps at keeps
  unfold next
  split
  · next ran =>
      rw [ran] at keeps
      exact keeps.1.sound
  · next ran =>
      rw [ran] at keeps
      exact keeps.sound

/-- The chronicle is sound whatever the session has been asked. -/
theorem sound_reach (time : Native → Nat → Except String Float) (policy : SinkPolicy)
    (requests : List Request) :
    ((start (Host.ofTime time) policy).reach requests).chronicle.Sound := by
  have all {session : Chronicled} (sound : session.chronicle.Sound) :
      (session.reach requests).chronicle.Sound := by
    induction requests generalizing session with
    | nil => exact sound
    | cons request rest ih => exact ih (sound_next sound request)
  exact all (sound_start time policy)

end Chronicled

end Session

end Lox
