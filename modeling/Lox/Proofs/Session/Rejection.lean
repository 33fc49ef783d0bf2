import Lox.Proofs.Binding.Rules
import Lox.Proofs.Session.Agreement
import Lox.Proofs.Session.Alike

/-!
# Rejected texts leave no trace

A text in which reading or binding finds a fault is not run. It takes reference
numbers from the supply, and distances may be noted for them, but nothing that
is asked later can tell: the session goes on as if the text had never been
there.
-/

namespace Lox

/-- What can be seen of an answer: whether it is a failure, the texts of the value
if there is one, and everything printed so far. -/
structure Reply where
  outcome : Except Failure (Option (String × String))
  output : String

namespace Session

/-- The reply to a request. -/
def reply (session : Session) (request : Request) : Reply :=
  match request.perform session with
  | .ok value after =>
      ⟨.ok (value.map fun value => (value.text, value.inspect after.machine.store)), after.output⟩
  | .error failure after => ⟨.error failure, after.output⟩

/-- The replies to several requests. -/
def replies (session : Session) : List Request → List Reply
  | [] => []
  | request :: rest => session.reply request :: (session.next request).replies rest

/-- The same session with another sink. -/
def withSink (session : Session) (sink : Sink) : Session :=
  { session with machine := { session.machine with sink := sink } }

/-! ## Replies of sessions alike -/

section Replies

variable {number : Nat → Nat → Prop} {one other : Session}

/-- Sessions alike give the same reply and stay alike. -/
theorem Alike.reply (alike : one.Alike number other) (request : Request) :
    one.reply request = other.reply request ∧
      ∃ number, (one.next request).Alike number (other.next request) := by
  have performed := corresponds_perform request alike
  unfold Session.reply Session.next
  generalize request.perform one = result, request.perform other = result' at performed
  cases performed with
  | @error _ after after' number sessions =>
      have output : after.output = after'.output := congrArg Sink.accepted sessions.machine.sink
      refine ⟨?_, number, sessions⟩
      simp only [output]
  | @ok _ _ after after' number results sessions =>
      have output : after.output = after'.output := congrArg Sink.accepted sessions.machine.sink
      refine ⟨?_, number, sessions⟩
      cases results with
      | none => simp only [output, Option.map_none]
      | some same =>
          simp only [output, Option.map_some, Value.text, same.pieces,
            same.inspect sessions.machine.store]

theorem replies_append (session : Session) (past future : List Request) :
    session.replies (past ++ future) =
      session.replies past ++ (session.reach past).replies future := by
  induction past generalizing session with
  | nil => rfl
  | cons request rest ih => exact congrArg (session.reply request :: ·) (ih (session.next request))

theorem length_replies (session : Session) (requests : List Request) :
    (session.replies requests).length = requests.length := by
  induction requests generalizing session with
  | nil => rfl
  | cons request rest ih => exact congrArg (· + 1) (ih (session.next request))

theorem Alike.replies (alike : one.Alike number other) (requests : List Request) :
    one.replies requests = other.replies requests := by
  induction requests generalizing number one other with
  | nil => rfl
  | cons request rest ih =>
      obtain ⟨same, _, behind⟩ := alike.reply request
      unfold Session.replies
      rw [same, ih behind]

/-- Sessions alike stay alike whatever they are asked. -/
theorem Alike.reach (alike : one.Alike number other) (requests : List Request) :
    ∃ number, (one.reach requests).Alike number (other.reach requests) := by
  induction requests generalizing number one other with
  | nil => exact ⟨number, alike⟩
  | cons request rest ih =>
      obtain ⟨_, _, behind⟩ := alike.reply request
      exact ih behind

/-- A fresh session is alike itself, and no number stands for any other. -/
theorem alike_start (time : Native → Nat → Except String Float) (policy : SinkPolicy) :
    (Session.start (Host.ofTime time) policy).Alike (fun _ _ => False)
      (Session.start (Host.ofTime time) policy) := by
  have vacant (free : Nat) : (Session.start (Host.ofTime time)
      policy).machine.distances.get? free = none := Distances.get?_empty free
  have scopes (reference : ScopeRef) :
      ((Session.start (Host.ofTime time) policy).machine.store.scope reference).Related
        (Value.Alike (.exact fun _ _ => False))
        ((Session.start (Host.ofTime time) policy).machine.store.scope reference) := by
    obtain ⟨index⟩ := reference
    cases index with
    | zero => exact Bindings.related_empty.set clock.name (.native clock)
    | succ index => exact Bindings.related_empty
  refine ⟨⟨⟨rfl, rfl, scopes, fun _ => Bindings.related_empty⟩, rfl, ?_,
    rfl, rfl, rfl, time, ?_, ?_⟩,
    ?_, ?_, fun free _ => vacant free, fun free _ => vacant free⟩
  · exact False.elim
  · exact fun _ _ _ => rfl
  · exact fun _ _ _ => rfl
  · exact fun _ _ _ _ impossible => impossible.elim
  · exact False.elim

end Replies

/-! ## Rejection -/

/-- A session after nothing but giving out numbers and noting distances for them. -/
structure Notes (before after : Session) : Prop where
  machine : after.machine = { before.machine with distances := after.machine.distances }
  supplied : before.nextReference ≤ after.nextReference
  kept : ∀ number, number < before.nextReference ∨ after.nextReference ≤ number →
    after.machine.distances.get? number = before.machine.distances.get? number

/-- A request fails before anything is run, whatever the sink. -/
structure Rejects (session : Session) (request : Request) (failure : Failure) (after : Session) :
    Prop where
  notes : session.Notes after
  unheard : ∀ sink, request.perform (session.withSink sink) = .error failure (after.withSink sink)

section Rejection

variable {session after : Session} {failure : Failure} {steps next : Nat} {source : String}
variable {program : List Stmt}

theorem notes_supply (le : session.nextReference ≤ next) :
    session.Notes { session with nextReference := next } :=
  ⟨rfl, le, fun _ _ => rfl⟩

/-- Binding a program that was read notes distances for its own numbers only. -/
theorem notes_bound (read : (readProgram source session.nextReference).1 = .ok program) :
    session.Notes ⟨session.bound program, (readProgram source session.nextReference).2⟩ := by
  have fresh := (placed_of_read read).2
  refine ⟨rfl, fresh.le, fun number outside => ?_⟩
  apply distances_bindProgram
  intro own
  have range := fresh.range number own
  dsimp only at outside
  omega

/-- A run that halts is no rejection. -/
theorem exitCode_running {α : Type} {run : Run α}
    (failed : running run session = .error failure after) : failure.exitCode = 70 := by
  unfold running at failed
  split at failed
  · cases failed
  · next halt _ _ =>
      cases failed
      cases halt <;> rfl

/-- What becomes of a text that is read in order to be used in some way. -/
theorem reading_use {α β : Type} (session : Session) (read : Nat → Except Failure α × Nat)
    (use : α → Interaction β) :
    (reading read >>= use) session =
      match (read session.nextReference).1 with
      | .error failure =>
          .error failure { session with nextReference := (read session.nextReference).2 }
      | .ok value =>
          use value { session with nextReference := (read session.nextReference).2 } := by
  rw [step_bind, reading_eq]
  cases (read session.nextReference).1 <;> rfl

/-- A text that is read in order to be used is rejected by the reading or by the
use. -/
theorem rejects_reading {α β : Type} {read : Nat → Except Failure α × Nat}
    {use : α → Interaction β} (answer : β → Option Value) {request : Request}
    (performs : request.perform = do
      let value ← reading read >>= use
      return answer value)
    (supplies : session.nextReference ≤ (read session.nextReference).2)
    (used : ∀ value, (read session.nextReference).1 = .ok value →
      use value { session with nextReference := (read session.nextReference).2 } =
          .error failure after →
        session.Notes after ∧ ∀ sink,
          use value ({ session with nextReference := (read session.nextReference).2 }.withSink sink)
            = .error failure (after.withSink sink))
    (failed : request.perform session = .error failure after) :
    session.Rejects request failure after := by
  rw [performs, step_bind, reading_use] at failed
  have unread (sink : Sink) : (session.withSink sink).nextReference = session.nextReference := rfl
  cases found : (read session.nextReference).1 with
  | error fault =>
      rw [found] at failed
      cases failed
      refine ⟨notes_supply supplies, fun sink => ?_⟩
      rw [performs, step_bind, reading_use, unread, found]
      rfl
  | ok value =>
      rw [found] at failed
      dsimp only at failed
      cases ran : use value { session with nextReference := (read session.nextReference).2 } with
      | ok result behind =>
          rw [ran] at failed
          cases failed
      | error fault behind =>
          rw [ran] at failed
          cases failed
          obtain ⟨notes, unheard⟩ := used value found ran
          refine ⟨notes, fun sink => ?_⟩
          rw [performs, step_bind, reading_use, unread, found]
          have again := unheard sink
          unfold withSink at again ⊢
          dsimp only at again ⊢
          rw [again]

/-- A program is rejected where binding it finds faults. -/
theorem rejects_bind (read : (readProgram source session.nextReference).1 = .ok program)
    (failed : Session.bind program
      { session with nextReference := (readProgram source session.nextReference).2 } =
        .error failure after) :
    session.Notes after ∧ ∀ sink,
      Session.bind program ({ session with
        nextReference := (readProgram source session.nextReference).2 }.withSink sink) =
          .error failure (after.withSink sink) := by
  have notes := notes_bound read
  have unheard (sink : Sink) := bind_eq ({ session with
    nextReference := (readProgram source session.nextReference).2 }.withSink sink) program
  unfold withSink at unheard ⊢
  rw [bind_eq] at failed
  dsimp only at failed unheard ⊢
  cases faults : (bindProgram program session.machine.distances).1 with
  | nil =>
      rw [faults] at failed
      cases failed
  | cons first rest =>
      rw [faults] at failed unheard
      cases failed
      exact ⟨notes, unheard⟩

/-- A request that fails with the exit code of a wrong program fails before
anything is run. -/
theorem rejects {request : Request} (failed : request.perform session = .error failure after)
    (code : failure.exitCode = 65) : session.Rejects request failure after := by
  have unrun {α : Type} {run : Run α} {before : Session}
      (halted : running run before = .error failure after) : False := by
    have seventy := exitCode_running halted
    omega
  cases request with
  | check source =>
      refine rejects_reading (fun _ => none) rfl (supplies_read source _) ?_ failed
      exact fun program read bound => rejects_bind read bound
  | run steps source =>
      refine rejects_reading (fun _ => none) rfl (supplies_read source _) ?_ failed
      intro program read ran
      rw [step_bind] at ran
      cases bound : Session.bind program
          { session with nextReference := (readProgram source session.nextReference).2 } with
      | ok _ middle =>
          rw [bound] at ran
          exact (unrun ran).elim
      | error fault middle =>
          rw [bound] at ran
          cases ran
          obtain ⟨notes, unheard⟩ := rejects_bind read bound
          refine ⟨notes, fun sink => ?_⟩
          rw [step_bind, unheard sink]
  | runUnbound steps source =>
      refine rejects_reading (fun _ => none) rfl (supplies_read source _) ?_ failed
      exact fun program _ ran => (unrun ran).elim
  | evaluate steps source =>
      refine rejects_reading some rfl (supplies_readExpression_text source _) ?_ failed
      exact fun expression _ ran => (unrun ran).elim

/-- Distances noted for numbers that nothing had yet make no difference to a
session. -/
theorem Notes.alike {number : Nat → Nat → Prop} (notes : session.Notes after)
    (alike : session.Alike number session) : session.Alike number after := by
  have kept {first second : Nat} (paired : number first second) :
      session.machine.distances.get? first = after.machine.distances.get? second := by
    have below := (alike.given paired).2
    exact (alike.machine.distances paired).trans (notes.kept second (.inl below)).symm
  constructor
  · rw [notes.machine]
    exact alike.machine.widen (.refl _) kept
  · exact alike.apart
  · intro first second paired
    have below := alike.given paired
    exact ⟨below.1, Nat.lt_of_lt_of_le below.2 notes.supplied⟩
  · exact alike.vacant
  · intro free beyond
    have before := alike.vacant free (Nat.le_trans notes.supplied beyond)
    exact (notes.kept free (.inr beyond)).trans before

/-- A request that fails with the exit code of a wrong program changes nothing but
the distances noted for uses of names. It does so whatever the sink, and without
writing to it. Deleting it from a session deletes its reply and changes no other
one. -/
theorem rejection_ignored (time : Native → Nat → Except String Float) (policy : SinkPolicy)
    (past : List Request) (request : Request) (failure : Failure) (after : Session)
    (failed : request.perform ((Session.start (Host.ofTime time) policy).reach past) =
      .error failure after) (code : failure.exitCode = 65) :
    (∃ distances, after.machine =
      { ((Session.start (Host.ofTime time) policy).reach past).machine with
        distances := distances }) ∧
    (∀ sink, request.perform (((Session.start (Host.ofTime time) policy).reach past).withSink sink)
      = .error failure (after.withSink sink)) ∧
    ∀ future,
      ((Session.start (Host.ofTime time) policy).replies (past ++ request :: future)).eraseIdx
          past.length =
        (Session.start (Host.ofTime time) policy).replies (past ++ future) := by
  have rejected := rejects failed code
  refine ⟨⟨_, rejected.notes.machine⟩, rejected.unheard, fun future => ?_⟩
  obtain ⟨number, alike⟩ := (alike_start time policy).reach past
  have same := (rejected.notes.alike alike).replies future
  have next : ((Session.start (Host.ofTime time) policy).reach past).next request = after := by
    unfold Session.next
    rw [failed]
  rw [replies_append, replies_append, Session.replies, next, same]
  rw [List.eraseIdx_append_of_length_le (Nat.le_of_eq (length_replies _ past)), length_replies,
    Nat.sub_self, List.eraseIdx_cons_zero]

theorem rejects_redeclaration :
    (match (Request.run 9 "{ var a; a; var a; }").perform (silent.reach [.run 9 "var b;"]) with
    | .error failure after =>
        failure.exitCode == 65 && after.machine.distances.get? 0 == some 0
    | _ => false) = true := by
  decide +kernel

/-- A text that is rejected after a distance was noted for a use of a name in it. -/
theorem rejection_ignored_redeclaration : ∃ past request failure after,
    past = [.run 9 "var b;"] ∧ request = .run 9 "{ var a; a; var a; }" ∧
    request.perform (silent.reach past) = .error failure after ∧ failure.exitCode = 65 ∧
    after.machine.distances.get? 0 = some 0 ∧
    (∃ distances, after.machine = { (silent.reach past).machine with distances := distances }) ∧
    ∀ future, (silent.replies (past ++ request :: future)).eraseIdx past.length =
      silent.replies (past ++ future) := by
  have ran := rejects_redeclaration
  unfold silent at ran ⊢
  split at ran
  · next failure after failed =>
      simp only [Bool.and_eq_true, beq_iff_eq] at ran
      obtain ⟨notes, _, deleted⟩ := rejection_ignored _ _ _ _ failure after failed ran.1
      exact ⟨_, _, failure, after, rfl, rfl, failed, ran.1, ran.2, notes, deleted⟩
  · cases ran

end Rejection

/-! ## What is rejected -/

/-- Binding finds one fault for every construct of a program that breaks a rule, at
the token to blame, and no other faults. It accepts exactly the programs in which no
construct breaks a rule. -/
theorem rules_enforced (session : Session) (program : List Stmt) :
    (bindProgram program session.machine.distances).1 = Site.faults (Site.ofProgram program) ∧
      ((∃ after, Session.bind program session = .ok () after) ↔
        ∀ site ∈ Site.ofProgram program, site.fault? = none) ∧
      ∀ failure after, Session.bind program session = .error failure after →
        failure = .ofDiagnostics (Site.faults (Site.ofProgram program)) := by
  have found := faults_bindProgram program session.machine.distances
  refine ⟨found, ?_, ?_⟩
  · rw [← Site.faults_eq_nil, ← found, bind_eq]
    cases (bindProgram program session.machine.distances).1 <;> simp
  · intro failure after failed
    rw [bind_eq, found] at failed
    cases faults : Site.faults (Site.ofProgram program) with
    | nil =>
        rw [faults] at failed
        cases failed
    | cons first rest =>
        rw [faults] at failed
        cases failed
        rfl

-- Every rule is broken once here. A method other than the initializer may return a value.
example :
    (match (readProgram ("return; { var a; var a = a; var b = b; } this; super.m; " ++
        "class A < A { init() { return 1; } m() { return 1; } } " ++
        "class B { m() { super.m(); } }") 0).1 with
    | .ok program => (Site.faults (Site.ofProgram program)).map fun found => found.fault
    | .error _ => []) =
      [.binding .returnAtTopLevel, .binding .alreadyDeclared, .binding .readInOwnInitializer,
        .binding .thisOutsideClass, .binding .superOutsideClass, .binding .inheritsFromItself,
        .binding .valueFromInitializer, .binding .superWithoutSuperclass] := by
  decide +kernel

end Session

end Lox
