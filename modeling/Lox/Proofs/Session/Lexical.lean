import Lox.Proofs.Lexical.Simulation
import Lox.Proofs.Session.Receivers
import Lox.Proofs.Session.Rejection

/-!
# Sessions of the direct evaluator

A session can be run by the direct evaluator, which knows no distances and no
chains of scopes. Its texts are read as in any other session, and they are checked
by the rules alone. Text for text it gives the same replies.
-/

namespace Lox

/-! ## Orderly sessions -/

namespace Session

/-- In every text that a session accepts, loops with a variable of their own stand in
lists of statements. -/
def Orderly (start : Session) (inputs : List (Nat × String)) : Prop :=
  ∀ past steps source future program, inputs = past ++ (steps, source) :: future →
    (start.after past).Accepts source program → Stmt.ListOrderly program

variable {start : Session} {past inputs : List (Nat × String)} {visit : Visit}

theorem next_run (session : Session) (steps : Nat) (source : String) :
    session.next (.run steps source) = session.proceed (steps, source) := by
  unfold next Request.perform proceed
  dsimp only
  rw [step_bind]
  cases Session.run steps source session <;> rfl

theorem Orderly.front (orderly : start.Orderly inputs) {future : List (Nat × String)}
    (shape : inputs = past ++ future) : start.Orderly past := by
  intro earlier steps source later program split accepts
  exact orderly earlier steps source (later ++ future) program (by simp [shape, split]) accepts

theorem Visited.orderly (visited : start.Visited inputs visit) (orderly : start.Orderly inputs) :
    visit.node.Orderly := by
  have both : visit.node.Placed ∧ visit.node.Orderly := by
    apply visited.induction
    · exact fun earlier contains =>
        ⟨contains.placed earlier.1, contains.orderly earlier.1 earlier.2⟩
    · intro past steps source future program shape accepts front statement back listed
      have placed := (placed_of_read accepts.1).1
      have inside : statement ∈ program := by simp [listed]
      exact ⟨Stmt.listPlaced_iff.mp placed statement inside,
        Stmt.listOrderly_iff.mp (orderly _ _ _ _ _ shape accepts) statement inside⟩
  exact both.2

end Session

/-! ## Direct sessions -/

namespace Lexical

/-- A session whose texts are evaluated directly. -/
structure Session where
  state : State
  nextReference : Nat

namespace Session

/-- A session in which nothing has run yet. -/
def start (host : Host) (policy : SinkPolicy) : Session :=
  ⟨.start host policy, 0⟩

/-- Everything printed so far. -/
def output (session : Session) : String :=
  session.state.sink.accepted

/-- Read a text, check it and run it. -/
def run (steps : Nat) (source : String) : EStateM Failure Session Unit := fun session =>
  let (result, nextReference) := readProgram source session.nextReference
  match result with
  | .error failure => .error failure ⟨session.state, nextReference⟩
  | .ok program =>
      match Site.faults (Site.ofProgram program) with
      | first :: rest => .error (.ofDiagnostics (first :: rest)) ⟨session.state, nextReference⟩
      | [] =>
          match interpret steps program session.state with
          | .ok _ state => .ok () ⟨state, nextReference⟩
          | .error halt state => .error (.ofHalt halt) ⟨state, nextReference⟩

/-- The session after a text, whether that failed or not. -/
def next (session : Session) (input : Nat × String) : Session :=
  match run input.1 input.2 session with
  | .ok _ after => after
  | .error _ after => after

/-- The reply to a text: the outcome and everything printed by then. -/
def reply (session : Session) (input : Nat × String) : Reply :=
  match run input.1 input.2 session with
  | .ok _ after => ⟨.ok none, after.output⟩
  | .error failure after => ⟨.error failure, after.output⟩

/-- The replies to several texts. -/
def replies (session : Session) : List (Nat × String) → List Reply
  | [] => []
  | input :: rest => session.reply input :: (session.next input).replies rest

end Session

/-! ## More visits -/

section Widening

variable {survey wider : Survey} {coupling : Coupling}

theorem lists_of_subset (subset : ∀ visit, survey.visited visit → wider.visited visit)
    {statements : List Stmt} {analysis : Analysis} {loose : List (List String)}
    (lists : survey.Lists statements analysis loose) : wider.Lists statements analysis loose :=
  fun front statement back shape => subset _ (lists front statement back shape)

theorem Coupling.HoldsClass.widen (subset : ∀ visit, survey.visited visit → wider.visited visit)
    {cls : Class} (holds : coupling.HoldsClass survey cls) : coupling.HoldsClass wider cls := by
  intro layer inside name method found
  obtain ⟨analysis, outer, declares⟩ := holds layer inside name method found
  obtain ⟨body, loose, lists⟩ := declares.lists
  exact ⟨analysis, outer, declares.identity, ⟨body, loose, lists_of_subset subset lists⟩,
    declares.scopes, declares.matching⟩

theorem Coupling.Holds.widen (subset : ∀ visit, survey.visited visit → wider.visited visit)
    {value : Value} (holds : coupling.Holds survey value) : coupling.Holds wider value := by
  cases value with
  | function closure =>
      obtain ⟨analysis, declares⟩ := holds
      obtain ⟨body, loose, lists⟩ := declares.lists
      exact ⟨analysis, declares.identity, ⟨body, loose, lists_of_subset subset lists⟩,
        declares.matching, declares.receiver⟩
  | cls cls => exact Coupling.HoldsClass.widen subset holds
  | object object => exact Coupling.HoldsClass.widen subset holds
  | _ => trivial

theorem Coupling.Sound.widen (subset : ∀ visit, survey.visited visit → wider.visited visit)
    (sound : coupling.Sound survey) : coupling.Sound wider :=
  { sound with
    stored := fun scope name value found => (sound.stored scope name value found).widen subset
    fielded := fun reference name value found =>
      (sound.fielded reference name value found).widen subset }

end Widening

/-! ## Texts side by side -/

/-- A session and a direct one that have come to the same between two texts. -/
structure Session.Follows (survey : Survey) (session : Lox.Session) (direct : Session) : Prop where
  sound : ∃ layout, Coupling.Sound survey ⟨session.machine, direct.state, layout⟩
  outside : session.machine.environment = globalEnvironment
  next : direct.nextReference = session.nextReference

/-- Both sessions come to the same with a text. -/
inductive Session.Ends (survey : Survey) :
    EStateM.Result Failure Lox.Session Unit → EStateM.Result Failure Session Unit → Prop where
  | ok {session : Lox.Session} {direct : Session} (follows : Follows survey session direct) :
      Ends survey (.ok () session) (.ok () direct)
  | error {failure : Failure} {session : Lox.Session} {direct : Session}
      (follows : Follows survey session direct) :
      Ends survey (.error failure session) (.error failure direct)

namespace Session

variable {survey : Survey} {session : Lox.Session} {direct : Session}

theorem Follows.output (follows : Follows survey session direct) :
    direct.output = session.output := by
  obtain ⟨layout, sound⟩ := follows.sound
  exact congrArg Sink.accepted sound.sink

/-- In a fresh session nothing is local. -/
theorem follows_start (survey : Survey) (time : Native → Nat → Except String Float)
    (policy : SinkPolicy) :
    Follows survey (Lox.Session.start (Host.ofTime time) policy)
      (start (Host.ofTime time) policy) := by
  refine ⟨⟨fun _ _ => none, ?_⟩, rfl, rfl⟩
  constructor
  · exact Nat.zero_lt_one
  · intro scope name value held
    obtain ⟨-, rfl⟩ := Lox.Session.held_start held
    trivial
  · rintro ⟨index⟩ name value held
    cases held
  · exact fun function calls arguments value answered =>
      Lox.Session.plain_ofTime arguments answered
  · exact fun _ _ _ _ => rfl
  · rfl
  · rfl
  · rfl
  · rfl
  · exact Array.map_empty.symm
  · rfl
  · exact fun _ _ _ _ placed => nomatch placed
  · rintro ⟨index⟩ name value apart held
    cases index with
    | zero => exact absurd rfl apart
    | succ index => cases held
  · exact fun _ _ _ placed => nomatch placed
  · exact fun _ _ _ _ _ placed => nomatch placed

/-- Whatever differs in distances and numbers only is left as far as before. -/
theorem Follows.bound (follows : Follows survey session direct) (program : List Stmt)
    (next : Nat) :
    Follows survey ⟨session.bound program, next⟩ ⟨direct.state, next⟩ := by
  obtain ⟨layout, sound⟩ := follows.sound
  have growth : Coupling.Extends ⟨session.machine, direct.state, layout⟩
      ⟨session.bound program, direct.state, layout⟩ :=
    ⟨.refl _, Nat.le_refl _, fun _ _ => rfl, fun _ _ _ placed => placed⟩
  refine ⟨⟨layout, ?_⟩, follows.outside, rfl⟩
  exact { sound with
    stored := fun scope name value found => (sound.stored scope name value found).grow growth
    fielded := fun reference name value found =>
      (sound.fielded reference name value found).grow growth }

/-! ### A text -/

section Text

variable {start : Lox.Session} {past inputs : List (Nat × String)} {steps : Nat} {source : String}

/-- What is known while an accepted text runs. -/
def setting (settled : Lox.Session.Settled start past) {program : List Stmt}
    (accepts : (start.after past).Accepts source program)
    (orderly : start.Orderly (past ++ [(steps, source)])) : Setting where
  survey := start.survey (past ++ [(steps, source)])
  distances := ((start.after past).bound program).distances
  accepted := fun _ visited => (settled.bound accepts visited).1
  guarded := fun _ visited => Lox.Session.Visited.guarded visited
  orderly := fun _ visited => Lox.Session.Visited.orderly visited orderly

/-- Both sessions read a text, check it and run it alike. -/
theorem Follows.run (follows : Follows (start.survey past) (start.after past) direct)
    (settled : Lox.Session.Settled start past)
    (orderly : start.Orderly (past ++ [(steps, source)])) :
    Ends (start.survey (past ++ [(steps, source)]))
      (Lox.Session.run steps source (start.after past)) (run steps source direct) := by
  have wider : Follows (start.survey (past ++ [(steps, source)])) (start.after past) direct := by
    obtain ⟨layout, sound⟩ := follows.sound
    have subset (visit : Visit) (visited : start.Visited past visit) :
        start.Visited (past ++ [(steps, source)]) visit := visited.append _
    exact ⟨⟨layout, sound.widen subset⟩, follows.outside, follows.next⟩
  unfold Session.run
  rw [Lox.Session.run_outcome, follows.next]
  dsimp only
  cases read : (readProgram source (start.after past).nextReference).1 with
  | error failure => exact .error ⟨wider.sound, wider.outside, rfl⟩
  | ok program =>
      have bound := wider.bound program (readProgram source (start.after past).nextReference).2
      dsimp only
      rw [faults_bindProgram]
      cases faults : Site.faults (Site.ofProgram program) with
      | cons first rest => exact .error bound
      | nil =>
          have accepts : (start.after past).Accepts source program :=
            ⟨read, (faults_bindProgram _ _).trans faults⟩
          obtain ⟨layout, sound⟩ := bound.sound
          have lists : (setting settled accepts orderly).survey.Lists program
              (.start (start.after past).machine.distances) [] :=
            Lox.Session.lists_of_accepts rfl accepts
          have ran := simulates_interpret steps lists rfl sound rfl bound.outside
          unfold Simulates at ran
          dsimp only at ran ⊢
          generalize Lox.interpret steps program ((start.after past).bound program) = result,
            interpret steps program direct.state = result' at ran
          cases ran with
          | ok grows _ =>
              exact .ok ⟨⟨_, grows.sound⟩, grows.environment.trans bound.outside, rfl⟩
          | error grows =>
              exact .error ⟨⟨_, grows.sound⟩, grows.environment.trans bound.outside, rfl⟩

/-- Both sessions reply alike and go on from the same point. -/
theorem Follows.reply (follows : Follows (start.survey past) (start.after past) direct)
    (settled : Lox.Session.Settled start past)
    (orderly : start.Orderly (past ++ [(steps, source)])) :
    (start.after past).reply (.run steps source) = direct.reply (steps, source) ∧
      Follows (start.survey (past ++ [(steps, source)])) (start.after (past ++ [(steps, source)]))
        (direct.next (steps, source)) := by
  have ends := follows.run settled orderly
  rw [Lox.Session.after_concat]
  unfold Lox.Session.reply Lox.Session.proceed Session.reply Session.next Request.perform
  dsimp only
  rw [Lox.Session.step_bind]
  generalize Lox.Session.run steps source (start.after past) = result,
    Session.run steps source direct = result' at ends
  cases ends with
  | ok follows =>
      refine ⟨?_, follows⟩
      dsimp only
      rw [follows.output]
      rfl
  | error follows =>
      refine ⟨?_, follows⟩
      dsimp only
      rw [follows.output]

/-- Texts that come after others get the same replies in both sessions. -/
theorem Follows.replies {future : List (Nat × String)}
    (follows : Follows (start.survey past) (start.after past) direct)
    (settled : ∀ past, Lox.Session.Settled start past) (orderly : start.Orderly (past ++ future)) :
    (start.after past).replies (future.map fun input => .run input.1 input.2) =
      direct.replies future := by
  induction future generalizing past direct with
  | nil => rfl
  | cons input rest ih =>
      obtain ⟨steps, source⟩ := input
      have split : past ++ (steps, source) :: rest = (past ++ [(steps, source)]) ++ rest := by simp
      obtain ⟨same, followsOn⟩ := follows.reply (settled past) (orderly.front split)
      have later := ih followsOn (split ▸ orderly)
      rw [List.map_cons, Lox.Session.replies, Session.replies, same, ← later,
        Lox.Session.next_run, Lox.Session.after_concat]

end Text

end Session

end Lexical

namespace Session

/-- Scoping is lexical. Every session gives the same replies, text for text, as the
session of the direct evaluator, in which every declaration of a local name makes a
cell of its own and every function captures the names at its declaration. Loops with
a variable of their own have to stand in lists of statements. -/
theorem lexically_scoped (time : Native → Nat → Except String Float) (policy : SinkPolicy)
    (inputs : List (Nat × String))
    (orderly : (Session.start (Host.ofTime time) policy).Orderly inputs) :
    (Session.start (Host.ofTime time) policy).replies
        (inputs.map fun input => .run input.1 input.2) =
      (Lexical.Session.start (Host.ofTime time) policy).replies inputs := by
  have follows : Lexical.Session.Follows ((Session.start (Host.ofTime time) policy).survey [])
      ((Session.start (Host.ofTime time) policy).after [])
      (Lexical.Session.start (Host.ofTime time) policy) :=
    Lexical.Session.follows_start _ time policy
  exact follows.replies (settled_start time policy) orderly

/-- A single text is orderly if the program in it is. -/
theorem orderly_single {start : Session} {steps : Nat} {source : String}
    (orderly : ∀ program, (readProgram source start.nextReference).1 = .ok program →
      Stmt.ListOrderly program) : start.Orderly [(steps, source)] := by
  intro past _ _ future program shape accepts
  cases past with
  | nil =>
      cases shape
      exact orderly program accepts.1
  | cons _ rest => cases rest <;> cases shape

/-- A function that is declared in a loop and called behind it. -/
def loopText : String :=
  "var f; { for (var i = nil; i == nil; i = true) { fun g() { return i; } f = g; } } print f();"

theorem reads_loopText :
    (match (readProgram loopText 0).1 with
      | .ok program => decide (Stmt.ListOrderly program)
      | .error _ => false) = true ∧
    (silent.replies [.run 30 loopText]).map Reply.output = ["true\n"] := by
  decide +kernel

/-- The function sees the variable of the loop as the loop has left it, by the machine
and by the direct evaluator. -/
theorem lexically_scoped_loop :
    silent.Orderly [(30, loopText)] ∧
    (silent.replies [.run 30 loopText]).map Reply.output = ["true\n"] ∧
    silent.replies [.run 30 loopText] =
      (Lexical.Session.start (Host.ofTime fun _ _ => .error "no time") .unlimited).replies
        [(30, loopText)] := by
  obtain ⟨checked, printed⟩ := reads_loopText
  have orderly : silent.Orderly [(30, loopText)] := by
    apply orderly_single
    intro program read
    have numbered : silent.nextReference = 0 := rfl
    rw [numbered] at read
    rw [read] at checked
    exact of_decide_eq_true checked
  exact ⟨orderly, printed, lexically_scoped _ .unlimited _ orderly⟩

end Session

end Lox
